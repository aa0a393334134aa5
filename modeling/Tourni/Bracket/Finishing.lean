import Tourni.Bracket.Entrants
import Tourni.Bracket.Simulation

/-!
# Who can still win

Whatever is on the screen, as long as each decided row was counted once, the host can open the bracket again and decide
its current round as it likes. So who can become champion are the entrants among the winners of the last document, and
nobody else.
-/

namespace Tourni
open Mirror Transition

/-- The host can go on from `s` to `t`, counting each decided row once. -/
def Onward (s t : Screen) : Prop := Leads Screen.step CountsOnce s t

/-- The sides in `won` can be tapped: no second button is that of a group called like a bye. -/
def Tappable (L : List Group) (won : Nat → Side) : Prop :=
  ∀ r < L.length / 2, won r = .second → nameAt L (seat L.length r .second) ≠ some "FREE"

/-- A freshly opened bracket after a tap in each of the first `n` rows of its current round. -/
structure Tapped (reg : Registration) (s : Screen) (k : Nat) (v : Tournament) (won : Nat → Side) (n : Nat) :
    Prop where
  consistent : Consistent reg s
  fair : Fair reg s k v
  initialized : s.controller.initialized = true
  caughtUp : s.seen = s.stored.length
  hidden : ∀ row, n ≤ row → s.visibleCells ⟨k⟩ row = none
  picked : ∀ row ∈ s.picked, row < n
  count : s.controller.winnerSelectedCount = n
  prompt : s.prompt = true ↔ n = v.winners.length / 2
  decided : ∃ ps : List Pick, s.controller.tournament = v.play v.winners (k + 1) ps ∧
    (∀ p ∈ ps, p.Valid v.winners (reg.added v.winners)) ∧ ∀ r < n, lastPick ps r = some (won r)

variable {reg : Registration} {s : Screen} {k n i : Nat} {v t : Tournament} {won : Nat → Side} {g : Group}
  {name : String}

theorem Stage.version (stage : Stage reg k v) (unfinished : k < reg.rounds) : Version reg k v := by
  rcases stage with ⟨-, version⟩ | ⟨done, -⟩
  · exact version
  · omega

/-! ### Opening the bracket again -/

/-- The prompt can be answered. -/
theorem Fair.lower (fair : Fair reg s k v) (consistent : Consistent reg s) :
    ∃ t, Onward s t ∧ t.stored = s.stored ∧ t.prompt = false ∧ Consistent reg t ∧ Fair reg t k v := by
  cases up : s.prompt with
  | false => exact ⟨s, .refl s, rfl, up, consistent, fair⟩
  | true =>
    have inRound := fair.inRound (consistent.initialized_of_prompt up) (fair.caughtUp_of_prompt up)
    have positive := reg.rounds_pos
    have current : 0 < shownRounds reg.rounds k := Nat.lt_min.mpr ⟨Nat.succ_pos k, positive⟩
    have onScreen : ofRound? s.controller.bracketViewArr s.controller.currRound =
        some ⟨shownRounds reg.rounds k - 1⟩ := by
      rw [inRound.currRound, ofRound?_of_pos current, inRound.placed.arr, tables_getElem? (by omega)]
    obtain ⟨t, no⟩ : ∃ t, s.no = some t := by
      unfold Screen.no
      rw [if_pos up, onScreen]
      exact ⟨_, rfl⟩
    have still := consistent.no no
    have after := fair.no no
    obtain ⟨-, _, -, rfl⟩ := Screen.no_inv no
    exact ⟨_, .single (e := .no) trivial no, rfl, rfl, still, after⟩

/-- The bracket can be left and opened again, with no row of the current round decided. -/
theorem Fair.open_again (fair : Fair reg s k v) (consistent : Consistent reg s) (unfinished : k < reg.rounds)
    (won : Nat → Side) : ∃ t, Onward s t ∧ t.stored = s.stored ∧ Tapped reg t k v won 0 := by
  obtain ⟨down, lowered, stored, noPrompt, consistent, fair⟩ := fair.lower consistent
  have reopens : down.reopen = some (Screen.opened down.controller.gameCode down.controller.host down.stored) := by
    unfold Screen.reopen
    rw [if_neg (by simp [noPrompt])]
  have fresh := consistent.reopen reopens
  have after := fair.reopen reopens
  have toFresh : Onward down _ := .single (e := .reopen) trivial reopens
  generalize opened : Screen.opened down.controller.gameCode down.controller.host down.stored = o at *
  have same : o.stored = down.stored := by rw [← opened]; rfl
  have notYet : o.controller.initialized = false := by rw [← opened]; rfl
  have behind := after.blank notYet
  obtain ⟨document, last, loaded⟩ := after.last
  rw [List.getLast?_eq_getElem?] at last
  obtain ⟨low, high⟩ := after.seen
  obtain ⟨d, shown, loadedAfter, kept⟩ := BracketController.snapshot_fresh after.stage.sized notYet
    (fresh.blank notYet).arr
  have snapshots : o.snapshot (o.stored.length - 1) =
      some { o.reloadData with controller := d, seen := o.stored.length - 1 + 1, picked := [] } := by
    unfold Screen.snapshot
    rw [if_pos (by omega)]
    simp only [last, Option.bind_eq_bind, Option.bind_some, fresh.code, loaded, shown]
  have ready := fresh.snapshot snapshots
  have inTime := after.snapshot fresh snapshots
  have version := inTime.stage.version unfinished
  have rows : 0 < v.winners.length / 2 := by
    rw [version.winners_length, half_pow_sub unfinished]
    exact Nat.pow_pos (by decide)
  refine ⟨_, lowered.trans (toFresh.trans (.single (e := .snapshot _) trivial snapshots)), same.trans stored, ?_⟩
  refine ⟨ready, inTime, loadedAfter.initialized, ?_, fun _ _ => rfl, ?_, ?_, ?_, [], loadedAfter.tournament, ?_, ?_⟩
  · show o.stored.length - 1 + 1 = o.stored.length
    omega
  · intro row member
    cases member
  · exact kept.2.2.trans (after.behind behind).1
  · refine iff_of_false ?_ (by omega)
    rw [show o.reloadData.prompt = false from (after.behind behind).2]
    exact Bool.false_ne_true
  · intro p member
    cases member
  · intro r below
    omega

/-! ### Deciding the current round -/

theorem Tapped.inRound (tapped : Tapped reg s k v won n) : InRound reg s k v :=
  tapped.fair.inRound tapped.initialized tapped.caughtUp

theorem Tapped.rowsNeeded (tapped : Tapped reg s k v won n) (unfinished : k < reg.rounds) :
    s.rowsNeeded = v.winners.length / 2 := by
  rw [tapped.inRound.rowsNeeded (tapped.consistent.running tapped.initialized) tapped.fair.stage,
    (tapped.fair.stage.version unfinished).winners_length, half_pow_sub unfinished]

/-- `t` is `s` with one more cell on screen. -/
structure Displays (s t : Screen) (table : UITableView) (row : Nat) (cell : MatchUpHost) : Prop where
  controller : t.controller = s.controller
  visible : t.visibleCells table row = some cell
  others : ∀ row', row' ≠ row → t.visibleCells table row' = s.visibleCells table row'
  prompt : t.prompt = s.prompt
  stored : t.stored = s.stored
  seen : t.seen = s.seen
  picked : t.picked = s.picked

theorem displays_of_setCell (s : Screen) (table : UITableView) (row : Nat) (cell : MatchUpHost)
    (reusable : UITableView → List MatchUpHost) :
    Displays s { s.setCell table row (some cell) with reusable } table row cell :=
  ⟨rfl, Screen.setCell_self .., fun _ other => Screen.setCell_of_ne fun same => other same.2, rfl, rfl, rfl, rfl⟩

theorem Fair.display {t : Screen} {table : UITableView} {row : Nat} {reuse : Option Nat} (fair : Fair reg s k v)
    (displayed : s.display table row reuse = some t) : Fair reg t k v := by
  obtain ⟨_, _, _, _, -, -, -, -, rfl⟩ := Screen.display_inv displayed
  exact fair.cells _ _

/-- The next row comes on screen in a new cell. -/
theorem Tapped.display (tapped : Tapped reg s k v won n) (unfinished : k < reg.rounds)
    (more : n < v.winners.length / 2) :
    ∃ cell t, s.display ⟨k⟩ n none = some t ∧ Displays s t ⟨k⟩ n cell ∧ cell.round = k + 1 ∧
      cell.winnerSelected = false ∧
      ∀ side, (cell.groupOf side).name = nameAt v.winners (seat v.winners.length n side) := by
  have running := tapped.consistent.running tapped.initialized
  have version := tapped.fair.stage.version unfinished
  have inRound := tapped.inRound
  have shown := shownRounds_of_lt unfinished
  have round : s.controller.currRound = k + 1 := inRound.currRound.trans shown
  have rows : s.controller.numberOfRows ⟨k⟩ = some (v.winners.length / 2) := by
    rw [inRound.placed.rows k (by omega), version.winners_length, half_pow_sub unfinished]
  obtain ⟨ps, played, -⟩ := tapped.decided
  let L := v.winners.map (markAll v.winners ps)
  have filled : s.controller.bracketViewGroupDict ⟨k⟩ = some L := by
    rw [running.current k (by omega), played, play_roundList, Nat.add_sub_cancel, List.getElem?_modify_eq,
      version.current]
    rfl
  have size : L.length = v.winners.length := List.length_map _
  have found : s.controller.bracketViewArr.findIdx? (· == (⟨k⟩ : UITableView)) = some k := by
    rw [inRound.placed.arr, List.findIdx?_eq_some_iff_getElem]
    refine ⟨by rw [tables_length]; omega, by simp [tables], fun j before => ?_⟩
    simp [tables]
    omega
  obtain ⟨g1, first⟩ : ∃ g, L[n]? = some g := ⟨_, List.getElem?_eq_getElem (by omega)⟩
  obtain ⟨g2, second⟩ : ∃ g, L[(L.length - 1) - n]? = some g := ⟨_, List.getElem?_eq_getElem (by omega)⟩
  have names : ∀ i, nameAt L i = nameAt v.winners i := fun i =>
    congrArg Prod.fst (congrFun (entryAt_congr (marked_entries v.winners ps)) i)
  let cell := MatchUpHost.setMatchup {} g1 g2 (k + 1)
  have configured : s.controller.cellForRowAt ⟨k⟩ n {} = some cell := by
    unfold BracketController.cellForRowAt
    simp only [filled, Option.bind_eq_bind, Option.bind_some, first, second, found]
    rfl
  refine ⟨cell, _, ?_, displays_of_setCell s ⟨k⟩ n cell (Function.update s.reusable ⟨k⟩ (s.reusable ⟨k⟩)), rfl, ?_, ?_⟩
  · unfold Screen.display
    rw [rows, Option.bind_eq_bind, Option.bind_some, if_pos ⟨more, tapped.hidden n (Nat.le_refl n)⟩]
    simp only [Screen.dequeue, Option.bind_eq_bind, Option.bind_some, configured]
  · show (if _ then false else false) = false
    exact ite_self _
  · intro side
    cases side with
    | first => exact (nameAt_of_getElem? first).symm.trans (names n)
    | second =>
      rw [← names, ← size]
      exact (nameAt_of_getElem? second).symm

/-- A tap in the next row decides it. -/
theorem Tapped.step (tapped : Tapped reg s k v won n) (unfinished : k < reg.rounds)
    (tappable : Tappable v.winners won) (more : n < v.winners.length / 2) :
    ∃ t, Onward s t ∧ t.stored = s.stored ∧ Tapped reg t k v won (n + 1) := by
  obtain ⟨cell, d, displayed, displays, ofCell, unselected, names⟩ := tapped.display unfinished more
  have consistent := tapped.consistent.display displayed
  have fair := tapped.fair.display displayed
  have toDisplayed : Onward s d := .single (e := .display ⟨k⟩ n none) trivial displayed
  have visible := displays.visible
  have currRound : d.controller.currRound = k + 1 := by
    rw [displays.controller]
    exact tapped.inRound.currRound.trans (shownRounds_of_lt unfinished)
  have round : cell.round = d.controller.currRound := ofCell.trans currRound.symm
  have down : d.prompt = false := by
    have low : ¬ d.prompt = true := fun up => by
      have := tapped.prompt.mp (displays.prompt.symm.trans up)
      omega
    simpa using low
  have counts : ofRound? d.controller.roundMatches d.controller.currRound = some (v.winners.length / 2) := by
    have needed := tapped.rowsNeeded unfinished
    unfold Screen.rowsNeeded at needed
    rw [displays.controller]
    cases entry : ofRound? s.controller.roundMatches s.controller.currRound with
    | none =>
      rw [entry, Option.getD_none] at needed
      omega
    | some rows => rw [← needed, entry, Option.getD_some]
  have accepted : cell.accepts (won n) d.controller = true := by
    have host : d.controller.isHost = true := consistent.host
    have current : (cell.round == d.controller.getCurrentRound) = true := beq_iff_eq.mpr round
    unfold MatchUpHost.accepts
    rw [host, current]
    cases side : won n with
    | first => rfl
    | second =>
      have real : cell.group2.name ≠ some "FREE" := names .second ▸ tappable n more side
      simpa using real
  obtain ⟨t, taps⟩ := consistent.tap_isSome visible round down (won n)
  obtain ⟨cell', visible', -, outcome⟩ := Screen.tap_inv taps
  obtain rfl := Option.some.inj (visible.symm.trans visible')
  obtain ⟨-, picks⟩ := outcome.resolve_left fun refused => by
    rw [accepted] at refused
    cases refused.1
  have once : CountsOnce d (.tap (won n) ⟨k⟩ n) := by
    intro _ _ _ _
    rw [displays.picked]
    exact Or.inl fun member => Nat.lt_irrefl n (tapped.picked n member)
  obtain ⟨ps, played, valid, sides⟩ := tapped.decided
  obtain ⟨p, row, side, validNow, tournament⟩ := consistent.pick_of_tap visible picks
    (tapped.fair.stage.version unfinished) currRound more (displays.controller ▸ played)
  refine ⟨t, toDisplayed.trans (.single (e := .tap (won n) ⟨k⟩ n) once taps), picks.stored.trans displays.stored,
    consistent.picks visible picks, fair.picks consistent visible accepted once picks, ?_, ?_, ?_, ?_, ?_, ?_,
    ps ++ [p], tournament, ?_, ?_⟩
  · rw [picks.initialized, displays.controller, tapped.initialized]
  · rw [picks.seen, picks.stored, displays.seen, displays.stored, tapped.caughtUp]
  · intro other above
    rw [picks.visibleCells, Screen.setCell_of_ne fun same => by omega, displays.others other (by omega)]
    exact tapped.hidden other (by omega)
  · intro other member
    rw [picks.picked, displays.picked] at member
    rcases List.mem_cons.mp member with rfl | old
    · exact Nat.lt_succ_self other
    · exact Nat.lt_succ_of_lt (tapped.picked other old)
  · rw [picks.winnerSelectedCount, displays.controller, tapped.count, unselected, if_neg (by decide)]
    push_cast
    rfl
  · rw [Screen.tap_prompt taps visible accepted counts, displays.controller, tapped.count, unselected,
      Bool.not_false, Bool.true_and, decide_eq_true_iff]
    omega
  · intro q member
    rcases List.mem_append.mp member with old | new
    · exact valid q old
    · obtain rfl := List.mem_singleton.mp new
      exact validNow
  · intro r below
    rw [lastPick_append, row]
    split
    · rename_i here
      rw [side, here]
    · exact sides r (by omega)

/-- Tap after tap, all rows are decided. -/
theorem Tapped.all (tapped : Tapped reg s k v won n) (unfinished : k < reg.rounds)
    (tappable : Tappable v.winners won) (le : n ≤ v.winners.length / 2) :
    ∃ t, Onward s t ∧ t.stored = s.stored ∧ Tapped reg t k v won (v.winners.length / 2) := by
  induction left : v.winners.length / 2 - n generalizing s n with
  | zero =>
    obtain rfl : n = v.winners.length / 2 := by omega
    exact ⟨s, .refl s, rfl, tapped⟩
  | succ left ih =>
    obtain ⟨t, onward, stored, next⟩ := tapped.step unfinished tappable (by omega)
    obtain ⟨u, further, storedAfter, all⟩ := ih next (by omega) (by omega)
    exact ⟨u, onward.trans further, storedAfter.trans stored, all⟩

/-- With all rows decided, the answer Yes stores the round. -/
theorem Tapped.confirm (tapped : Tapped reg s k v won (v.winners.length / 2)) (unfinished : k < reg.rounds) :
    ∃ t ps document, Onward s t ∧ t.stored = s.stored ++ [document] ∧ Settles reg v ps ∧
      (∀ r < v.winners.length / 2, lastPick ps r = some (won r)) ∧ Consistent reg t ∧
      Fair reg t (k + 1) (v.decideRound ps) := by
  obtain ⟨ps, played, valid, sides⟩ := tapped.decided
  have version := tapped.fair.stage.version unfinished
  have covers : Covers ps v.winners.length := fun r below => by rw [sides r below]; rfl
  have decided : s.controller.tournament.nextRound = v.decideRound ps := by
    rw [played, Tournament.decideRound, version.lists]
  have up : s.prompt = true := tapped.prompt.mpr rfl
  obtain ⟨document, written, -⟩ := (tapped.consistent.running tapped.initialized).sourced.nextRound.stored
  obtain ⟨t, yes⟩ : ∃ t, s.yes = some t := by
    unfold Screen.yes BracketController.nextRound
    rw [if_pos up]
    simp only [Option.bind_eq_bind, written, Option.bind_some]
    exact ⟨_, rfl⟩
  obtain ⟨j, after⟩ := tapped.fair.yes tapped.consistent yes
  have next := version.next unfinished valid covers
  rw [played] at after
  obtain rfl : j = k + 1 := after.stage.sized.unique next.sized
  rw [← played, decided] at after
  have still := tapped.consistent.yes yes
  have onward : Onward s t := .single (e := .yes) trivial yes
  obtain ⟨-, code, document', written', rfl⟩ := Screen.yes_inv yes
  obtain ⟨rfl, rfl⟩ := Prod.mk.inj (Option.some.inj (written.symm.trans written'))
  refine ⟨_, ps, document, onward, ?_, ⟨valid, covers⟩, sides, still, after⟩
  exact if_pos tapped.consistent.code.symm

/-- The current round can be decided with the sides in `won`, and stored. -/
theorem Fair.decide_round (fair : Fair reg s k v) (consistent : Consistent reg s) (unfinished : k < reg.rounds)
    (tappable : Tappable v.winners won) :
    ∃ t ps document, Onward s t ∧ t.stored = s.stored ++ [document] ∧ Settles reg v ps ∧
      (∀ r < v.winners.length / 2, lastPick ps r = some (won r)) ∧ Consistent reg t ∧
      Fair reg t (k + 1) (v.decideRound ps) := by
  obtain ⟨o, opened, storedO, fresh⟩ := fair.open_again consistent unfinished won
  obtain ⟨d, tapping, storedD, all⟩ := fresh.all unfinished tappable (Nat.zero_le _)
  obtain ⟨t, ps, document, confirmed, stored, rest⟩ := all.confirm unfinished
  exact ⟨t, ps, document, opened.trans (tapping.trans confirmed), by rw [stored, storedD, storedO], rest⟩

/-! ### The champion -/

/-- The side on which seat `i` sits, and the first one in all other rows. -/
def backing (L : List Group) (i r : Nat) : Side := if r = row L.length i then side L.length i else .first

theorem backing_tappable {L : List Group} (even : 2 ∣ L.length) (bound : i < L.length)
    (real : nameAt L i ≠ some "FREE") : Tappable L (backing L i) := by
  intro r _ second
  unfold backing at second
  split at second
  · rename_i here
    rwa [← second, here, seat_row_side bound (row_lt_of_even bound even)]
  · cases second

/-- The backed entrant wins its row. -/
theorem backed_left {ps : List Pick} (version : Version reg k v) (unfinished : k < reg.rounds)
    (settles : Settles reg v ps) (bound : i < v.winners.length) (named : nameAt v.winners i = some name)
    (real : name ≠ "FREE") (sides : ∀ r < v.winners.length / 2, lastPick ps r = some (backing v.winners i r)) :
    some name ∈ (v.decideRound ps).winners.map Group.name := by
  have noBye : ¬ reg.added v.winners i := fun isBye =>
    real (Option.some.inj (named.symm.trans (version.seeding.free i bound isBye)))
  have left : i ∈ standing v.winners ps := by
    rw [mem_standing version.seeding settles.1 bound noBye, sides _ (row_lt_of_even bound (version.even unfinished)),
      backing, if_pos rfl]
    exact fun same => Side.other_ne _ (Option.some.inj same).symm
  have names : (v.decideRound ps).winners.map Group.name = (standing v.winners ps).map (nameAt v.winners) :=
    play_winner_names rfl
  rw [names, ← named]
  exact List.mem_map_of_mem left

/-- Who is left in the last document can win all remaining rounds. -/
theorem Fair.can_win (fair : Fair reg s k v) (consistent : Consistent reg s) (length : s.stored.length = k + 1)
    (left : some name ∈ v.winners.map Group.name) (real : name ≠ "FREE") :
    ∃ u final champion, Onward s u ∧ u.stored[reg.rounds]? = some final ∧
      Tournament.getTournament reg.gameCode final = some champion ∧
      champion.winners.map Group.name = [some name] := by
  have done := fair.stage.sized.done
  induction more : reg.rounds - k generalizing s k v with
  | zero =>
    obtain rfl : k = reg.rounds := by omega
    obtain ⟨document, last, loaded⟩ := fair.last
    rw [List.getLast?_eq_getElem?, length, Nat.add_sub_cancel] at last
    refine ⟨s, document, v, .refl s, last, loaded, ?_⟩
    have single : (v.winners.map Group.name).length = 1 := by
      rw [List.length_map, fair.stage.sized.winners, Nat.sub_self, Nat.pow_zero]
    obtain ⟨only, alone⟩ := List.length_eq_one_iff.mp single
    rw [alone] at left ⊢
    rw [List.mem_singleton.mp left]
  | succ more ih =>
    have unfinished : k < reg.rounds := by omega
    have version := fair.stage.version unfinished
    obtain ⟨i, here⟩ := List.mem_iff_getElem?.mp left
    obtain ⟨g, seated, named⟩ := Option.map_eq_some_iff.mp (List.getElem?_map (f := Group.name) ▸ here)
    have bound := (List.getElem?_eq_some_iff.mp seated).1
    have called : nameAt v.winners i = some name := (nameAt_of_getElem? seated).trans named
    obtain ⟨t, ps, document, onward, stored, settles, sides, still, after⟩ := fair.decide_round consistent unfinished
      (backing_tappable (version.even unfinished) bound fun free => real (Option.some.inj (called.symm.trans free)))
    obtain ⟨u, final, champion, further, rest⟩ := ih after still (by rw [stored, List.length_append, length]; rfl)
      (backed_left version unfinished settles bound called real sides) (by omega) (by omega)
    exact ⟨u, final, champion, onward.trans further, rest⟩

/-! ### From every reachable screen -/

/-- Before the final is stored, the last document is the version that the run has come to. -/
theorem run_last (clear : reg.Clear) {es : List ScreenEvent}
    (met : Meets Screen.step CountsOnce (Screen.start reg) es)
    (ran : run Screen.step (Screen.start reg) es = some s) (unfinished : s.stored.length ≤ reg.rounds)
    {document : Document} (last : s.stored.getLast? = some document)
    (loaded : Tournament.getTournament reg.gameCode document = some t) :
    Consistent reg s ∧ ∃ k, k < reg.rounds ∧ s.stored.length = k + 1 ∧ Fair reg s k t := by
  obtain ⟨_, _, h, -, -, consistent, k, v, fair, ⟨less, together⟩ | ⟨-, ended⟩⟩ := run_matched clear met ran
  · have length := together.playing.stored.length
    rw [together.stored] at length
    obtain ⟨document', last', loaded'⟩ := fair.last
    obtain rfl := Option.some.inj (last.symm.trans last')
    obtain rfl := Option.some.inj (loaded.symm.trans loaded')
    exact ⟨consistent, k, less, length, fair⟩
  · have := ended.all
    omega

/-- The host is never stuck: before the final is stored, it can decide the current round with any sides that
can be tapped, and the next document has the groups on these sides. -/
theorem round_can_be_decided (clear : reg.Clear) {es : List ScreenEvent}
    (met : Meets Screen.step CountsOnce (Screen.start reg) es)
    (ran : run Screen.step (Screen.start reg) es = some s) (unfinished : s.stored.length ≤ reg.rounds)
    {document : Document} (last : s.stored.getLast? = some document)
    (loaded : Tournament.getTournament reg.gameCode document = some v) (tappable : Tappable v.winners won) :
    ∃ u next w, Onward s u ∧ u.stored = s.stored ++ [next] ∧
      Tournament.getTournament reg.gameCode next = some w ∧ w.roundList.getLast? = some w.winners ∧
      (w.winners.map Group.name).Perm ((List.range (v.winners.length / 2)).map fun r =>
        nameAt v.winners (seat v.winners.length r (won r))) := by
  obtain ⟨consistent, k, less, -, fair⟩ := run_last clear met ran unfinished last loaded
  obtain ⟨u, ps, next, onward, stored, ⟨valid, covers⟩, sides, still, after⟩ :=
    fair.decide_round consistent less tappable
  have version := fair.stage.version less
  obtain ⟨next', last', loaded'⟩ := after.last
  rw [stored, List.getLast?_concat] at last'
  obtain rfl := Option.some.inj last'
  refine ⟨u, next, _, onward, stored, loaded', List.getLast?_concat, ?_⟩
  have names : (v.decideRound ps).winners.map Group.name = (standing v.winners ps).map (nameAt v.winners) :=
    play_winner_names rfl
  rw [names]
  refine ((standing_perm version.seeding valid covers (version.even less)).map _).trans (List.Perm.of_eq ?_)
  rw [List.map_map]
  refine List.map_congr_left fun r inside => ?_
  rw [Function.comp_apply, picked, sides r (List.mem_range.mp inside), Option.getD_some]

/-- The first round of three groups is stored, and the final is still to come. -/
theorem threeConfirmed_last :
    ∃ s document v, run Screen.step (Screen.start three) threeConfirmed = some s ∧ s.stored.length ≤ three.rounds ∧
      s.stored.getLast? = some document ∧ Tournament.getTournament three.gameCode document = some v ∧
      v.winners.map Group.name = [some "A", some "B"] := by
  have ends : ((run Screen.step (Screen.start three) threeConfirmed).bind fun s =>
      s.stored.getLast?.bind fun document => (Tournament.getTournament three.gameCode document).map fun v =>
        (s.stored.length, v.winners.map Group.name)) = some (2, [some "A", some "B"]) := by rfl
  obtain ⟨s, ran, ends⟩ := Option.bind_eq_some_iff.mp ends
  obtain ⟨document, last, ends⟩ := Option.bind_eq_some_iff.mp ends
  obtain ⟨v, loaded, ends⟩ := Option.map_eq_some_iff.mp ends
  obtain ⟨length, names⟩ := Prod.mk.inj ends
  have rounds : three.rounds = 2 := by decide
  exact ⟨s, document, v, ran, by omega, last, loaded, names⟩

theorem round_can_be_decided_three :
    ∃ s document v u next w, run Screen.step (Screen.start three) threeConfirmed = some s ∧
      s.stored.getLast? = some document ∧ Tournament.getTournament three.gameCode document = some v ∧
      Onward s u ∧ u.stored = s.stored ++ [next] ∧ Tournament.getTournament three.gameCode next = some w ∧
      w.roundList.getLast? = some w.winners ∧
      (w.winners.map Group.name).Perm ((List.range (v.winners.length / 2)).map fun r =>
        nameAt v.winners (seat v.winners.length r .first)) := by
  obtain ⟨s, document, v, ran, unfinished, last, loaded, -⟩ := threeConfirmed_last
  have tappable : Tappable v.winners fun _ => .first := by
    intro r _ second
    cases second
  obtain ⟨u, next, w, decided⟩ :=
    round_can_be_decided (Or.inl (by decide)) (by decide) ran unfinished last loaded tappable
  exact ⟨s, document, v, u, next, w, ran, last, loaded, decided⟩

theorem Screen.step_stored {s t : Screen} {e : ScreenEvent} (stepped : s.step e = some t) : s.stored <+: t.stored := by
  cases e with
  | display table row reuse =>
    obtain ⟨_, _, _, _, -, -, -, -, rfl⟩ := Screen.display_inv stepped
    exact List.prefix_refl _
  | endDisplay table row =>
    obtain ⟨_, -, rfl⟩ := Screen.endDisplay_inv stepped
    exact List.prefix_refl _
  | tap side table row =>
    obtain ⟨_, -, -, ⟨-, rfl⟩ | ⟨-, picks⟩⟩ := Screen.tap_inv stepped
    · exact List.prefix_refl _
    · rw [picks.stored]
  | yes =>
    obtain ⟨-, code, document, -, rfl⟩ := Screen.yes_inv stepped
    dsimp only
    split
    · exact List.prefix_append _ _
    · exact List.prefix_refl _
  | no =>
    obtain ⟨-, _, -, rfl⟩ := Screen.no_inv stepped
    exact List.prefix_refl _
  | snapshot version =>
    obtain ⟨-, _, _, _, -, -, -, rfl⟩ := Screen.snapshot_inv stepped
    exact List.prefix_refl _
  | reopen =>
    obtain ⟨-, rfl⟩ := Screen.reopen_inv stepped
    exact List.prefix_refl _

theorem Onward.stored {s t : Screen} (onward : Onward s t) : s.stored <+: t.stored := by
  obtain ⟨es, -, ran⟩ := onward
  have keep : ∀ (u : Screen) e w, s.stored <+: u.stored → u.step e = some w → s.stored <+: w.stored :=
    fun _ _ _ before stepped => before.trans (Screen.step_stored stepped)
  exact run_invariant' keep (List.prefix_refl _) ran

/-- The winners of a tournament are the groups on the last seats of its elimination. -/
theorem Refines.last {seats : List (List Nat)} {S : List Nat} (refines : Refines reg t seats)
    (here : seats[i]? = some S) (last : seats.length = i + 1) :
    t.winners.map Group.name = S.map (nameAt reg.padded) := by
  obtain ⟨L, listed, entries⟩ := refines.list here
  have winners := refines.winners
  rw [List.getLast?_eq_getElem?, ← refines.length, last, Nat.add_sub_cancel, listed] at winners
  have names := congrArg (List.map Prod.fst) entries
  rw [Option.some.inj winners, List.map_map, List.map_map] at names
  exact names

/-- Who wins the final was left in every document before it. -/
theorem Decided.left_before {pss : List (List Pick)} (decided : Decided reg pss) (clear : reg.Clear) {j : Nat}
    (le : i ≤ j) (bound : j ≤ pss.length) {x : Option String}
    (left : x ∈ (reg.after (pss.take j)).winners.map Group.name) :
    x ∈ (reg.after (pss.take i)).winners.map Group.name := by
  have refines := decided.refines clear
  have length := reg.elimination_length pss
  have names : ∀ m ≤ pss.length, ∃ S, (reg.elimination pss)[m]? = some S ∧
      (reg.after (pss.take m)).winners.map Group.name = S.map (nameAt reg.padded) := by
    intro m inside
    obtain ⟨S, here⟩ : ∃ S, (reg.elimination pss)[m]? = some S := ⟨_, List.getElem?_eq_getElem (by omega)⟩
    refine ⟨S, here, ((decided.take m).refines clear).last (i := m) ?_ ?_⟩
    · rw [reg.elimination_take inside, List.getElem?_take_of_lt (Nat.lt_succ_self m), here]
    · rw [reg.elimination_length, List.length_take_of_le inside]
  obtain ⟨S, here, namesI⟩ := names i (by omega)
  obtain ⟨T, there, namesJ⟩ := names j bound
  rw [namesJ] at left
  rw [namesI]
  obtain ⟨seat, member, rfl⟩ := List.mem_map.mp left
  exact List.mem_map_of_mem (Elimination.mem_of_le refines.chain le here there member)

/-- Before the final is stored, and as long as each decided row is counted once, an entrant that is not called like a
bye can still become champion when it is among the winners of the last document, and only then. -/
theorem can_win_iff (clear : reg.Clear) {es : List ScreenEvent}
    (met : Meets Screen.step CountsOnce (Screen.start reg) es)
    (ran : run Screen.step (Screen.start reg) es = some s) (unfinished : s.stored.length ≤ reg.rounds)
    {document : Document} (last : s.stored.getLast? = some document)
    (loaded : Tournament.getTournament reg.gameCode document = some v) (real : name ≠ "FREE") :
    some name ∈ v.winners.map Group.name ↔
      ∃ u final champion, Onward s u ∧ u.stored[reg.rounds]? = some final ∧
        Tournament.getTournament reg.gameCode final = some champion ∧
        champion.winners.map Group.name = [some name] := by
  obtain ⟨consistent, k, less, length, fair⟩ := run_last clear met ran unfinished last loaded
  constructor
  · intro left
    exact fair.can_win consistent length left real
  · rintro ⟨u, final, champion, onward, stored, crowned, won⟩
    obtain ⟨fs, after, further⟩ := id onward
    obtain ⟨pss, decided, -, documents⟩ := run_decided clear ((meets_append ran).mpr ⟨met, after⟩)
      (run_append ran further)
    have here : u.stored[k]? = some document := by
      rw [List.getLast?_eq_getElem?, length, Nat.add_sub_cancel] at last
      obtain ⟨more, together⟩ := onward.stored
      rw [← together, List.getElem?_append_left (by omega), last]
    obtain ⟨-, loadedK⟩ := documents k (by omega) document here
    obtain ⟨bound, loadedR⟩ := documents reg.rounds (Nat.le_refl _) final stored
    obtain rfl := Option.some.inj (loaded.symm.trans loadedK)
    obtain rfl := Option.some.inj (crowned.symm.trans loadedR)
    refine decided.left_before clear less.le bound ?_
    rw [won]
    exact List.mem_singleton.mpr rfl

/-- "B" is left in the final, and "C" is not. -/
theorem can_win_iff_three :
    ∃ s document v, run Screen.step (Screen.start three) threeConfirmed = some s ∧
      s.stored.getLast? = some document ∧ Tournament.getTournament three.gameCode document = some v ∧
      v.winners.map Group.name = [some "A", some "B"] ∧ ∀ name ∈ ["B", "C"],
        (some name ∈ v.winners.map Group.name ↔
          ∃ u final champion, Onward s u ∧ u.stored[three.rounds]? = some final ∧
            Tournament.getTournament three.gameCode final = some champion ∧
            champion.winners.map Group.name = [some name]) := by
  obtain ⟨s, document, v, ran, unfinished, last, loaded, names⟩ := threeConfirmed_last
  refine ⟨s, document, v, ran, last, loaded, names, fun name member => ?_⟩
  have real : name ≠ "FREE" := by
    rintro rfl
    exact absurd member (by decide)
  exact can_win_iff (Or.inl (by decide)) (by decide) ran unfinished last loaded real

end Tourni
