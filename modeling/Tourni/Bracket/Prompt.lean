import Tourni.Bracket.Champion
import Tourni.Bracket.Consistent

/-!
# The "Complete round" prompt

The prompt counts cells, not rows: a cell that is used for another row in between counts its row again. As long
as every counted tap is the first one of its row, the prompt comes up once all rows are picked.
-/

namespace Tourni
open Mirror

/-- `matches[currRound - 1]`, the number of rows of the current round. -/
def Screen.rowsNeeded (s : Screen) : Nat :=
  (ofRound? s.controller.roundMatches s.controller.currRound).getD 0

def AllPicked (s : Screen) : Prop := ∀ r < s.rowsNeeded, r ∈ s.picked

instance (s : Screen) : Decidable (AllPicked s) := inferInstanceAs (Decidable (∀ r < s.rowsNeeded, _))

/-- A tap that is counted is on a row without a pick, unless all rows are picked and not yet confirmed. -/
def CountsOnce (s : Screen) : ScreenEvent → Prop
  | .tap side table row => ∀ cell ∈ s.visibleCells table row, cell.accepts side s.controller = true →
    cell.winnerSelected = false → row ∉ s.picked ∨ (AllPicked s ∧ s.seen = s.stored.length)
  | _ => True

instance (s : Screen) : (e : ScreenEvent) → Decidable (CountsOnce s e)
  | .tap _ table row => inferInstanceAs (Decidable (∀ cell ∈ s.visibleCells table row, _ → _ → _ ∨ _))
  | .display .. | .endDisplay .. | .yes | .no | .snapshot _ | .reopen => isTrue trivial

/-- The host is in the round after `k` decided ones, and has seen everything that is stored. -/
structure InRound (reg : Registration) (s : Screen) (k : Nat) (v : Tournament) : Prop where
  placed : s.controller.Placed reg.rounds k
  currRound : s.controller.currRound = shownRounds reg.rounds k
  progress : Progress reg k v s.controller.tournament s.picked
  picked : ∀ r ∈ s.picked, r < s.rowsNeeded
  counted : AllPicked s ∨ s.controller.winnerSelectedCount ≤ s.picked.toFinset.card
  prompt : s.prompt = true → AllPicked s

/-- The host has confirmed a round, and the document is on its way back. -/
structure Confirmed (reg : Registration) (s : Screen) (k : Nat) : Prop where
  placed : ∃ j, s.controller.Placed reg.rounds j ∧ s.controller.currRound = shownRounds reg.rounds j ∧
    (k = j + 1 ∨ (k = reg.rounds ∧ j = reg.rounds))
  allPicked : AllPicked s

/-- The version `v` is stored last, and the count of decided rows is right. -/
structure Fair (reg : Registration) (s : Screen) (k : Nat) (v : Tournament) : Prop where
  stage : Stage reg k v
  last : ∃ document, s.stored.getLast? = some document ∧
    Tournament.getTournament reg.gameCode document = some v
  seen : s.seen ≤ s.stored.length ∧ s.stored.length ≤ s.seen + 1
  behind : s.seen < s.stored.length → s.controller.winnerSelectedCount = 0 ∧ s.prompt = false
  blank : s.controller.initialized = false → s.seen < s.stored.length
  confirmed : s.controller.initialized = true → s.seen < s.stored.length → Confirmed reg s k
  inRound : s.controller.initialized = true → s.seen = s.stored.length → InRound reg s k v

variable {reg : Registration} {s t : Screen} {cell : MatchUpHost} {side : Side} {table : UITableView}
  {row version k j : Nat} {v : Tournament}

theorem rowsNeeded_eq (running : Running reg s.controller) (positive : 0 < s.controller.currRound) :
    s.rowsNeeded = 2 ^ (reg.rounds - 1 - (s.controller.currRound - 1)) := by
  have := running.roundsBound
  unfold Screen.rowsNeeded
  rw [ofRound?_of_pos positive, running.roundMatches, generateMatches_getElem? (by omega),
    Option.getD_some]

theorem Consistent.row_lt (consistent : Consistent reg s) (visible : s.visibleCells table row = some cell)
    (round : cell.round = s.controller.currRound) (placed : s.controller.Placed reg.rounds j)
    (currRound : s.controller.currRound = shownRounds reg.rounds j) : row < s.rowsNeeded := by
  have running := consistent.running (consistent.initialized_of_visible visible)
  obtain ⟨L, g1, g2, rfl, positive, -⟩ := consistent.current visible round
  obtain ⟨-, -, ⟨rows, shownRows, below⟩, -⟩ := consistent.cells _ row cell visible
  have placedRows := placed.rows (s.controller.currRound - 1) (by omega)
  rw [shownRows] at placedRows
  rw [rowsNeeded_eq running positive, ← Option.some.inj placedRows]
  exact below

theorem allPicked_of_card (picked : ∀ r ∈ s.picked, r < s.rowsNeeded)
    (enough : s.rowsNeeded ≤ s.picked.toFinset.card) : AllPicked s := by
  have inside : s.picked.toFinset ⊆ Finset.range s.rowsNeeded := by
    intro r member
    exact Finset.mem_range.mpr (picked r (List.mem_toFinset.mp member))
  have all := Finset.eq_of_subset_of_card_le inside (by rwa [Finset.card_range])
  intro r below
  exact List.mem_toFinset.mp (all ▸ Finset.mem_range.mpr below)

theorem Fair.cells (fair : Fair reg s k v) (visibleCells : UITableView → Nat → Option MatchUpHost)
    (reusable : UITableView → List MatchUpHost) : Fair reg { s with visibleCells, reusable } k v := by
  refine ⟨fair.stage, fair.last, fair.seen, fair.behind, fair.blank, ?_, ?_⟩
  · intro initialized behind
    obtain ⟨placed, allPicked⟩ := fair.confirmed initialized behind
    exact ⟨placed, allPicked⟩
  · intro initialized caughtUp
    obtain ⟨placed, currRound, progress, picked, counted, prompt⟩ := fair.inRound initialized caughtUp
    exact ⟨placed, currRound, progress, picked, counted, prompt⟩

theorem Fair.caughtUp_of_prompt (fair : Fair reg s k v) (up : s.prompt = true) :
    s.seen = s.stored.length := by
  by_contra behind
  have low := fair.seen.1
  have down := (fair.behind (by omega)).2
  rw [up] at down
  cases down

/-! ### Picks -/

theorem Screen.Picks.placed {R : Nat} (picks : s.Picks side table row cell t) (placed : s.controller.Placed R k) :
    t.controller.Placed R k := by
  obtain ⟨_, _, _, _, _, _, after⟩ := BracketController.updateWinner_inv picks.controller
  rw [after]
  exact ⟨placed.initialized, placed.arr, placed.rows⟩

/-- The group on a button of a displayed cell is the one on the seat of that button, with the cell's status. -/
theorem groupOf_seat {L W : List Group} {g1 g2 : Group} (same : L.map Group.entry = W.map Group.entry)
    (first : L[row]? = some g1) (second : L[(L.length - 1) - row]? = some g2)
    (entry1 : cell.group1.entry = g1.entry) (entry2 : cell.group2.entry = g2.entry) (side : Side) :
    (W.getD (seat W.length row side) {}).setStatus (cell.groupOf side).status = cell.groupOf side := by
  have size : L.length = W.length := by simpa using congrArg List.length same
  have seat1 : entryAt W row = cell.group1.entry := by
    rw [entry1, ← entryAt_of_getElem? first, entryAt_congr same]
  have seat2 : entryAt W (W.length - 1 - row) = cell.group2.entry := by
    rw [entry2, ← entryAt_of_getElem? second, size, entryAt_congr same]
  cases side with
  | first => exact (Pick.setStatus_congr seat1 _).trans rfl
  | second => exact (Pick.setStatus_congr seat2 _).trans rfl

theorem rows_append {ps : List Pick} {picked : List Nat} (p : Pick)
    (rows : ∀ r, r ∈ picked ↔ ∃ q ∈ ps, q.row = r) (r : Nat) :
    r ∈ p.row :: picked ↔ ∃ q ∈ ps ++ [p], q.row = r := by
  simp only [List.mem_cons, rows, List.mem_append, List.not_mem_nil, or_false]
  constructor
  · rintro (rfl | ⟨q, member, same⟩)
    · exact ⟨p, Or.inr rfl, rfl⟩
    · exact ⟨q, Or.inl member, same⟩
  · rintro ⟨q, member | rfl, same⟩
    · exact Or.inr ⟨q, member, same⟩
    · exact Or.inl same.symm

theorem Progress.picks {t : Screen} (progress : Progress reg k v s.controller.tournament s.picked)
    (consistent : Consistent reg s) (visible : s.visibleCells table row = some cell)
    (picks : s.Picks side table row cell t) (currRound : s.controller.currRound = shownRounds reg.rounds k)
    (below : row < s.rowsNeeded) : Progress reg k v t.controller.tournament t.picked := by
  obtain ⟨L, g1, g2, -, positive, current, -, first, second, entry1, entry2⟩ :=
    consistent.current visible picks.round
  have running := consistent.running (consistent.initialized_of_visible visible)
  rw [picks.tournament, picks.picked]
  rcases progress with ⟨unfinished, version, ps, valid, played, rows⟩ | ⟨rfl, crowned⟩
  · have round : s.controller.currRound = k + 1 := currRound.trans (shownRounds_of_lt unfinished)
    have needed : s.rowsNeeded = v.winners.length / 2 := by
      rw [rowsNeeded_eq running positive, round, version.winners_length, Nat.add_sub_cancel,
        half_pow_sub unfinished]
    have list : L = v.winners.map (markAll v.winners ps) := by
      have listed : v.roundList[k]? = some v.winners := version.current
      rw [round, Nat.add_sub_cancel, played, play_roundList, Nat.add_sub_cancel, List.getElem?_modify_eq,
        listed] at current
      exact (Option.some.inj current).symm
    have entries : L.map Group.entry = v.winners.map Group.entry := by
      rw [list]
      exact marked_entries _ _
    let p : Pick := ⟨row, side, (cell.groupOf side).status, (cell.groupOf side.other).status⟩
    have winner : p.winner v.winners = cell.groupOf side :=
      groupOf_seat entries first second entry1 entry2 side
    have loser : p.loser v.winners = cell.groupOf side.other :=
      groupOf_seat entries first second entry1 entry2 side.other
    have validNow : p.Valid v.winners (reg.added v.winners) := by
      refine ⟨by rw [← needed]; exact below, ?_⟩
      cases side with
      | first => exact version.seeding.not_bye_first (by rw [← needed]; exact below)
      | second =>
        intro bye
        apply picks.notFree rfl
        have free := version.seeding.free _ (seat_lt (by rw [← needed]; exact below) .second) bye
        rw [← free]
        exact (congrArg Group.name winner).symm
    refine Or.inl ⟨unfinished, version, ps ++ [p], ?_, ?_, rows_append p rows⟩
    · intro q member
      rcases List.mem_append.mp member with old | new
      · exact valid q old
      · obtain rfl := List.mem_singleton.mp new
        exact validNow
    · rw [Tournament.play_append, winner, loser, ← played, round]
  · have round : s.controller.currRound = reg.rounds := currRound.trans (shownRounds_self _)
    obtain ⟨a, b, final, -⟩ := crowned.final
    rw [round] at current
    obtain rfl : L = [a, b] := Option.some.inj (current.symm.trans final)
    have top : row = 0 := by
      rw [rowsNeeded_eq running positive, round, Nat.sub_self, Nat.pow_zero] at below
      omega
    subst top
    obtain rfl : g1 = a := (Option.some.inj first).symm
    obtain rfl : g2 = b := (Option.some.inj second).symm
    refine Or.inr ⟨rfl, ?_⟩
    rw [round]
    refine crowned.updateWinner final ?_ (consistent.contains_groupOf visible side)
      (consistent.contains_groupOf visible side.other)
    cases side with
    | first => exact Or.inl ⟨entry1, entry2⟩
    | second => exact Or.inr ⟨entry2, entry1⟩

theorem Fair.picks (fair : Fair reg s k v) (consistent : Consistent reg s)
    (visible : s.visibleCells table row = some cell) (accepted : cell.accepts side s.controller = true)
    (once : CountsOnce s (.tap side table row)) (picks : s.Picks side table row cell t) : Fair reg t k v := by
  have initialized := consistent.initialized_of_visible visible
  have count := picks.winnerSelectedCount
  have currRound := picks.currRound
  have needed : t.rowsNeeded = s.rowsNeeded := by
    rw [Screen.rowsNeeded, Screen.rowsNeeded, currRound, picks.roundMatches]
  have still : AllPicked s → AllPicked t := by
    intro all r below
    rw [picks.picked]
    exact List.mem_cons_of_mem _ (all r (by omega))
  have counting : cell.winnerSelected = false →
      row ∉ s.picked ∨ (AllPicked s ∧ s.seen = s.stored.length) := once cell visible accepted
  refine ⟨fair.stage, ?_, ?_, ?_, ?_, ?_, ?_⟩
  · rw [picks.stored]
    exact fair.last
  · rw [picks.stored, picks.seen]
    exact fair.seen
  · -- A confirmed round has all its rows picked, so no tap of it is counted.
    rw [picks.stored, picks.seen]
    intro behind
    obtain ⟨zero, -⟩ := fair.behind behind
    obtain ⟨⟨j, placedJ, round, -⟩, all⟩ := fair.confirmed initialized behind
    have below := consistent.row_lt visible picks.round placedJ round
    have selected : cell.winnerSelected = true := by
      by_contra notYet
      rcases counting (by simpa using notYet) with new | ⟨-, caughtUp⟩
      · exact new (all row below)
      · omega
    refine ⟨by rw [count, selected, zero]; rfl, ?_⟩
    by_contra up
    have := (picks.prompt (by simpa using up)).1
    rw [selected] at this
    cases this
  · intro notYet
    rw [picks.initialized, initialized] at notYet
    cases notYet
  · rw [picks.stored, picks.seen]
    intro _ behind
    obtain ⟨⟨j, placedJ, round, follows⟩, all⟩ := fair.confirmed initialized behind
    exact ⟨⟨j, picks.placed placedJ, currRound.trans round, follows⟩, still all⟩
  · rw [picks.stored, picks.seen]
    intro _ caughtUp
    obtain ⟨placedK, round, progress, inside, counted, -⟩ := fair.inRound initialized caughtUp
    have below := consistent.row_lt visible picks.round placedK round
    have insideAfter : ∀ r ∈ t.picked, r < t.rowsNeeded := by
      intro r member
      rw [picks.picked] at member
      rw [needed]
      rcases List.mem_cons.mp member with rfl | old
      · exact below
      · exact inside r old
    have grows : s.picked.toFinset.card ≤ t.picked.toFinset.card := by
      rw [picks.picked, List.toFinset_cons]
      exact Finset.card_le_card (Finset.subset_insert _ _)
    have countedAfter : AllPicked t ∨ t.controller.winnerSelectedCount ≤ t.picked.toFinset.card := by
      rcases counted with all | le
      · exact Or.inl (still all)
      · cases selected : cell.winnerSelected with
        | true =>
          right
          rw [count, selected, if_pos rfl]
          omega
        | false =>
          rcases counting selected with new | ⟨all, -⟩
          · right
            rw [count, selected, if_neg (by decide), picks.picked, List.toFinset_cons,
              Finset.card_insert_of_notMem (by simpa using new)]
            push_cast
            omega
          · exact Or.inl (still all)
    refine ⟨picks.placed placedK, currRound.trans round, progress.picks consistent visible picks round below,
      insideAfter, countedAfter, ?_⟩
    intro up
    obtain ⟨selected, rows, here, enough⟩ := picks.prompt up
    rcases countedAfter with all | le
    · exact all
    · apply allPicked_of_card insideAfter
      rw [count, selected, if_neg (by decide)] at le
      have same : t.rowsNeeded = rows := by rw [needed, Screen.rowsNeeded, here]; rfl
      omega

/-! ### Answers -/

theorem Fair.no (fair : Fair reg s k v) (h : s.no = some t) : Fair reg t k v := by
  obtain ⟨up, tbl, -, rfl⟩ := Screen.no_inv h
  have caughtUp : ¬ s.seen < s.stored.length := (fair.caughtUp_of_prompt up).not_lt
  refine ⟨fair.stage, fair.last, fair.seen, fun behind => absurd behind caughtUp, fair.blank,
    fun _ behind => absurd behind caughtUp, ?_⟩
  intro initialized now
  obtain ⟨placed, round, progress, inside, counted, prompt⟩ := fair.inRound initialized now
  exact ⟨⟨placed.initialized, placed.arr, placed.rows⟩, round, progress, inside, Or.inl (prompt up),
    fun down => by cases down⟩

/-- With all rows picked, the list of winners is half the list of the round, and makes the next version. -/
theorem Progress.next {u : Tournament} {picked : List Nat} (progress : Progress reg k v u picked)
    (all : ∀ r < 2 ^ (reg.rounds - 1 - k), r ∈ picked) :
    (∃ L, ofRound? u.roundList (shownRounds reg.rounds k) = some L ∧ 2 * u.winners.length = L.length) ∧
    ∃ j, Stage reg j u.nextRound ∧ (j = k + 1 ∨ (j = reg.rounds ∧ k = reg.rounds)) := by
  rcases progress with ⟨unfinished, version, ps, valid, rfl, rows⟩ | ⟨rfl, crowned⟩
  · have size := version.winners_length
    have half : v.winners.length / 2 = 2 ^ (reg.rounds - 1 - k) := by
      rw [size, half_pow_sub unfinished]
    have covers : Covers ps v.winners.length := by
      intro r below
      rw [half] at below
      exact lastPick_isSome_iff.mpr ((rows r).mp (all r below))
    have next := version.next unfinished valid covers
    refine ⟨⟨v.winners.map (markAll v.winners ps), ?_, ?_⟩, k + 1, ?_, Or.inl rfl⟩
    · rw [shownRounds_of_lt unfinished, play_roundList]
      exact ofRound?_modify (r := k + 1) version.current
    · have winners : (v.play v.winners (k + 1) ps).winners.length = 2 ^ (reg.rounds - (k + 1)) :=
        next.winners_length
      rw [winners, List.length_map, size, two_mul_pow_sub unfinished]
    · by_cases more : k + 1 < reg.rounds
      · exact Or.inl ⟨more, next⟩
      · exact Or.inr ⟨by omega, version.crowned (by omega) valid covers⟩
  · have positive := reg.rounds_pos
    obtain ⟨a, b, final, -⟩ := crowned.final
    refine ⟨⟨[a, b], ?_, ?_⟩, reg.rounds, Or.inr ⟨rfl, crowned.nextRound⟩, Or.inr ⟨rfl, rfl⟩⟩
    · rw [shownRounds_self, ofRound?_of_pos positive, final]
    · rw [crowned.winners_length]
      rfl

theorem InRound.rowsNeeded (inRound : InRound reg s k v) (running : Running reg s.controller)
    (stage : Stage reg k v) : s.rowsNeeded = 2 ^ (reg.rounds - 1 - k) := by
  have done := stage.sized.done
  have positive := reg.rounds_pos
  have round := inRound.currRound
  unfold shownRounds at round
  rw [rowsNeeded_eq running (by omega)]
  congr 1
  omega

theorem Fair.yes (fair : Fair reg s k v) (consistent : Consistent reg s) (h : s.yes = some t) :
    ∃ j, Fair reg t j s.controller.tournament.nextRound := by
  obtain ⟨up, code, document, written, rfl⟩ := Screen.yes_inv h
  have initialized := consistent.initialized_of_prompt up
  have caughtUp := fair.caughtUp_of_prompt up
  have running := consistent.running initialized
  have inRound := fair.inRound initialized caughtUp
  have all := inRound.prompt up
  obtain ⟨-, j, stage, follows⟩ := inRound.progress.next (by
    rw [← inRound.rowsNeeded running fair.stage]
    exact all)
  obtain ⟨document', written', loaded⟩ := running.sourced.nextRound.stored
  obtain ⟨rfl, rfl⟩ := Prod.mk.inj (Option.some.inj (written.symm.trans written'))
  have placed := inRound.placed
  refine ⟨j, stage, ⟨document, ?_, loaded⟩, ?_, fun _ => ⟨rfl, rfl⟩, ?_, ?_, ?_⟩
  · dsimp only
    rw [if_pos consistent.code.symm, List.getLast?_concat]
  · dsimp only
    rw [if_pos consistent.code.symm, List.length_append, List.length_singleton]
    omega
  · intro notYet
    rw [show s.controller.initialized = false from notYet] at initialized
    cases initialized
  · intro _ _
    exact ⟨⟨k, ⟨placed.initialized, placed.arr, placed.rows⟩, inRound.currRound, follows⟩, all⟩
  · intro _ caughtUp'
    dsimp only at caughtUp'
    rw [if_pos consistent.code.symm, List.length_append, List.length_singleton] at caughtUp'
    omega

/-! ### Snapshots and reopening -/

theorem Fair.snapshot (fair : Fair reg s k v) (consistent : Consistent reg s)
    (h : s.snapshot version = some t) : Fair reg t k v := by
  obtain ⟨new, document, w, c, stored, loaded, shown, rfl⟩ := Screen.snapshot_inv h
  obtain ⟨low, high⟩ := fair.seen
  have bound := (List.getElem?_eq_some_iff.mp stored).1
  have behind : s.seen < s.stored.length := by omega
  have isLast : version + 1 = s.stored.length := by omega
  obtain ⟨zero, down⟩ := fair.behind behind
  obtain rfl : w = v := by
    obtain ⟨document', last, loaded'⟩ := fair.last
    rw [List.getLast?_eq_getElem?, ← isLast, Nat.add_sub_cancel, stored] at last
    obtain rfl := Option.some.inj last
    rw [consistent.code] at loaded
    exact Option.some.inj (loaded.symm.trans loaded')
  have sized := fair.stage.sized
  obtain ⟨d, shown', after, kept⟩ : ∃ d, s.controller.snapshot w = some d ∧ d.Loaded reg.rounds k w ∧
      s.controller.Kept d := by
    by_cases initialized : s.controller.initialized = true
    · obtain ⟨⟨j, placed, -, rfl | ⟨rfl, rfl⟩⟩, -⟩ := fair.confirmed initialized behind
      · exact BracketController.snapshot_next sized placed
      · exact BracketController.snapshot_finished sized placed
    · have notYet : s.controller.initialized = false := by simpa using initialized
      exact BracketController.snapshot_fresh sized notYet (consistent.blank notYet).arr
  obtain rfl := Option.some.inj (shown.symm.trans shown')
  have count : c.winnerSelectedCount = 0 := kept.2.2.trans zero
  refine ⟨fair.stage, fair.last, ?_, ?_, ?_, ?_, ?_⟩
  · show version + 1 ≤ s.stored.length ∧ s.stored.length ≤ version + 1 + 1
    omega
  · intro behind'
    change version + 1 < s.stored.length at behind'
    omega
  · intro notYet
    exact absurd (after.initialized.symm.trans notYet) (by decide)
  · intro _ behind'
    change version + 1 < s.stored.length at behind'
    omega
  · intro _ _
    refine ⟨after.toPlaced, after.currRound, ?_, ?_, Or.inr ?_, ?_⟩
    · show Progress reg k w c.tournament []
      rw [after.tournament]
      exact fair.stage.progress
    · intro r member
      cases member
    · show c.winnerSelectedCount ≤ _
      rw [count]
      simp
    · intro up
      rw [show s.prompt = true from up] at down
      cases down

theorem Fair.reopen (fair : Fair reg s k v) (h : s.reopen = some t) : Fair reg t k v := by
  obtain ⟨-, rfl⟩ := Screen.reopen_inv h
  obtain ⟨document, last, loaded⟩ := fair.last
  have nonempty : 0 < s.stored.length := by
    cases stored : s.stored with
    | nil => rw [stored] at last; cases last
    | cons => simp
  refine ⟨fair.stage, ⟨document, last, loaded⟩, ?_, fun _ => ⟨rfl, rfl⟩, ?_, ?_, ?_⟩
  · show s.stored.length - 1 ≤ s.stored.length ∧ s.stored.length ≤ s.stored.length - 1 + 1
    omega
  · intro _
    show s.stored.length - 1 < s.stored.length
    omega
  · intro initialized
    cases initialized
  · intro initialized
    cases initialized

theorem Fair.step (fair : Fair reg s k v) (consistent : Consistent reg s) {e : ScreenEvent}
    (once : CountsOnce s e) (h : s.step e = some t) : ∃ k v, Fair reg t k v := by
  cases e with
  | display table row reuse =>
    obtain ⟨_, _, _, _, -, -, -, -, rfl⟩ := Screen.display_inv h
    exact ⟨k, v, fair.cells _ _⟩
  | endDisplay table row =>
    obtain ⟨_, -, rfl⟩ := Screen.endDisplay_inv h
    exact ⟨k, v, fair.cells _ _⟩
  | tap side table row =>
    obtain ⟨cell, visible, -, ⟨-, rfl⟩ | ⟨accepted, picks⟩⟩ := Screen.tap_inv h
    · exact ⟨k, v, fair⟩
    · exact ⟨k, v, fair.picks consistent visible accepted once picks⟩
  | yes =>
    obtain ⟨j, after⟩ := fair.yes consistent h
    exact ⟨j, _, after⟩
  | no => exact ⟨k, v, fair.no h⟩
  | snapshot version => exact ⟨k, v, fair.snapshot consistent h⟩
  | reopen => exact ⟨k, v, fair.reopen h⟩

theorem start_fair (clear : reg.Clear) : Fair reg (Screen.start reg) 0 reg.created := by
  obtain ⟨document, stored, loaded⟩ := start_stored reg
  have seen : (Screen.start reg).seen = (Screen.start reg).stored.length - 1 := rfl
  have length : (Screen.start reg).stored.length = 1 := by rw [stored]; rfl
  refine ⟨Or.inl ⟨reg.rounds_pos, version_created clear⟩, ⟨document, by rw [stored]; rfl, loaded⟩, by omega,
    fun _ => ⟨rfl, rfl⟩, fun _ => by omega, ?_, ?_⟩
  · intro initialized
    cases initialized
  · intro initialized
    cases initialized

/-- When the prompt is up, every row of the current round is picked, and the answer Yes stores a list of half as
many groups. -/
theorem prompt_sound (clear : reg.Clear) {es : List ScreenEvent}
    (met : Transition.Meets Screen.step CountsOnce (Screen.start reg) es)
    (ran : Transition.run Screen.step (Screen.start reg) es = some s) (up : s.prompt = true) :
    (∀ row < s.rowsNeeded, row ∈ s.picked) ∧
    ∃ t L document v M, s.step .yes = some t ∧ t.stored = s.stored ++ [document] ∧
      Tournament.getTournament reg.gameCode document = some v ∧ v.roundList.getLast? = some M ∧
      ofRound? s.controller.tournament.roundList s.controller.currRound = some L ∧
      2 * M.length = L.length := by
  have keep : ∀ s e t, (Consistent reg s ∧ ∃ k v, Fair reg s k v) → CountsOnce s e → s.step e = some t →
      Consistent reg t ∧ ∃ k v, Fair reg t k v := by
    rintro s e t ⟨consistent, k, v, fair⟩ once h
    exact ⟨consistent.step h, fair.step consistent once h⟩
  obtain ⟨consistent, k, v, fair⟩ :=
    Transition.run_invariant keep ⟨start_consistent reg, 0, _, start_fair clear⟩ met ran
  have initialized := consistent.initialized_of_prompt up
  have caughtUp := fair.caughtUp_of_prompt up
  have running := consistent.running initialized
  have inRound := fair.inRound initialized caughtUp
  have all := inRound.prompt up
  obtain ⟨⟨L, list, half⟩, -⟩ := inRound.progress.next (by
    rw [← inRound.rowsNeeded running fair.stage]
    exact all)
  obtain ⟨document, written, loaded⟩ := running.sourced.nextRound.stored
  let confirmed : Screen := { s with
    controller := { s.controller with
      winnerSelectedCount := 0, tournament := s.controller.tournament.nextRound }
    prompt := false
    stored := s.stored ++ [document] }
  refine ⟨all, confirmed, L, document, _, s.controller.tournament.winners, ?_, rfl, loaded, ?_, ?_, half⟩
  · have stores : s.controller.nextRound = some (confirmed.controller, reg.gameCode, document) := by
      rw [BracketController.nextRound]
      simp only [written]
      rfl
    show s.yes = _
    unfold Screen.yes
    rw [if_pos up, stores, Option.bind_eq_bind, Option.bind_some]
    dsimp only
    rw [if_pos (show reg.gameCode = confirmed.controller.gameCode from consistent.code.symm)]
  · exact List.getLast?_concat
  · rw [inRound.currRound]
    exact list

/-! ### Sixteen groups, four cells -/

def sixteen : Registration :=
  { names := ["A", "B", "C", "D", "E", "F", "G", "H", "I", "J", "K", "L", "M", "N", "O", "P"], title := "Cup"
    description := "", gameCode := "abcd", enough := by decide, nonempty := by decide, distinct := by decide }

/-- The first four rows are decided, the host scrolls down and back, and changes its mind about them. -/
def scrolled : List ScreenEvent :=
  .snapshot 0 ::
    (List.range 4).flatMap (fun r => [.display ⟨0⟩ r none, .tap .first ⟨0⟩ r]) ++
    (List.range 4).flatMap (fun r => [.endDisplay ⟨0⟩ r, .display ⟨0⟩ (r + 4) (some 0)]) ++
    (List.range 4).flatMap (fun r =>
      [.endDisplay ⟨0⟩ (r + 4), .display ⟨0⟩ r (some 0), .tap .second ⟨0⟩ r])

/-- The prompt comes up with four of the eight rows undecided, and Yes stores a list of twelve groups. -/
theorem prompt_with_undecided_rows :
    ∃ s t, Transition.run Screen.step (Screen.start sixteen) scrolled = some s ∧ s.prompt = true ∧
      s.rowsNeeded = 8 ∧ s.picked = [3, 2, 1, 0, 3, 2, 1, 0] ∧
      ((ofRound? s.controller.tournament.roundList s.controller.currRound).map List.length) = some 16 ∧
      s.step .yes = some t ∧
      ((t.stored[1]?.bind (Tournament.getTournament sixteen.gameCode)).bind fun v =>
        v.roundList.getLast?.map List.length) = some 12 := by
  have runs : ((Transition.run Screen.step (Screen.start sixteen) scrolled).bind fun s =>
      (s.step .yes).map fun t => (s.prompt, s.rowsNeeded, s.picked,
        (ofRound? s.controller.tournament.roundList s.controller.currRound).map List.length,
        (t.stored[1]?.bind (Tournament.getTournament sixteen.gameCode)).bind fun v =>
          v.roundList.getLast?.map List.length)) =
      some (true, 8, [3, 2, 1, 0, 3, 2, 1, 0], some 16, some 12) := by rfl
  obtain ⟨s, ran, runs⟩ := Option.bind_eq_some_iff.mp runs
  obtain ⟨t, confirmed, runs⟩ := Option.map_eq_some_iff.mp runs
  simp only [Prod.mk.injEq] at runs
  obtain ⟨up, rows, picked, list, stored⟩ := runs
  exact ⟨s, t, ran, up, rows, picked, list, confirmed, stored⟩

/-- Three groups; the host picks both rows, changes its mind and answers No before it picks again. -/
def threePrompted : List ScreenEvent :=
  [.snapshot 0, .display ⟨0⟩ 0 none, .display ⟨0⟩ 1 none, .tap .first ⟨0⟩ 0, .tap .second ⟨0⟩ 1, .no,
    .tap .first ⟨0⟩ 1]

theorem prompt_sound_three :
    ∃ s, Transition.run Screen.step (Screen.start three) threePrompted = some s ∧ s.prompt = true ∧
      (∀ row < s.rowsNeeded, row ∈ s.picked) ∧
      ∃ t L document v M, s.step .yes = some t ∧ t.stored = s.stored ++ [document] ∧
        Tournament.getTournament three.gameCode document = some v ∧ v.roundList.getLast? = some M ∧
        ofRound? s.controller.tournament.roundList s.controller.currRound = some L ∧
        2 * M.length = L.length := by
  have prompts : (Transition.run Screen.step (Screen.start three) threePrompted).map (·.prompt) =
      some true := by rfl
  obtain ⟨s, ran, up⟩ := Option.map_eq_some_iff.mp prompts
  exact ⟨s, ran, up, prompt_sound (Or.inl (by decide)) (by decide) ran up⟩

end Tourni
