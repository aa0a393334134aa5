import Tourni.Bracket.Finishing
import Tourni.Bracket.Undecided

/-!
# When the prompt comes up

The other half of the "Complete round" prompt: once all rows are picked it is up. A cell that comes on screen for a
row without a pick counts as undecided, so the first tap of the row is counted. Only the answer No takes the prompt
down with all rows picked.
-/

namespace Tourni
open Mirror

/-- A decided row is counted once, no marked copy comes into `winners`, and the prompt is not answered with No. -/
def PlaysOn (s : Screen) (e : ScreenEvent) : Prop := CountsOnce s e ∧ EntersUnmarked s e ∧ e ≠ .no

instance (s : Screen) (e : ScreenEvent) : Decidable (PlaysOn s e) := inferInstanceAs (Decidable (_ ∧ _ ∧ _))

/-- Each picked row of the round after `k` decided ones is counted, and the prompt is up once all of them are. -/
structure Counting (s : Screen) (k : Nat) : Prop where
  cells : ∀ row cell, s.visibleCells ⟨k⟩ row = some cell → row ∉ s.picked → cell.winnerSelected = false
  count : ¬ AllPicked s → s.controller.winnerSelectedCount = s.picked.toFinset.card
  prompt : s.prompt = true ↔ AllPicked s

/-- The run has stored `k` decided rounds, and counts the rows of the next one while the final is to come. -/
def Counts (reg : Registration) (s : Screen) : Prop :=
  Consistent reg s ∧ KeepsUnmarked reg s ∧ ∃ k v, Fair reg s k v ∧
    (k < reg.rounds → s.controller.initialized = true → s.seen = s.stored.length → Counting s k)

variable {reg : Registration} {s t : Screen} {cell : MatchUpHost} {table : UITableView} {row version k r : Nat}
  {side : Side} {reuse : Option Nat} {v : Tournament} {L : List Group} {bye : Nat → Prop} {ps : List Pick} {g : Group}

/-! ### Rows without a pick -/

theorem markAll_unpicked (seeding : Seeding L bye) (valid : ∀ p ∈ ps, p.Valid L bye) (unmarked : Unmarked L)
    (inside : r < L.length / 2) (side : Side) (unpicked : ∀ p ∈ ps, p.row ≠ r) :
    (markAll L ps (L.getD (seat L.length r side) {})).status = false := by
  have bound := seat_lt inside side
  induction ps using List.reverseRecOn with
  | nil =>
    have here := List.getElem?_eq_getElem bound
    rw [List.getD_eq_getElem?_getD, here]
    exact unmarked _ (List.mem_of_getElem? here)
  | append_singleton ps p ih =>
    have now := valid p (by simp)
    have before := ih (fun q hq => valid q (by simp [hq])) fun q hq => unpicked q (by simp [hq])
    have notWinner : nameAt L (seat L.length r side) ≠ nameAt L (p.winnerSeat L.length) := by
      intro same
      have seats := seeding.eq_of_name now.winnerSeat_lt bound now.2 same.symm
      have rows := congrArg (Mirror.row L.length) seats
      rw [Pick.winnerSeat, row_seat now.1, row_seat inside] at rows
      exact unpicked p (by simp) rows
    rw [markAll_append, Function.comp_apply]
    by_cases lost : nameAt L (seat L.length r side) = nameAt L (p.loserSeat L.length)
    · exact Group.mark_loser (by rw [markAll_name]; exact lost) (seeding.names_ne now)
    · rwa [Group.mark_other (by rw [markAll_name]; exact notWinner) (by rw [markAll_name]; exact lost)]

theorem KeepsUnmarked.last (keeps : KeepsUnmarked reg s) (fair : Fair reg s k v) : Unmarked v.winners := by
  obtain ⟨document, last, loaded⟩ := fair.last
  obtain ⟨t, loaded', undecided⟩ := keeps.stored document (List.mem_of_getLast? last)
  obtain rfl := Option.some.inj (loaded.symm.trans loaded')
  exact undecided.winners

/-- The groups of a row without a pick are unmarked in the table of the current round. -/
theorem Fair.unmarked (fair : Fair reg s k v) (keeps : KeepsUnmarked reg s) (running : Running reg s.controller)
    (inRound : InRound reg s k v) (unfinished : k < reg.rounds)
    {rows : Nat} (counted : s.controller.numberOfRows ⟨k⟩ = some rows) (below : r < rows)
    (filled : s.controller.bracketViewGroupDict ⟨k⟩ = some L) (unpicked : r ∉ s.picked)
    (side : Side) (here : L[seat L.length r side]? = some g) : g.status = false := by
  have round : s.controller.currRound = k + 1 := inRound.currRound.trans (shownRounds_of_lt unfinished)
  have version := fair.stage.version unfinished
  have inside : r < v.winners.length / 2 := by
    rw [inRound.placed.rows k (by rw [shownRounds_of_lt unfinished]; omega)] at counted
    rw [version.winners_length, half_pow_sub unfinished, Option.some.inj counted]
    exact below
  obtain ⟨-, -, ps, valid, played, rows⟩ | ⟨done, -⟩ := inRound.progress
  · rw [running.current k (by omega), played, play_roundList, Nat.add_sub_cancel, List.getElem?_modify_eq,
      version.current] at filled
    obtain rfl : v.winners.map (markAll v.winners ps) = L := Option.some.inj filled
    rw [List.length_map] at here
    have open' : ∀ p ∈ ps, p.row ≠ r := fun p member same => unpicked ((rows r).mpr ⟨p, member, same⟩)
    have seated := List.getElem?_eq_getElem (seat_lt inside side)
    rw [List.getElem?_map, seated, Option.map_some] at here
    have status := markAll_unpicked version.seeding valid (keeps.last fair) inside side open'
    rw [List.getD_eq_getElem?_getD, seated, Option.getD_some, Option.some.inj here] at status
    exact status
  · omega

/-! ### The events -/

theorem Counting.display (counting : Counting s k) (consistent : Consistent reg s) (fair : Fair reg s k v)
    (keeps : KeepsUnmarked reg s) (unfinished : k < reg.rounds) (initialized : s.controller.initialized = true)
    (caughtUp : s.seen = s.stored.length) (displayed : s.display table row reuse = some t) : Counting t k := by
  obtain ⟨rows, dequeued, _, cell, counted, below, -, configured, rfl⟩ := Screen.display_inv displayed
  refine ⟨fun row' cell' visible unpicked => ?_, counting.count, counting.prompt⟩
  rcases Screen.setCell_visible visible with ⟨rfl, rfl, isNew⟩ | old
  · obtain rfl := Option.some.inj isNew
    obtain ⟨m, arr⟩ := consistent.arr
    obtain ⟨shown, g1, g2, filled, first, second, -, rfl⟩ := BracketController.cellForRowAt_inv arr configured
    have running := consistent.running initialized
    have inRound := fair.inRound initialized caughtUp
    exact (setMatchup_undecided
      (fair.unmarked keeps running inRound unfinished counted below filled unpicked .first first)
      (fair.unmarked keeps running inRound unfinished counted below filled unpicked .second second) _ _).2.2
  · exact counting.cells row' cell' old unpicked

theorem card_of_allPicked (all : AllPicked s) : s.rowsNeeded ≤ s.picked.toFinset.card := by
  rw [← Finset.card_range s.rowsNeeded]
  refine Finset.card_le_card fun r member => ?_
  exact List.mem_toFinset.mpr (all r (Finset.mem_range.mp member))

theorem Counting.tap (counting : Counting s k) (consistent : Consistent reg s) (fair : Fair reg s k v)
    (unfinished : k < reg.rounds) (initialized : s.controller.initialized = true)
    (caughtUp : s.seen = s.stored.length) (once : CountsOnce s (.tap side table row))
    (tapped : s.tap side table row = some t) : Counting t k := by
  obtain ⟨cell, visible, down, ⟨-, rfl⟩ | ⟨accepted, picks⟩⟩ := Screen.tap_inv tapped
  · exact counting
  have running := consistent.running initialized
  have inRound := fair.inRound initialized caughtUp
  have round : s.controller.currRound = k + 1 := inRound.currRound.trans (shownRounds_of_lt unfinished)
  obtain ⟨-, -, -, here, positive, -⟩ := consistent.current visible picks.round
  rw [round, Nat.add_sub_cancel] at here
  subst here
  have below := consistent.row_lt visible picks.round inRound.placed inRound.currRound
  have undecided : ¬ AllPicked s := fun all => by
    rw [counting.prompt.mpr all] at down
    cases down
  have count := counting.count undecided
  have needed : t.rowsNeeded = s.rowsNeeded := by
    rw [Screen.rowsNeeded, Screen.rowsNeeded, picks.currRound, picks.roundMatches]
  have counts : ofRound? s.controller.roundMatches s.controller.currRound = some s.rowsNeeded := by
    unfold Screen.rowsNeeded at below ⊢
    cases entry : ofRound? s.controller.roundMatches s.controller.currRound with
    | none =>
      rw [entry] at below
      cases below
    | some rows => rfl
  have all : AllPicked t ↔ s.rowsNeeded ≤ t.picked.toFinset.card := by
    rw [← needed]
    refine ⟨card_of_allPicked, allPicked_of_card fun r member => ?_⟩
    rw [picks.picked] at member
    rcases List.mem_cons.mp member with rfl | old
    · exact needed ▸ below
    · exact needed ▸ inRound.picked r old
  -- A tap is counted exactly when it is the first one of its row.
  have first : cell.winnerSelected = false ↔ row ∉ s.picked := by
    refine ⟨fun unselected => ?_, counting.cells row cell visible⟩
    exact (once cell visible accepted unselected).resolve_right fun both => undecided both.1
  have countAfter : t.controller.winnerSelectedCount = t.picked.toFinset.card := by
    rw [picks.winnerSelectedCount, count, picks.picked, List.toFinset_cons]
    cases selected : cell.winnerSelected with
    | false =>
      rw [Finset.card_insert_of_notMem (by simpa using first.mp selected), if_neg (by decide)]
      push_cast
      rfl
    | true =>
      have old : row ∈ s.picked := by
        by_contra new
        rw [first.mpr new] at selected
        cases selected
      rw [Finset.insert_eq_of_mem (List.mem_toFinset.mpr old), if_pos rfl, Int.add_zero]
  refine ⟨fun row' cell' visible' unpicked => ?_, fun _ => countAfter, ?_⟩
  · rw [picks.picked, List.mem_cons, not_or] at unpicked
    rw [picks.visibleCells, Screen.setCell_of_ne fun same => unpicked.1 same.2] at visible'
    exact counting.cells row' cell' visible' unpicked.2
  · rw [Screen.tap_prompt tapped visible accepted counts, all, Bool.and_eq_true, Bool.not_eq_true', decide_eq_true_iff,
      first, count, picks.picked, List.toFinset_cons]
    by_cases old : row ∈ s.picked
    · rw [Finset.insert_eq_of_mem (List.mem_toFinset.mpr old)]
      refine iff_of_false (fun both => both.1 old) fun enough => ?_
      exact undecided (allPicked_of_card inRound.picked enough)
    · rw [Finset.card_insert_of_notMem (by simpa using old)]
      exact and_iff_right old |>.trans (by omega)

theorem Counting.snapshot (consistent : Consistent reg s) (fair : Fair reg s k v)
    (shown : s.snapshot version = some t) : Counting t k := by
  have still := consistent.snapshot shown
  have after := fair.snapshot consistent shown
  obtain ⟨new, _, w, c, stored, -, loaded, rfl⟩ := Screen.snapshot_inv shown
  obtain ⟨m, arr⟩ := consistent.arr
  obtain ⟨-, rfl⟩ := BracketController.snapshot_inv arr loaded
  have bound := (List.getElem?_eq_some_iff.mp stored).1
  obtain ⟨zero, down⟩ := fair.behind (by omega)
  have caughtUp : version + 1 = s.stored.length := by
    have := fair.seen
    omega
  have undecided : ¬ AllPicked { s.reloadData with
      controller := s.controller.afterSnapshot w m, seen := version + 1, picked := [] } := by
    intro all
    have rows := (after.inRound rfl caughtUp).rowsNeeded (still.running rfl) after.stage
    have positive : 0 < 2 ^ (reg.rounds - 1 - k) := Nat.pow_pos (by decide)
    exact List.not_mem_nil (all 0 (rows ▸ positive))
  refine ⟨?_, fun _ => zero, iff_of_false ?_ undecided⟩
  · intro row cell visible
    cases visible
  · rw [show ({ s.reloadData with
      controller := s.controller.afterSnapshot w m
      seen := version + 1
      picked := [] } : Screen).prompt = false from down]
    exact Bool.false_ne_true

theorem Counts.step (counts : Counts reg s) {e : ScreenEvent} (playsOn : PlaysOn s e) (stepped : s.step e = some t) :
    Counts reg t := by
  obtain ⟨consistent, keeps, k, v, fair, counting⟩ := counts
  obtain ⟨once, enters, notNo⟩ := playsOn
  refine ⟨consistent.step stepped, keeps.step consistent enters stepped, ?_⟩
  cases e with
  | display table row reuse =>
    refine ⟨k, v, fair.display stepped, fun unfinished initialized caughtUp => ?_⟩
    have same := stepped
    obtain ⟨_, _, _, _, -, -, -, -, rfl⟩ := Screen.display_inv stepped
    exact (counting unfinished initialized caughtUp).display consistent fair keeps unfinished initialized caughtUp same
  | endDisplay table row =>
    obtain ⟨_, -, rfl⟩ := Screen.endDisplay_inv stepped
    refine ⟨k, v, fair.cells _ _, fun unfinished initialized caughtUp => ?_⟩
    have before := counting unfinished initialized caughtUp
    refine ⟨fun row' cell' visible unpicked => ?_, before.count, before.prompt⟩
    rcases Screen.setCell_visible visible with ⟨-, -, none⟩ | old
    · cases none
    · exact before.cells row' cell' old unpicked
  | tap side table row =>
    obtain ⟨cell, visible, -, ⟨-, rfl⟩ | ⟨accepted, picks⟩⟩ := Screen.tap_inv stepped
    · exact ⟨k, v, fair, counting⟩
    · refine ⟨k, v, fair.picks consistent visible accepted once picks, fun unfinished initialized caughtUp => ?_⟩
      rw [picks.initialized] at initialized
      rw [picks.seen, picks.stored] at caughtUp
      exact (counting unfinished initialized caughtUp).tap consistent fair unfinished initialized caughtUp once stepped
  | yes =>
    have caughtUp := fair.caughtUp_of_prompt (Screen.yes_inv stepped).1
    obtain ⟨j, after⟩ := fair.yes consistent stepped
    refine ⟨j, _, after, fun _ _ now => ?_⟩
    obtain ⟨-, code, document, written, rfl⟩ := Screen.yes_inv stepped
    -- The document of the round is on its way.
    obtain ⟨document', written', -⟩ :=
      (consistent.running (consistent.initialized_of_prompt (Screen.yes_inv stepped).1)).sourced.nextRound.stored
    obtain ⟨rfl, rfl⟩ := Prod.mk.inj (Option.some.inj (written.symm.trans written'))
    dsimp only at now
    rw [if_pos consistent.code.symm, List.length_append, List.length_singleton] at now
    omega
  | no => exact absurd rfl notNo
  | snapshot version =>
    exact ⟨k, v, fair.snapshot consistent stepped, fun _ _ _ => Counting.snapshot consistent fair stepped⟩
  | reopen =>
    refine ⟨k, v, fair.reopen stepped, fun _ initialized => ?_⟩
    obtain ⟨-, rfl⟩ := Screen.reopen_inv stepped
    cases initialized

theorem start_counts (clear : reg.Clear) : Counts reg (Screen.start reg) := by
  refine ⟨start_consistent reg, start_keepsUnmarked reg, 0, _, start_fair clear, fun _ initialized => ?_⟩
  cases initialized

theorem Fair.unique {j : Nat} {w : Tournament} (left : Fair reg s k v) (right : Fair reg s j w) : k = j := by
  obtain ⟨document, last, loaded⟩ := left.last
  obtain ⟨document', last', loaded'⟩ := right.last
  obtain rfl := Option.some.inj (last.symm.trans last')
  obtain rfl := Option.some.inj (loaded.symm.trans loaded')
  exact left.stage.sized.unique right.stage.sized

/-- As long as the final is to come, the prompt is up exactly when every row of the current round is picked. -/
theorem prompt_up_iff (clear : reg.Clear) {es : List ScreenEvent}
    (met : Transition.Meets Screen.step PlaysOn (Screen.start reg) es)
    (ran : Transition.run Screen.step (Screen.start reg) es = some s)
    (unfinished : s.stored.length ≤ reg.rounds) (initialized : s.controller.initialized = true)
    (caughtUp : s.seen = s.stored.length) : s.prompt = true ↔ ∀ row < s.rowsNeeded, row ∈ s.picked := by
  have keep : ∀ s e t, Counts reg s → PlaysOn s e → s.step e = some t → Counts reg t :=
    fun s e t counts playsOn stepped => counts.step playsOn stepped
  obtain ⟨-, -, k, v, fair, counting⟩ := Transition.run_invariant keep (start_counts clear) met ran
  have follows : ∀ s e, True → PlaysOn s e → CountsOnce s e := fun _ _ _ playsOn => playsOn.1
  have once : Transition.Meets Screen.step CountsOnce (Screen.start reg) es :=
    Transition.meets_mono (fun _ _ _ _ _ _ => trivial) follows trivial met
  obtain ⟨document, last, loaded⟩ := fair.last
  obtain ⟨-, j, less, -, same⟩ := run_last clear once ran unfinished last loaded
  obtain rfl := fair.unique same
  exact (counting less initialized caughtUp).prompt

/-- "A" is picked, and then "B" after a change of mind. -/
def threePicked : List ScreenEvent :=
  [.snapshot 0, .display ⟨0⟩ 0 none, .display ⟨0⟩ 1 none, .tap .second ⟨0⟩ 1, .tap .first ⟨0⟩ 1, .tap .first ⟨0⟩ 0]

theorem prompt_up_iff_three :
    ∃ s, Transition.run Screen.step (Screen.start three) threePicked = some s ∧ s.rowsNeeded = 2 ∧
      (s.prompt = true ↔ ∀ row < s.rowsNeeded, row ∈ s.picked) := by
  have ends : (Transition.run Screen.step (Screen.start three) threePicked).map (fun s =>
      (s.rowsNeeded, s.stored.length, s.controller.initialized, s.seen)) = some (2, 1, true, 1) := by rfl
  obtain ⟨s, ran, ends⟩ := Option.map_eq_some_iff.mp ends
  simp only [Prod.mk.injEq] at ends
  obtain ⟨rows, length, initialized, seen⟩ := ends
  have rounds : three.rounds = 2 := by decide
  exact ⟨s, ran, rows, prompt_up_iff (Or.inl (by decide)) (by decide) ran (by omega) initialized (by omega)⟩

end Tourni
