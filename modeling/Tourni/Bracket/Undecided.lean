import Tourni.Bracket.Consistent

/-!
# Undecided rounds

The list of a new round is the list of winners, whose groups are copies taken from table cells. A cell keeps
the status its group had when the cell was configured, so a group that loses and then wins again can come back
with the mark of its first win. As long as no such copy enters `winners`, every round starts undecided.
-/

namespace Tourni
open Mirror (Side)

/-- No group of the list is marked as a winner. -/
def Unmarked (L : List Group) : Prop := ∀ g ∈ L, g.status = false

/-- A tap does not append a marked copy to `winners`: the tapped group is not marked in the cell, or `winners`
still has it once its opponent is removed. -/
def EntersUnmarked (s : Screen) : ScreenEvent → Prop
  | .tap side table row => ∀ cell ∈ s.visibleCells table row, cell.accepts side s.controller = true →
    (cell.groupOf side).status = true →
    (s.controller.tournament.makeLoser (cell.groupOf side.other)).winners.any (· == cell.groupOf side) = true
  | _ => True

instance (s : Screen) : (e : ScreenEvent) → Decidable (EntersUnmarked s e)
  | .tap _ table row => inferInstanceAs (Decidable (∀ cell ∈ s.visibleCells table row, _ → _ → _))
  | .display .. | .endDisplay .. | .yes | .no | .snapshot _ | .reopen => isTrue trivial

/-- The last list of the tournament and its winners are unmarked. -/
structure StartsUndecided (t : Tournament) : Prop where
  last : ∃ L, t.roundList.getLast? = some L ∧ Unmarked L
  winners : Unmarked t.winners

/-- The cell shows no ribbon and counts as undecided. -/
def MatchUpHost.Undecided (cell : MatchUpHost) : Prop :=
  cell.winnerIcon1IsHidden = true ∧ cell.winnerIcon2IsHidden = true ∧ cell.winnerSelected = false

/-- When a snapshot opens the round of the last list, its cells come up undecided. -/
def OpensUndecided (s : Screen) : Prop :=
  ∀ version o, s.snapshot version = some o →
    o.controller.currRound = o.controller.tournament.roundList.length →
    ∀ row reuse p, o.display ⟨o.controller.currRound - 1⟩ row reuse = some p →
      ∃ cell, p.visibleCells ⟨o.controller.currRound - 1⟩ row = some cell ∧ cell.Undecided

/-- What is stored starts undecided, and the winners in memory are unmarked. -/
structure KeepsUnmarked (reg : Registration) (s : Screen) : Prop where
  stored : ∀ document ∈ s.stored, ∃ t,
    Tournament.getTournament reg.gameCode document = some t ∧ StartsUndecided t
  winners : s.controller.initialized = true → Unmarked s.controller.tournament.winners

variable {reg : Registration} {s t : Screen} {cell : MatchUpHost} {side : Side} {table : UITableView}
  {row version : Nat}

theorem setMatchup_undecided {g1 g2 : Group} (first : g1.status = false) (second : g2.status = false)
    (cell : MatchUpHost) (round : Nat) : (cell.setMatchup g1 g2 round).Undecided := by
  simp [MatchUpHost.Undecided, MatchUpHost.setMatchup, first, second]

/-! ### What enters `winners` -/

theorem updateWinner_unmarked {t : Tournament} {w l : Group} {r : Nat} (before : Unmarked t.winners)
    (enters : w.status = true → (t.makeLoser l).winners.any (· == w) = true) :
    Unmarked (t.updateWinner w l r).winners := by
  have lost : Unmarked (t.makeLoser l).winners := fun g member => before g (List.mem_filter.mp member).1
  have winners : (t.updateWinner w l r).winners =
      if (t.makeLoser l).winners.any (· == w) then (t.makeLoser l).winners
      else (t.makeLoser l).winners ++ [w] := rfl
  rw [winners]
  split
  · exact lost
  · rename_i absent
    have unmarked : w.status = false := by
      by_contra marked
      exact absent (enters (by simpa using marked))
    intro g member
    rcases List.mem_append.mp member with old | new
    · exact lost g old
    · obtain rfl := List.mem_singleton.mp new
      exact unmarked

theorem nextRound_startsUndecided {t : Tournament} (winners : Unmarked t.winners) :
    StartsUndecided t.nextRound :=
  ⟨⟨t.winners, List.getLast?_concat, winners⟩, winners⟩

/-! ### The events -/

theorem KeepsUnmarked.yes (keeps : KeepsUnmarked reg s) (consistent : Consistent reg s)
    (h : s.yes = some t) : KeepsUnmarked reg t := by
  obtain ⟨up, code, document, written, rfl⟩ := Screen.yes_inv h
  have initialized := consistent.initialized_of_prompt up
  have winners := keeps.winners initialized
  refine ⟨?_, fun _ => winners⟩
  obtain ⟨document', written', loaded⟩ := (consistent.running initialized).sourced.nextRound.stored
  obtain ⟨rfl, rfl⟩ := Prod.mk.inj (Option.some.inj (written.symm.trans written'))
  intro other member
  dsimp only at member
  rw [if_pos consistent.code.symm] at member
  rcases List.mem_append.mp member with old | new
  · exact keeps.stored other old
  · obtain rfl := List.mem_singleton.mp new
    exact ⟨_, loaded, nextRound_startsUndecided winners⟩

theorem KeepsUnmarked.snapshot (keeps : KeepsUnmarked reg s) (consistent : Consistent reg s)
    (h : s.snapshot version = some t) :
    KeepsUnmarked reg t ∧ StartsUndecided t.controller.tournament := by
  obtain ⟨-, document, v, c, stored, loaded, shown, rfl⟩ := Screen.snapshot_inv h
  obtain ⟨m, arr⟩ := consistent.arr
  obtain ⟨-, rfl⟩ := BracketController.snapshot_inv arr shown
  obtain ⟨w, same, undecided⟩ := keeps.stored document (List.mem_of_getElem? stored)
  rw [consistent.code] at loaded
  obtain rfl := Option.some.inj (same.symm.trans loaded)
  exact ⟨⟨keeps.stored, fun _ => undecided.winners⟩, undecided⟩

theorem KeepsUnmarked.step (keeps : KeepsUnmarked reg s) (consistent : Consistent reg s) {e : ScreenEvent}
    (enters : EntersUnmarked s e) (h : s.step e = some t) : KeepsUnmarked reg t := by
  cases e with
  | display table row reuse =>
    obtain ⟨_, _, _, _, -, -, -, -, rfl⟩ := Screen.display_inv h
    exact ⟨keeps.stored, keeps.winners⟩
  | endDisplay table row =>
    obtain ⟨_, -, rfl⟩ := Screen.endDisplay_inv h
    exact ⟨keeps.stored, keeps.winners⟩
  | tap side table row =>
    obtain ⟨cell, visible, -, ⟨-, rfl⟩ | ⟨accepted, picks⟩⟩ := Screen.tap_inv h
    · exact keeps
    · refine ⟨by rw [picks.stored]; exact keeps.stored, ?_⟩
      rw [picks.initialized, picks.tournament]
      intro initialized
      exact updateWinner_unmarked (keeps.winners initialized) (enters cell visible accepted)
  | yes => exact keeps.yes consistent h
  | no =>
    obtain ⟨-, _, -, rfl⟩ := Screen.no_inv h
    exact ⟨keeps.stored, keeps.winners⟩
  | snapshot version => exact (keeps.snapshot consistent h).1
  | reopen =>
    obtain ⟨-, rfl⟩ := Screen.reopen_inv h
    refine ⟨keeps.stored, ?_⟩
    intro initialized
    cases initialized

theorem start_keepsUnmarked (reg : Registration) : KeepsUnmarked reg (Screen.start reg) := by
  obtain ⟨document, stored, loaded⟩ := start_stored reg
  have unmarked : Unmarked reg.padded := fun g member => Registration.padded_unmarked member
  refine ⟨?_, ?_⟩
  · intro other member
    rw [stored] at member
    obtain rfl := List.mem_singleton.mp member
    refine ⟨_, loaded, ?_, ?_⟩ <;> rw [reg.created_eq]
    · exact ⟨reg.padded, rfl, unmarked⟩
    · exact unmarked
  · intro initialized
    cases initialized

/-! ### Opening a round -/

theorem KeepsUnmarked.opens (keeps : KeepsUnmarked reg s) (consistent : Consistent reg s) :
    OpensUndecided s := by
  intro version o opened current row reuse p displayed
  obtain ⟨-, ⟨L, last, unmarked⟩, -⟩ := keeps.snapshot consistent opened
  have after := consistent.snapshot opened
  obtain ⟨m, arr⟩ := after.arr
  obtain ⟨_, dequeued, _, cell, -, -, -, configured, rfl⟩ := Screen.display_inv displayed
  obtain ⟨shown, g1, g2, filled, first, second, -, rfl⟩ := BracketController.cellForRowAt_inv arr configured
  refine ⟨dequeued.setMatchup g1 g2 (o.controller.currRound - 1 + 1), Screen.setCell_self .., ?_⟩
  have initialized : o.controller.initialized = true := by
    by_contra notYet
    rw [(after.blank (by simpa using notYet)).shown] at filled
    cases filled
  have positive : 0 < o.controller.currRound := by
    rw [current]
    exact List.length_pos_iff.mpr fun empty => by rw [empty] at last; cases last
  have listed := (after.running initialized).current (o.controller.currRound - 1) (by omega)
  rw [filled, current, ← List.getLast?_eq_getElem?, last] at listed
  obtain rfl := Option.some.inj listed
  exact setMatchup_undecided (unmarked g1 (List.mem_of_getElem? first))
    (unmarked g2 (List.mem_of_getElem? second)) _ _

/-- In a run in which no tap brings a marked copy into `winners`, every stored document starts its next round
undecided, and so does the screen that opens it. -/
theorem rounds_start_undecided {es : List ScreenEvent}
    (met : Transition.Meets Screen.step EntersUnmarked (Screen.start reg) es)
    (ran : Transition.run Screen.step (Screen.start reg) es = some s) :
    (∀ document ∈ s.stored, ∃ t,
      Tournament.getTournament reg.gameCode document = some t ∧ StartsUndecided t) ∧ OpensUndecided s := by
  have keep : ∀ s e t, (Consistent reg s ∧ KeepsUnmarked reg s) → EntersUnmarked s e → s.step e = some t →
      Consistent reg t ∧ KeepsUnmarked reg t := fun s e t both enters h =>
    ⟨both.1.step h, both.2.step both.1 enters h⟩
  obtain ⟨consistent, keeps⟩ :=
    Transition.run_invariant keep ⟨start_consistent reg, start_keepsUnmarked reg⟩ met ran
  exact ⟨keeps.stored, keeps.opens consistent⟩

/-! ### Four groups -/

/-- "A" wins its row, and the cell is configured again with the marked "A"; then "D" is picked and "A" once
more. -/
def firstWinRemembered : List ScreenEvent :=
  [.snapshot 0, .display ⟨0⟩ 0 none, .tap .first ⟨0⟩ 0, .endDisplay ⟨0⟩ 0, .display ⟨0⟩ 0 (some 0),
    .tap .second ⟨0⟩ 0, .tap .first ⟨0⟩ 0, .display ⟨0⟩ 1 none, .tap .first ⟨0⟩ 1, .yes]

/-- The second round is stored with "A" marked in it, and opens with a ribbon on an undecided row. -/
theorem marked_winner_stored :
    ∃ s o p cell document t, Transition.run Screen.step (Screen.start four) firstWinRemembered = some s ∧
      document ∈ s.stored ∧ Tournament.getTournament four.gameCode document = some t ∧
      t.roundList.getLast? = some t.winners ∧ ¬ Unmarked t.winners ∧
      s.step (.snapshot 1) = some o ∧ o.step (.display ⟨1⟩ 0 none) = some p ∧
      p.visibleCells ⟨1⟩ 0 = some cell ∧ cell.round = o.controller.currRound ∧
      cell.winnerIcon2IsHidden = false := by
  have sees : ((Transition.run Screen.step (Screen.start four) firstWinRemembered).bind fun s =>
      s.stored[1]?.bind fun document => (Tournament.getTournament four.gameCode document).bind fun t =>
        (s.step (.snapshot 1)).bind fun o => (o.step (.display ⟨1⟩ 0 none)).bind fun p =>
          (p.visibleCells ⟨1⟩ 0).map fun cell =>
            (t.roundList.getLast?, t.winners, cell.round - o.controller.currRound,
              o.controller.currRound - cell.round, cell.winnerIcon2IsHidden)) =
      some (some [{ name := some "B", seed := some 2 }, { name := some "A", seed := some 1, status := true }],
        [{ name := some "B", seed := some 2 }, { name := some "A", seed := some 1, status := true }], 0, 0,
        false) := by rfl
  obtain ⟨s, ran, sees⟩ := Option.bind_eq_some_iff.mp sees
  obtain ⟨document, stored, sees⟩ := Option.bind_eq_some_iff.mp sees
  obtain ⟨t, loaded, sees⟩ := Option.bind_eq_some_iff.mp sees
  obtain ⟨o, opened, sees⟩ := Option.bind_eq_some_iff.mp sees
  obtain ⟨p, displayed, sees⟩ := Option.bind_eq_some_iff.mp sees
  obtain ⟨cell, visible, sees⟩ := Option.map_eq_some_iff.mp sees
  simp only [Prod.mk.injEq] at sees
  obtain ⟨last, winners, le, ge, ribbon⟩ := sees
  refine ⟨s, o, p, cell, document, t, ran, List.mem_of_getElem? stored, loaded, ?_, ?_, opened, displayed,
    visible, by omega, ribbon⟩
  · rw [last, winners]
  · intro unmarked
    rw [winners] at unmarked
    have marked := unmarked { name := some "A", seed := some 1, status := true } (by simp)
    cases marked

/-- A change of mind in a cell that is not configured again in between. -/
theorem rounds_start_undecided_four :
    let es : List ScreenEvent := [.snapshot 0, .display ⟨0⟩ 0 none, .tap .first ⟨0⟩ 0, .tap .second ⟨0⟩ 0,
      .tap .first ⟨0⟩ 0, .display ⟨0⟩ 1 none, .tap .first ⟨0⟩ 1, .yes]
    ∃ s, Transition.run Screen.step (Screen.start four) es = some s ∧ s.stored.length = 2 ∧
      (∀ document ∈ s.stored, ∃ t,
        Tournament.getTournament four.gameCode document = some t ∧ StartsUndecided t) ∧ OpensUndecided s := by
  intro es
  have met : Transition.Meets Screen.step EntersUnmarked (Screen.start four) es := by decide
  have length : (Transition.run Screen.step (Screen.start four) es).map (·.stored.length) = some 2 := by rfl
  obtain ⟨s, ran, two⟩ := Option.map_eq_some_iff.mp length
  exact ⟨s, ran, two, rounds_start_undecided met ran⟩

end Tourni
