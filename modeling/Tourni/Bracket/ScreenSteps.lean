import Tourni.Bracket.Loading
import Tourni.Model.Screen

/-!
# What each event does to the screen
-/

namespace Tourni
open Mirror (Side)

namespace BracketController

def updated (c : BracketController) (w l : Group) (round : Nat) (table : UITableView)
    (shown : List Group) : BracketController :=
  { c with
    tournament := c.tournament.updateWinner w l round
    bracketViewGroupDict :=
      Function.update c.bracketViewGroupDict table (some (shown.map (Group.mark w l))) }

theorem updateWinner_inv {c d : BracketController} {w l : Group} {round : Nat}
    (h : c.updateWinner w l round = some d) :
    ∃ gs table shown, ofRound? c.tournament.roundList round = some gs ∧
      ofRound? c.bracketViewArr round = some table ∧ c.bracketViewGroupDict table = some shown ∧
      d = c.updated w l round table shown := by
  obtain ⟨gs, current, h⟩ := Option.bind_eq_some_iff.mp h
  obtain ⟨table, onScreen, h⟩ := Option.bind_eq_some_iff.mp h
  obtain ⟨shown, filled, h⟩ := Option.bind_eq_some_iff.mp h
  exact ⟨gs, table, shown, current, onScreen, filled, (Option.some.inj h).symm⟩

theorem cellForRowAt_inv {c : BracketController} {table : UITableView} {row m : Nat}
    {dequeued cell : MatchUpHost} (arr : c.bracketViewArr = tables m)
    (h : c.cellForRowAt table row dequeued = some cell) :
    ∃ shown g1 g2, c.bracketViewGroupDict table = some shown ∧ shown[row]? = some g1 ∧
      shown[(shown.length - 1) - row]? = some g2 ∧ table.id < m ∧
      cell = dequeued.setMatchup g1 g2 (table.id + 1) := by
  obtain ⟨shown, filled, h⟩ := Option.bind_eq_some_iff.mp h
  obtain ⟨g1, first, h⟩ := Option.bind_eq_some_iff.mp h
  obtain ⟨g2, second, h⟩ := Option.bind_eq_some_iff.mp h
  obtain ⟨index, found, configured⟩ := Option.bind_eq_some_iff.mp h
  rw [arr] at found
  obtain ⟨bound, same, -⟩ := List.findIdx?_eq_some_iff_getElem.mp found
  rw [tables_length] at bound
  have here : (tables m)[index] = ⟨index⟩ := by simp [tables]
  rw [here, beq_iff_eq] at same
  subst same
  exact ⟨shown, g1, g2, filled, first, second, bound, (Option.some.inj configured).symm⟩

end BracketController

/-- A button past its guard does not trap on a round that has its list, its table and its number of rows. -/
theorem MatchUpHost.selectWinner_eq {cell : MatchUpHost} {c : BracketController} {gs shown : List Group}
    {table : UITableView} {needed : Nat} (counts : ofRound? c.roundMatches c.currRound = some needed)
    (current : ofRound? c.tournament.roundList cell.round = some gs)
    (onScreen : ofRound? c.bracketViewArr cell.round = some table)
    (filled : c.bracketViewGroupDict table = some shown) (side : Side) :
    ∃ tapped d up, cell.selectWinner side c = some (tapped, d, up) ∧
      d.tournament = c.tournament.updateWinner (cell.groupOf side) (cell.groupOf side.other) cell.round := by
  have counted : ∃ count up, cell.countWinner c = some ({ c with winnerSelectedCount := count }, up) := by
    unfold MatchUpHost.countWinner
    split
    · exact ⟨_, _, rfl⟩
    · rw [BracketController.incrementWinnerSelectedCount, counts]
      exact ⟨_, _, rfl⟩
  obtain ⟨count, up, counted⟩ := counted
  let d : BracketController := { c with winnerSelectedCount := count }
  have chosen : ∀ w l, d.updateWinner w l cell.round = some (d.updated w l cell.round table shown) := by
    intro w l
    simp [BracketController.updateWinner, BracketController.updated, d, current, onScreen, filled]
  have counts : MatchUpHost.countWinner { cell with
      winnerIcon1IsHidden := side != Side.first
      winnerIcon2IsHidden := side != Side.second } c = some (d, up) := counted
  unfold MatchUpHost.selectWinner
  simp only [Option.bind_eq_bind, counts, Option.bind_some, chosen]
  refine ⟨_, _, _, rfl, ?_⟩
  cases side <;> rfl

namespace Screen

variable {s t : Screen} {table : UITableView} {row version : Nat} {side : Side}

/-! ### The cells -/

theorem display_inv {reuse : Option Nat} (h : s.display table row reuse = some t) :
    ∃ rows dequeued rest cell, s.controller.numberOfRows table = some rows ∧ row < rows ∧
      s.dequeue table reuse = some (dequeued, rest) ∧
      s.controller.cellForRowAt table row dequeued = some cell ∧
      t = { s.setCell table row (some cell) with
            reusable := Function.update s.reusable table rest } := by
  obtain ⟨rows, counted, h⟩ := Option.bind_eq_some_iff.mp h
  split at h
  · rename_i guard
    obtain ⟨⟨dequeued, rest⟩, fromQueue, h⟩ := Option.bind_eq_some_iff.mp h
    obtain ⟨cell, configured, h⟩ := Option.bind_eq_some_iff.mp h
    exact ⟨rows, dequeued, rest, cell, counted, guard.1, fromQueue, configured, (Option.some.inj h).symm⟩
  · cases h

theorem endDisplay_inv (h : s.endDisplay table row = some t) :
    ∃ cell, s.visibleCells table row = some cell ∧
      t = { s.setCell table row none with
            reusable := Function.update s.reusable table (s.reusable table ++ [cell]) } := by
  obtain ⟨cell, visible, h⟩ := Option.bind_eq_some_iff.mp h
  exact ⟨cell, visible, (Option.some.inj h).symm⟩

theorem setCell_self (s : Screen) (table : UITableView) (row : Nat) (set : Option MatchUpHost) :
    (s.setCell table row set).visibleCells table row = set := by
  simp [setCell]

theorem setCell_of_ne {set : Option MatchUpHost} {table' : UITableView} {row' : Nat}
    (other : ¬ (table' = table ∧ row' = row)) :
    (s.setCell table row set).visibleCells table' row' = s.visibleCells table' row' := by
  unfold setCell
  dsimp only
  by_cases sameTable : table' = table
  · subst sameTable
    rw [Function.update_self, Function.update_of_ne fun sameRow => other ⟨rfl, sameRow⟩]
  · rw [Function.update_of_ne sameTable]

theorem setCell_visible {set : Option MatchUpHost} {table' : UITableView} {row' : Nat} {cell : MatchUpHost}
    (h : (s.setCell table row set).visibleCells table' row' = some cell) :
    (table' = table ∧ row' = row ∧ set = some cell) ∨ s.visibleCells table' row' = some cell := by
  by_cases here : table' = table ∧ row' = row
  · obtain ⟨rfl, rfl⟩ := here
    rw [setCell_self] at h
    exact Or.inl ⟨rfl, rfl, h⟩
  · rw [setCell_of_ne here] at h
    exact Or.inr h

/-! ### Taps -/

def counted (s : Screen) (cell : MatchUpHost) : BracketController :=
  { s.controller with
    winnerSelectedCount := s.controller.winnerSelectedCount + if cell.winnerSelected then 0 else 1 }

def chosenCell (cell : MatchUpHost) (side : Side) : MatchUpHost :=
  { cell with
    winnerIcon1IsHidden := side != Side.first
    winnerIcon2IsHidden := side != Side.second
    winnerSelected := true }

theorem countWinner_inv {cell : MatchUpHost} {c : BracketController} {prompted : Bool}
    (h : cell.countWinner s.controller = some (c, prompted)) :
    c = s.counted cell ∧ (prompted = true → cell.winnerSelected = false ∧
      ∃ needed : Nat, ofRound? s.controller.roundMatches s.controller.currRound = some needed ∧
        s.controller.winnerSelectedCount + 1 ≥ needed) := by
  unfold MatchUpHost.countWinner at h
  cases selected : cell.winnerSelected with
  | true =>
    rw [selected, if_pos rfl] at h
    obtain ⟨rfl, rfl⟩ := Prod.mk.inj (Option.some.inj h)
    refine ⟨?_, fun up => by cases up⟩
    simp [counted, selected]
  | false =>
    rw [selected, if_neg (by decide)] at h
    obtain ⟨needed, current, h⟩ := Option.bind_eq_some_iff.mp h
    obtain ⟨rfl, rfl⟩ := Prod.mk.inj (Option.some.inj h)
    refine ⟨?_, fun up => ⟨rfl, needed, current, of_decide_eq_true up⟩⟩
    simp [counted, selected]

/-- What a tap does whose button let it through. -/
structure Picks (s : Screen) (side : Side) (table : UITableView) (row : Nat) (cell : MatchUpHost)
    (t : Screen) : Prop where
  host : s.controller.host = true
  round : cell.round = s.controller.currRound
  notFree : side = .second → cell.group2.name ≠ some "FREE"
  visibleCells : t.visibleCells = (s.setCell table row (some (chosenCell cell side))).visibleCells
  reusable : t.reusable = s.reusable
  stored : t.stored = s.stored
  seen : t.seen = s.seen
  picked : t.picked = row :: s.picked
  controller : (s.counted cell).updateWinner (cell.groupOf side) (cell.groupOf side.other)
    s.controller.currRound = some t.controller
  prompt : t.prompt = true → cell.winnerSelected = false ∧
    ∃ needed : Nat, ofRound? s.controller.roundMatches s.controller.currRound = some needed ∧
      s.controller.winnerSelectedCount + 1 ≥ needed

section
variable {cell : MatchUpHost}

theorem Picks.tournament (picks : s.Picks side table row cell t) :
    t.controller.tournament = s.controller.tournament.updateWinner (cell.groupOf side)
      (cell.groupOf side.other) s.controller.currRound := by
  obtain ⟨_, _, _, _, _, _, after⟩ := BracketController.updateWinner_inv picks.controller
  rw [after]
  rfl

theorem Picks.winnerSelectedCount (picks : s.Picks side table row cell t) :
    t.controller.winnerSelectedCount =
      s.controller.winnerSelectedCount + if cell.winnerSelected then 0 else 1 := by
  obtain ⟨_, _, _, _, _, _, after⟩ := BracketController.updateWinner_inv picks.controller
  rw [after]
  rfl

theorem Picks.currRound (picks : s.Picks side table row cell t) :
    t.controller.currRound = s.controller.currRound := by
  obtain ⟨_, _, _, _, _, _, after⟩ := BracketController.updateWinner_inv picks.controller
  rw [after]
  rfl

theorem Picks.roundMatches (picks : s.Picks side table row cell t) :
    t.controller.roundMatches = s.controller.roundMatches := by
  obtain ⟨_, _, _, _, _, _, after⟩ := BracketController.updateWinner_inv picks.controller
  rw [after]
  rfl

theorem Picks.initialized (picks : s.Picks side table row cell t) :
    t.controller.initialized = s.controller.initialized := by
  obtain ⟨_, _, _, _, _, _, after⟩ := BracketController.updateWinner_inv picks.controller
  rw [after]
  rfl

end

theorem setCell_same {cell : MatchUpHost} (h : s.visibleCells table row = some cell) :
    s.setCell table row (some cell) = s := by
  unfold setCell
  rw [← h, Function.update_eq_self, Function.update_eq_self]

theorem tap_inv (h : s.tap side table row = some t) :
    ∃ cell, s.visibleCells table row = some cell ∧ s.prompt = false ∧
      ((cell.accepts side s.controller = false ∧ t = s) ∨
        (cell.accepts side s.controller = true ∧ s.Picks side table row cell t)) := by
  obtain ⟨cell, visible, h⟩ := Option.bind_eq_some_iff.mp h
  refine ⟨cell, visible, ?_⟩
  split at h
  · cases h
  · rename_i down
    have down : s.prompt = false := by simpa using down
    refine ⟨down, ?_⟩
    obtain ⟨⟨tapped, controller, prompted⟩, acted, h⟩ := Option.bind_eq_some_iff.mp h
    have after := (Option.some.inj h).symm
    dsimp only at after
    rw [MatchUpHost.buttonAction_eq] at acted
    by_cases accepted : cell.accepts side s.controller = true
    · rw [if_pos accepted, MatchUpHost.selectWinner] at acted
      obtain ⟨⟨counter, up⟩, counts, acted⟩ := Option.bind_eq_some_iff.mp acted
      obtain ⟨updated, chosen, acted⟩ := Option.bind_eq_some_iff.mp acted
      obtain ⟨rfl, rfl, rfl⟩ : tapped = chosenCell cell side ∧ controller = updated ∧ prompted = up := by
        have := (Option.some.inj acted).symm
        simpa [chosenCell] using this
      have guard := accepted
      unfold MatchUpHost.accepts at guard
      simp only [Bool.and_eq_true, Bool.not_eq_true', beq_iff_eq] at guard
      obtain ⟨⟨host, round⟩, notFree⟩ := guard
      have round : cell.round = s.controller.currRound := round
      obtain ⟨rfl, prompts⟩ := countWinner_inv counts
      have groups : ∀ side', ({ cell with
          winnerIcon1IsHidden := side != Side.first
          winnerIcon2IsHidden := side != Side.second } : MatchUpHost).groupOf side' =
            cell.groupOf side' := by
        intro side'
        cases side' <;> rfl
      rw [groups, groups] at chosen
      refine Or.inr ⟨accepted, host, round, ?_, ?_, ?_, ?_, ?_, ?_, ?_, ?_⟩
      · rintro rfl free
        rw [free] at notFree
        cases notFree
      all_goals rw [after]
      · rfl
      · rfl
      · rfl
      · exact if_pos accepted
      · rw [← round]
        exact chosen
      · exact prompts
    · rw [if_neg accepted] at acted
      obtain ⟨rfl, rfl, rfl⟩ : tapped = cell ∧ controller = s.controller ∧ prompted = false := by
        have := (Option.some.inj acted).symm
        simpa using this
      refine Or.inl ⟨by simpa using accepted, ?_⟩
      rw [after, setCell_same visible, if_neg accepted, ← down]

/-- The prompt comes up when the tap is counted and the count is large enough. -/
theorem tap_prompt {cell : MatchUpHost} {needed : Nat} (h : s.tap side table row = some t)
    (visible : s.visibleCells table row = some cell) (accepted : cell.accepts side s.controller = true)
    (counts : ofRound? s.controller.roundMatches s.controller.currRound = some needed) :
    t.prompt = (!cell.winnerSelected && decide (s.controller.winnerSelectedCount + 1 ≥ needed)) := by
  unfold tap at h
  rw [visible, Option.bind_eq_bind, Option.bind_some] at h
  split at h
  · cases h
  · obtain ⟨⟨tapped, controller, prompted⟩, acted, h⟩ := Option.bind_eq_some_iff.mp h
    obtain rfl := Option.some.inj h
    rw [MatchUpHost.buttonAction_eq, if_pos accepted, MatchUpHost.selectWinner] at acted
    obtain ⟨⟨counter, up⟩, counting, acted⟩ := Option.bind_eq_some_iff.mp acted
    obtain ⟨updated, -, acted⟩ := Option.bind_eq_some_iff.mp acted
    have same : prompted = up := (congrArg (fun result => result.2.2) (Option.some.inj acted)).symm
    rw [MatchUpHost.countWinner] at counting
    dsimp only at counting ⊢
    cases selected : cell.winnerSelected with
    | true =>
      rw [selected, if_pos rfl] at counting
      obtain ⟨-, rfl⟩ := Prod.mk.inj (Option.some.inj counting)
      exact same
    | false =>
      rw [selected, if_neg (by decide), BracketController.incrementWinnerSelectedCount, counts] at counting
      obtain ⟨-, rfl⟩ := Prod.mk.inj (Option.some.inj counting)
      exact same

/-! ### The prompt, snapshots and reopening -/

theorem yes_inv (h : s.yes = some t) :
    s.prompt = true ∧ ∃ code document, s.controller.tournament.nextRound.store = some (code, document) ∧
      t = { s with
        controller := { s.controller with
          winnerSelectedCount := 0, tournament := s.controller.tournament.nextRound }
        prompt := false
        stored := if code = s.controller.gameCode then s.stored ++ [document] else s.stored } := by
  unfold yes at h
  split at h
  · rename_i up
    obtain ⟨⟨controller, code, document⟩, written, h⟩ := Option.bind_eq_some_iff.mp h
    obtain ⟨⟨code', document'⟩, stored, written⟩ := Option.bind_eq_some_iff.mp written
    obtain ⟨rfl, rfl, rfl⟩ : controller = _ ∧ code = code' ∧ document = document' := by
      have := (Option.some.inj written).symm
      simpa using this
    exact ⟨up, code, document, stored, (Option.some.inj h).symm⟩
  · cases h

theorem no_inv (h : s.no = some t) :
    s.prompt = true ∧ ∃ table, ofRound? s.controller.bracketViewArr s.controller.currRound = some table ∧
      t = { s with
        controller := { s.controller with
          winnerSelectedCount := s.controller.winnerSelectedCount - 1 }
        prompt := false
        visibleCells := Function.update s.visibleCells table fun row =>
          (s.visibleCells table row).map ({ · with winnerSelected := false }) } := by
  unfold no at h
  split at h
  · rename_i up
    obtain ⟨table, current, h⟩ := Option.bind_eq_some_iff.mp h
    exact ⟨up, table, current, (Option.some.inj h).symm⟩
  · cases h

theorem snapshot_inv (h : s.snapshot version = some t) :
    s.seen ≤ version ∧ ∃ document v c, s.stored[version]? = some document ∧
      Tournament.getTournament s.controller.gameCode document = some v ∧ s.controller.snapshot v = some c ∧
      t = { s.reloadData with controller := c, seen := version + 1, picked := [] } := by
  unfold snapshot at h
  split at h
  · rename_i new
    obtain ⟨document, stored, h⟩ := Option.bind_eq_some_iff.mp h
    obtain ⟨v, loaded, h⟩ := Option.bind_eq_some_iff.mp h
    obtain ⟨c, shown, h⟩ := Option.bind_eq_some_iff.mp h
    exact ⟨new, document, v, c, stored, loaded, shown, (Option.some.inj h).symm⟩
  · cases h

theorem reopen_inv (h : s.reopen = some t) :
    s.prompt = false ∧ t = opened s.controller.gameCode s.controller.host s.stored := by
  unfold reopen at h
  split at h
  · cases h
  · rename_i down
    exact ⟨by simpa using down, (Option.some.inj h).symm⟩

end Screen
end Tourni
