import Tourni.Bracket.ScreenSteps
import Tourni.Bracket.Sources
import Tourni.Bracket.Versions

/-!
# Every reachable screen

What holds of the screen after any events at all: the tables of the rounds up to the current one show the
round lists, the cells show their rows, and every document can be loaded.
-/

namespace Tourni
open Mirror (Side)

/-- The cell shows its row, up to statuses. -/
def Shows (c : BracketController) (table : UITableView) (row : Nat) (cell : MatchUpHost) : Prop :=
  cell.round = table.id + 1 ∧ table.id < c.bracketViewArr.length ∧
  (∃ rows, c.numberOfRows table = some rows ∧ row < rows) ∧
  ∃ shown g1 g2, c.bracketViewGroupDict table = some shown ∧ shown[row]? = some g1 ∧
    shown[(shown.length - 1) - row]? = some g2 ∧ cell.group1.entry = g1.entry ∧ cell.group2.entry = g2.entry

/-- A controller that has had a snapshot. -/
structure Running (reg : Registration) (c : BracketController) : Prop where
  sourced : Sourced reg c.tournament
  roundMatches : c.roundMatches = generateMatches reg.rounds
  roundsBound : c.currRound ≤ reg.rounds
  tablesBound : c.currRound ≤ c.bracketViewArr.length
  listsBound : c.currRound ≤ c.tournament.roundList.length
  current : ∀ i < c.currRound, c.bracketViewGroupDict ⟨i⟩ = c.tournament.roundList[i]?

structure Blank (s : Screen) : Prop where
  arr : s.controller.bracketViewArr = []
  rows : ∀ table, s.controller.numberOfRows table = none
  shown : ∀ table, s.controller.bracketViewGroupDict table = none
  currRound : s.controller.currRound = 0
  prompt : s.prompt = false
  visibleCells : ∀ table row, s.visibleCells table row = none
  picked : s.picked = []

structure Consistent (reg : Registration) (s : Screen) : Prop where
  code : s.controller.gameCode = reg.gameCode
  host : s.controller.host = true
  arr : ∃ m, s.controller.bracketViewArr = tables m
  documents : ∀ document ∈ s.stored, ∃ t,
    Tournament.getTournament reg.gameCode document = some t ∧ Sourced reg t
  shownSourced : ∀ table shown, s.controller.bracketViewGroupDict table = some shown →
    ∀ g ∈ shown, reg.Contains g
  cells : ∀ table row cell, s.visibleCells table row = some cell → Shows s.controller table row cell
  blank : s.controller.initialized = false → Blank s
  running : s.controller.initialized = true → Running reg s.controller

variable {reg : Registration} {s t : Screen} {c d : BracketController} {v : Tournament}
  {table : UITableView} {row version m : Nat} {side : Side} {cell : MatchUpHost}

/-! ### Opening -/

theorem opened_consistent {stored : List Document}
    (documents : ∀ document ∈ stored, ∃ t,
      Tournament.getTournament reg.gameCode document = some t ∧ Sourced reg t) :
    Consistent reg (Screen.opened reg.gameCode true stored) := by
  refine ⟨rfl, rfl, ⟨0, rfl⟩, documents, ?_, ?_, ?_, ?_⟩
  · intro table shown filled
    cases filled
  · intro table row cell visible
    cases visible
  · intro _
    exact ⟨rfl, fun _ => rfl, fun _ => rfl, rfl, rfl, fun _ _ => rfl, rfl⟩
  · intro initialized
    cases initialized

theorem start_stored (reg : Registration) : ∃ document, (Screen.start reg).stored = [document] ∧
    Tournament.getTournament reg.gameCode document = some reg.created := by
  obtain ⟨document, written, loaded⟩ := (created_sourced reg).stored
  refine ⟨document, ?_, loaded⟩
  show reg.created.store.toList.map Prod.snd = _
  rw [written]
  rfl

theorem start_consistent (reg : Registration) : Consistent reg (Screen.start reg) := by
  obtain ⟨document, stored, loaded⟩ := start_stored reg
  apply opened_consistent
  intro other member
  obtain rfl := List.mem_singleton.mp (stored ▸ member : other ∈ [document])
  exact ⟨_, loaded, created_sourced reg⟩

/-! ### Snapshots -/

theorem fill_inv {α : Type*} {dict : UITableView → Option α} {n start : Nat} {xs : List α} {x : α}
    (h : BracketController.fill dict m n xs start table = some x) : x ∈ xs ∨ dict table = some x := by
  unfold BracketController.fill at h
  split at h
  · exact Or.inl (List.mem_of_getElem? h)
  · exact Or.inr h

theorem afterSnapshot_shown {shown : List Group}
    (h : (c.afterSnapshot v m).bracketViewGroupDict table = some shown) :
    shown ∈ v.roundList ∨ c.bracketViewGroupDict table = some shown := by
  have built : ∀ {shown}, ((c.receive v).afterBuild m).bracketViewGroupDict table = some shown →
      shown ∈ v.roundList ∨ c.bracketViewGroupDict table = some shown := fun filled => fill_inv filled
  unfold BracketController.afterSnapshot at h
  dsimp only at h
  split at h
  · rcases fill_inv h with new | old
    · exact Or.inl new
    · exact built old
  · exact built h

theorem Sourced.generateRounds_eq (sourced : Sourced reg v) : generateRounds v.getNumGroups = reg.rounds := by
  unfold Tournament.getNumGroups
  rw [sourced.groups, reg.padded_length, generateRounds_pow]

theorem nextCurrRound_le (sourced : Sourced reg v) (bound : c.currRound ≤ reg.rounds) :
    (c.receive v).nextCurrRound ≤ reg.rounds := by
  have size := sourced.generateRounds_eq
  unfold BracketController.nextCurrRound
  split
  · rename_i i found
    obtain ⟨below, -⟩ := List.findIdx?_eq_some_iff_getElem.mp found
    have length : (c.receive v).roundMatches.length = reg.rounds := by
      show (generateMatches (generateRounds v.getNumGroups)).length = _
      rw [generateMatches_length, size]
    omega
  · split
    · exact Nat.le_of_eq size
    · exact bound

theorem snapshot_running (sourced : Sourced reg v) (arr : c.bracketViewArr = tables m)
    (fresh : c.initialized = false → m = 0 ∧ c.currRound = 0)
    (bound : c.currRound ≤ reg.rounds) (loadable : c.Loadable v m) :
    Running reg (c.afterSnapshot v m) := by
  have size := sourced.generateRounds_eq
  have currRound : (c.afterSnapshot v m).currRound = (c.receive v).nextCurrRound := rfl
  have arrAfter : (c.afterSnapshot v m).bracketViewArr.length = m + (c.receive v).built :=
    tables_length _
  have matchesAfter : (c.afterSnapshot v m).roundMatches = generateMatches reg.rounds := by
    rw [← size]
    rfl
  have roundBound := nextCurrRound_le sourced bound
  obtain ⟨buildable, showable⟩ := loadable
  by_cases initialized : c.initialized = true
  · obtain ⟨enoughTables, enoughLists⟩ := showable initialized
    refine ⟨sourced, matchesAfter, roundBound, by omega, enoughLists, ?_⟩
    intro i below
    have current : ((c.receive v).afterBuild m).currRound = (c.receive v).nextCurrRound := rfl
    simp only [BracketController.afterSnapshot, initialized, if_true, current]
    rw [BracketController.fill_of_lt (Nat.zero_le i) (by omega), Nat.sub_zero, Nat.zero_add]
    rfl
  · have notYet : c.initialized = false := by simpa using initialized
    obtain ⟨rfl, zero⟩ := fresh notYet
    have start : (c.receive v).startBracketAt = 0 := by
      have kept : (c.receive v).initialized = false := notYet
      unfold BracketController.startBracketAt
      rw [kept]
      rfl
    have built : (c.receive v).built = (c.receive v).nextCurrRound := by
      have kept : (c.receive v).initialized = false := notYet
      unfold BracketController.built
      rw [start, kept]
      cases single : (c.receive v).currentGroups.length == 1 with
      | true => rfl
      | false =>
        cases found : (c.receive v).lookupRound with
        | some i => rfl
        | none =>
          have stays : (c.receive v).nextCurrRound = 0 := by
            unfold BracketController.nextCurrRound
            rw [found, single]
            exact zero
          rw [stays]
          rfl
    have lists : (c.receive v).nextCurrRound ≤ v.roundList.length := by
      by_contra short
      have trap := (buildable v.roundList.length (by omega)).2
      rw [start, Nat.zero_add] at trap
      exact Nat.lt_irrefl _ trap
    refine ⟨sourced, matchesAfter, roundBound, by omega, lists, ?_⟩
    intro i below
    have unfolded : (c.afterSnapshot v 0).bracketViewGroupDict =
        BracketController.fill c.bracketViewGroupDict 0 (c.receive v).built v.roundList
          (c.receive v).startBracketAt := by
      simp only [BracketController.afterSnapshot, if_neg initialized]
      rfl
    rw [unfolded, BracketController.fill_of_lt (Nat.zero_le i) (by omega), start, Nat.sub_zero,
      Nat.zero_add]
    rfl

theorem Consistent.snapshot (consistent : Consistent reg s) (h : s.snapshot version = some t) :
    Consistent reg t := by
  obtain ⟨-, document, v, c, stored, loaded, shown, rfl⟩ := Screen.snapshot_inv h
  obtain ⟨m, arr⟩ := consistent.arr
  obtain ⟨loadable, rfl⟩ := BracketController.snapshot_inv arr shown
  have sourced : Sourced reg v := by
    obtain ⟨w, same, sourced⟩ := consistent.documents document (List.mem_of_getElem? stored)
    rw [consistent.code] at loaded
    obtain rfl := Option.some.inj (same.symm.trans loaded)
    exact sourced
  have fresh : s.controller.initialized = false → m = 0 ∧ s.controller.currRound = 0 := by
    intro notYet
    have blank := consistent.blank notYet
    have length := congrArg List.length arr
    rw [blank.arr, tables_length] at length
    exact ⟨length.symm, blank.currRound⟩
  have bound : s.controller.currRound ≤ reg.rounds := by
    by_cases initialized : s.controller.initialized = true
    · exact (consistent.running initialized).roundsBound
    · rw [(fresh (by simpa using initialized)).2]
      exact Nat.zero_le _
  refine ⟨consistent.code, consistent.host, ⟨_, rfl⟩, consistent.documents, ?_, ?_, ?_, ?_⟩
  · intro table shown filled g member
    rcases afterSnapshot_shown filled with listed | old
    · exact sourced.roundList shown listed g member
    · exact consistent.shownSourced table shown old g member
  · intro table row cell visible
    cases visible
  · intro initialized
    cases initialized
  · intro _
    exact snapshot_running sourced arr fresh bound loadable

/-! ### Picks -/

theorem Shows.updated {w l : Group} {r : Nat} {tbl : UITableView} {shown : List Group}
    (shows : Shows c table row cell) (filled : c.bracketViewGroupDict tbl = some shown) :
    Shows (c.updated w l r tbl shown) table row cell := by
  obtain ⟨round, bound, rows, list, g1, g2, here, first, second, entry1, entry2⟩ := shows
  refine ⟨round, bound, rows, ?_⟩
  by_cases same : table = tbl
  · subst same
    obtain rfl := Option.some.inj (here.symm.trans filled)
    refine ⟨list.map (Group.mark w l), Group.mark w l g1, Group.mark w l g2, ?_, ?_, ?_, ?_, ?_⟩
    · exact Function.update_self ..
    · rw [List.getElem?_map, first, Option.map_some]
    · rw [List.getElem?_map, List.length_map, second, Option.map_some]
    · rw [entry1, Group.mark_entry]
    · rw [entry2, Group.mark_entry]
  · refine ⟨list, g1, g2, ?_, first, second, entry1, entry2⟩
    show Function.update c.bracketViewGroupDict tbl _ table = _
    rw [Function.update_of_ne same, here]

theorem Running.updated {w l : Group} {tbl : UITableView} {shown : List Group} (running : Running reg c)
    (arr : c.bracketViewArr = tables m) (onScreen : ofRound? c.bracketViewArr c.currRound = some tbl)
    (filled : c.bracketViewGroupDict tbl = some shown) (winner : reg.Contains w) (loser : reg.Contains l) :
    Running reg (c.updated w l c.currRound tbl shown) := by
  obtain ⟨positive, here⟩ := ofRound?_eq_some onScreen
  have tablesBound := running.tablesBound
  have bound : c.currRound - 1 < m := by
    have length := congrArg List.length arr
    rw [tables_length] at length
    omega
  rw [arr, tables_getElem? bound] at here
  obtain rfl := Option.some.inj here
  refine ⟨running.sourced.updateWinner winner loser _, running.roundMatches, running.roundsBound,
    running.tablesBound, ?_, ?_⟩
  · show c.currRound ≤ (c.tournament.roundList.modify _ _).length
    rw [List.length_modify]
    exact running.listsBound
  · intro i below
    have before := running.current i below
    show Function.update c.bracketViewGroupDict ⟨c.currRound - 1⟩ _ ⟨i⟩ =
      (c.tournament.roundList.modify (c.currRound - 1) (·.map (Group.mark w l)))[i]?
    by_cases last : i = c.currRound - 1
    · subst last
      rw [Function.update_self, List.getElem?_modify_eq, ← before, filled]
      rfl
    · rw [Function.update_of_ne (by simpa using last), List.getElem?_modify_ne _ _ (Ne.symm last), before]

theorem Consistent.initialized_of_visible (consistent : Consistent reg s)
    (visible : s.visibleCells table row = some cell) : s.controller.initialized = true := by
  by_contra notYet
  have blank := consistent.blank (by simpa using notYet)
  rw [blank.visibleCells] at visible
  cases visible

theorem Consistent.initialized_of_prompt (consistent : Consistent reg s) (up : s.prompt = true) :
    s.controller.initialized = true := by
  by_contra notYet
  have down := (consistent.blank (by simpa using notYet)).prompt
  rw [up] at down
  cases down

theorem Consistent.current (consistent : Consistent reg s)
    (visible : s.visibleCells table row = some cell) (round : cell.round = s.controller.currRound) :
    ∃ L g1 g2, table = ⟨s.controller.currRound - 1⟩ ∧ 0 < s.controller.currRound ∧
      s.controller.tournament.roundList[s.controller.currRound - 1]? = some L ∧
      s.controller.bracketViewGroupDict table = some L ∧
      L[row]? = some g1 ∧ L[(L.length - 1) - row]? = some g2 ∧
      cell.group1.entry = g1.entry ∧ cell.group2.entry = g2.entry := by
  have running := consistent.running (consistent.initialized_of_visible visible)
  obtain ⟨shownRound, bound, -, L, g1, g2, filled, first, second, entry1, entry2⟩ :=
    consistent.cells table row cell visible
  have here : table = ⟨s.controller.currRound - 1⟩ := by
    obtain ⟨id⟩ := table
    congr 1
    change cell.round = id + 1 at shownRound
    omega
  have listed := running.current (s.controller.currRound - 1) (by omega)
  rw [← here, filled] at listed
  exact ⟨L, g1, g2, here, by omega, listed.symm, filled, first, second, entry1, entry2⟩

theorem Consistent.contains_groupOf (consistent : Consistent reg s)
    (visible : s.visibleCells table row = some cell) (side : Side) : reg.Contains (cell.groupOf side) := by
  obtain ⟨-, -, -, shown, g1, g2, filled, first, second, entry1, entry2⟩ :=
    consistent.cells table row cell visible
  have listed := consistent.shownSourced table shown filled
  cases side with
  | first => exact (Registration.contains_congr entry1).mpr (listed g1 (List.mem_of_getElem? first))
  | second => exact (Registration.contains_congr entry2).mpr (listed g2 (List.mem_of_getElem? second))

theorem setCell_shows {set : Option MatchUpHost} (cells : ∀ table row cell,
      s.visibleCells table row = some cell → Shows s.controller table row cell)
    (new : ∀ cell, set = some cell → Shows s.controller table row cell) {table' : UITableView} {row' : Nat}
    {cell : MatchUpHost} (visible : (s.setCell table row set).visibleCells table' row' = some cell) :
    Shows s.controller table' row' cell := by
  rcases Screen.setCell_visible visible with ⟨rfl, rfl, isNew⟩ | old
  · exact new cell isNew
  · exact cells table' row' cell old

theorem Consistent.picks (consistent : Consistent reg s) (visible : s.visibleCells table row = some cell)
    (picks : s.Picks side table row cell t) : Consistent reg t := by
  have initialized := consistent.initialized_of_visible visible
  have running := consistent.running initialized
  obtain ⟨m, arr⟩ := consistent.arr
  obtain ⟨gs, tbl, shown, -, onScreen, filled, after⟩ := BracketController.updateWinner_inv picks.controller
  have winner := consistent.contains_groupOf visible side
  have loser := consistent.contains_groupOf visible side.other
  have counted : Running reg (s.counted cell) :=
    ⟨running.sourced, running.roundMatches, running.roundsBound, running.tablesBound, running.listsBound,
      running.current⟩
  have runningAfter : Running reg t.controller := by
    rw [after]
    exact counted.updated arr onScreen filled winner loser
  refine ⟨?_, ?_, ⟨m, ?_⟩, ?_, ?_, ?_, ?_, fun _ => runningAfter⟩
  · rw [after]
    exact consistent.code
  · rw [after]
    exact consistent.host
  · rw [after]
    exact arr
  · rw [picks.stored]
    exact consistent.documents
  · intro table' shown' filled' g member
    rw [after] at filled'
    change Function.update s.controller.bracketViewGroupDict tbl _ table' = some shown' at filled'
    by_cases same : table' = tbl
    · subst same
      rw [Function.update_self] at filled'
      obtain rfl := Option.some.inj filled'
      obtain ⟨p, old, rfl⟩ := List.mem_map.mp member
      exact (consistent.shownSourced table' shown filled p old).mark _ _
    · rw [Function.update_of_ne same] at filled'
      exact consistent.shownSourced table' shown' filled' g member
  · intro table' row' cell' visible'
    rw [picks.visibleCells] at visible'
    have before : Shows s.controller table' row' cell' := by
      refine setCell_shows consistent.cells ?_ visible'
      intro new same
      obtain rfl := Option.some.inj same
      exact consistent.cells table row cell visible
    rw [after]
    exact Shows.updated (c := s.counted cell) before filled
  · intro notYet
    rw [after] at notYet
    exact absurd (initialized.symm.trans notYet) (by decide)

/-! ### The other events -/

theorem Consistent.display {reuse : Option Nat} (consistent : Consistent reg s)
    (h : s.display table row reuse = some t) : Consistent reg t := by
  obtain ⟨rows, dequeued, rest, cell, counted, below, -, configured, rfl⟩ := Screen.display_inv h
  obtain ⟨m, arr⟩ := consistent.arr
  obtain ⟨shown, g1, g2, filled, first, second, bound, rfl⟩ :=
    BracketController.cellForRowAt_inv arr configured
  refine ⟨consistent.code, consistent.host, ⟨m, arr⟩, consistent.documents, consistent.shownSourced, ?_, ?_,
    consistent.running⟩
  · intro table' row' cell' visible'
    refine setCell_shows consistent.cells ?_ visible'
    intro new same
    obtain rfl := Option.some.inj same
    refine ⟨rfl, ?_, ⟨rows, counted, below⟩, shown, g1, g2, filled, first, second, rfl, rfl⟩
    rw [arr, tables_length]
    exact bound
  · intro notYet
    rw [(consistent.blank notYet).rows] at counted
    cases counted

theorem Consistent.endDisplay (consistent : Consistent reg s) (h : s.endDisplay table row = some t) :
    Consistent reg t := by
  obtain ⟨cell, visible, rfl⟩ := Screen.endDisplay_inv h
  refine ⟨consistent.code, consistent.host, consistent.arr, consistent.documents, consistent.shownSourced, ?_, ?_,
    consistent.running⟩
  · intro table' row' cell' visible'
    refine setCell_shows consistent.cells ?_ visible'
    intro new same
    cases same
  · intro notYet
    rw [(consistent.blank notYet).visibleCells] at visible
    cases visible

theorem Consistent.yes (consistent : Consistent reg s) (h : s.yes = some t) : Consistent reg t := by
  obtain ⟨up, code, document, written, rfl⟩ := Screen.yes_inv h
  have initialized := consistent.initialized_of_prompt up
  have running := consistent.running initialized
  have sourced := running.sourced.nextRound
  refine ⟨consistent.code, consistent.host, consistent.arr, ?_, consistent.shownSourced, consistent.cells, ?_,
    fun _ => ?_⟩
  · obtain ⟨document', written', loaded⟩ := sourced.stored
    obtain ⟨rfl, rfl⟩ := Prod.mk.inj (Option.some.inj (written.symm.trans written'))
    intro other member
    dsimp only at member
    rw [if_pos consistent.code.symm] at member
    rcases List.mem_append.mp member with old | new
    · exact consistent.documents other old
    · obtain rfl := List.mem_singleton.mp new
      exact ⟨_, loaded, sourced⟩
  · intro notYet
    exact absurd (initialized.symm.trans notYet) (by decide)
  · have listsBound := running.listsBound
    refine ⟨sourced, running.roundMatches, running.roundsBound, running.tablesBound, ?_, ?_⟩
    · show s.controller.currRound ≤ (s.controller.tournament.roundList ++ _).length
      rw [List.length_append]
      omega
    · intro i below
      have before := running.current i below
      show s.controller.bracketViewGroupDict ⟨i⟩ = (s.controller.tournament.roundList ++ _)[i]?
      change i < s.controller.currRound at below
      rw [List.getElem?_append_left (by omega), before]

theorem Consistent.no (consistent : Consistent reg s) (h : s.no = some t) : Consistent reg t := by
  obtain ⟨up, tbl, -, rfl⟩ := Screen.no_inv h
  refine ⟨consistent.code, consistent.host, consistent.arr, consistent.documents, consistent.shownSourced, ?_, ?_, ?_⟩
  · intro table' row' cell' visible'
    change Function.update s.visibleCells tbl _ table' row' = some cell' at visible'
    by_cases same : table' = tbl
    · subst same
      rw [Function.update_self] at visible'
      obtain ⟨cell, visible, rfl⟩ := Option.map_eq_some_iff.mp visible'
      exact consistent.cells table' row' cell visible
    · rw [Function.update_of_ne same] at visible'
      exact consistent.cells table' row' cell' visible'
  · intro notYet
    exact absurd ((consistent.initialized_of_prompt up).symm.trans notYet) (by decide)
  · intro initialized
    have running := consistent.running initialized
    exact ⟨running.sourced, running.roundMatches, running.roundsBound, running.tablesBound,
      running.listsBound, running.current⟩

theorem Consistent.reopen (consistent : Consistent reg s) (h : s.reopen = some t) : Consistent reg t := by
  obtain ⟨-, rfl⟩ := Screen.reopen_inv h
  rw [consistent.code, consistent.host]
  exact opened_consistent consistent.documents

theorem Consistent.step (consistent : Consistent reg s) {e : ScreenEvent} (h : s.step e = some t) :
    Consistent reg t := by
  cases e with
  | display table row reuse => exact consistent.display h
  | endDisplay table row => exact consistent.endDisplay h
  | tap side table row =>
    obtain ⟨cell, visible, -, ⟨-, rfl⟩ | ⟨-, picks⟩⟩ := Screen.tap_inv h
    · exact consistent
    · exact consistent.picks visible picks
  | yes => exact consistent.yes h
  | no => exact consistent.no h
  | snapshot version => exact consistent.snapshot h
  | reopen => exact consistent.reopen h

theorem run_consistent {es : List ScreenEvent}
    (ran : Transition.run Screen.step (Screen.start reg) es = some s) : Consistent reg s :=
  Transition.run_invariant' (fun _ _ _ consistent h => consistent.step h) (start_consistent reg) ran

end Tourni
