import Tourni.Bracket.Chronicle
import Tourni.Bracket.ScreenSteps

/-!
# The copies of the results

An open bracket has the results of a round three times: in the round list of its tournament, in the groups of
the table, and as ribbons in the displayed cells. They agree after any events, as long as the listener delivers
the versions of a chronicle one after the other.
-/

namespace Tourni
open Mirror

/-- What happens to an open bracket, of the host or of a viewer. -/
inductive WatchEvent where
  | display (table : UITableView) (row : Nat) (reuse : Option Nat)
  | endDisplay (table : UITableView) (row : Nat)
  | tap (side : Side) (table : UITableView) (row : Nat)
  | yes
  | no
  | snapshot
  deriving DecidableEq, Repr

/-- An open bracket and the version that its listener hears next. -/
structure Watch where
  screen : Screen
  next : Nat

/-- The listener hears a document, which need not be one of those the screen has stored. -/
def Screen.deliver (s : Screen) (document : Document) : Option Screen := do
  let controller ← s.controller.deliver document
  some { s.reloadData with controller, picked := [] }

namespace Watch

def start (reg : Registration) (host : Bool) (next : Nat) : Watch :=
  { screen := Screen.opened reg.gameCode host [], next }

def step (reg : Registration) (document : Nat → Document) (w : Watch) : WatchEvent → Option Watch
  | .display table row reuse => (w.screen.display table row reuse).map ({ w with screen := · })
  | .endDisplay table row => (w.screen.endDisplay table row).map ({ w with screen := · })
  | .tap side table row => (w.screen.tap side table row).map ({ w with screen := · })
  | .yes => w.screen.yes.map ({ w with screen := · })
  | .no => w.screen.no.map ({ w with screen := · })
  | .snapshot =>
    if w.next ≤ reg.rounds then
      (w.screen.deliver (document w.next)).map fun screen => { screen, next := w.next + 1 }
    else none

end Watch

/-- The ribbon on `side` is shown. -/
def MatchUpHost.ribbon (cell : MatchUpHost) : Side → Bool
  | .first => !cell.winnerIcon1IsHidden
  | .second => !cell.winnerIcon2IsHidden

/-- Every table has the groups of its round list, and every displayed cell the ribbons of its row. -/
structure CopiesAgree (s : Screen) : Prop where
  tables : ∀ (k : Nat) table, s.controller.bracketViewArr[k]? = some table →
    ∃ L, s.controller.tournament.roundList[k]? = some L ∧ s.controller.bracketViewGroupDict table = some L
  ribbons : ∀ (k : Nat) table row cell, s.controller.bracketViewArr[k]? = some table →
    s.visibleCells table row = some cell →
    ∃ L g1 g2, s.controller.tournament.roundList[k]? = some L ∧ L[row]? = some g1 ∧
      L[L.length - 1 - row]? = some g2 ∧
      (cell.winnerIcon1IsHidden = false ↔ g1.status = true) ∧
      (cell.winnerIcon2IsHidden = false ↔ g2.status = true)

/-- The cell shows the names and the marks of row `row` of the list. -/
structure Mirrors (cell : MatchUpHost) (L : List Group) (row : Nat) : Prop where
  inside : row < L.length / 2
  name : ∀ side, (cell.groupOf side).name = nameAt L (seat L.length row side)
  ribbon : ∀ side, cell.ribbon side = statusAt L (seat L.length row side)

/-- The tables of a controller that heard version `k` have its round lists, up to picks in the last of them. -/
structure Showing (reg : Registration) (c : BracketController) (k : Nat) : Prop where
  placed : c.Placed reg.rounds k
  currRound : c.currRound = shownRounds reg.rounds k
  lists : ∀ i < shownRounds reg.rounds k, ∃ L, c.tournament.roundList[i]? = some L ∧
    c.bracketViewGroupDict ⟨i⟩ = some L ∧ L.length = 2 ^ (reg.rounds - i)
  tidy : ∀ L, c.tournament.roundList[c.currRound - 1]? = some L → Tidy L

structure Watched (reg : Registration) (w : Watch) : Prop where
  code : w.screen.controller.gameCode = reg.gameCode
  blank : w.screen.controller.initialized = false → w.screen.controller.bracketViewArr = []
  running : w.screen.controller.initialized = true →
    ∃ k ≤ reg.rounds, w.next = k + 1 ∧ Showing reg w.screen.controller k
  cells : ∀ table row cell, w.screen.visibleCells table row = some cell →
    table.id < w.screen.controller.bracketViewArr.length ∧ cell.round = table.id + 1 ∧
    ∃ L, w.screen.controller.tournament.roundList[table.id]? = some L ∧ Mirrors cell L row

variable {reg : Registration} {w x : Watch} {s t : Screen} {c : BracketController} {cell : MatchUpHost}
  {side : Side} {table : UITableView} {row k : Nat} {L : List Group} {v : Nat → Tournament}
  {document : Nat → Document}

theorem Mirrors.of_setMatchup {g1 g2 : Group} (inside : row < L.length / 2) (first : L[row]? = some g1)
    (second : L[(L.length - 1) - row]? = some g2) (dequeued : MatchUpHost) (round : Nat) :
    Mirrors (dequeued.setMatchup g1 g2 round) L row := by
  refine ⟨inside, ?_, ?_⟩
  · intro side
    cases side with
    | first => exact (nameAt_of_getElem? first).symm
    | second => exact (nameAt_of_getElem? second).symm
  · intro side
    cases side with
    | first => exact (Bool.not_not _).trans (statusAt_of_getElem? first).symm
    | second => exact (Bool.not_not _).trans (statusAt_of_getElem? second).symm

/-! ### Picks -/

section
variable {p q : Group}

/-- The tapped cell shows the ribbon of its winner. -/
theorem Mirrors.chosen (mirrors : Mirrors cell L row) (tidy : Tidy L)
    (winner : p.name = nameAt L (seat L.length row side))
    (loser : q.name = nameAt L (seat L.length row side.other)) (notFree : p.name ≠ some "FREE") :
    Mirrors (Screen.chosenCell cell side) (L.map (Group.mark p q)) row := by
  refine ⟨by rw [List.length_map]; exact mirrors.inside, ?_, ?_⟩
  · intro side'
    rw [nameAt_map_mark, List.length_map, ← mirrors.name side']
    cases side' <;> rfl
  · intro side'
    rw [List.length_map, tidy.statusAt_mark mirrors.inside winner loser notFree (seat_lt mirrors.inside side')]
    by_cases same : side' = side
    · subst same
      rw [if_pos rfl]
      cases side' <;> rfl
    · obtain rfl := Side.eq_other_iff.mpr same
      rw [if_neg (seat_ne_seat_other mirrors.inside side).symm, if_pos rfl]
      cases side <;> rfl

/-- A pick leaves the ribbons of the other rows right. -/
theorem Mirrors.other {r : Nat} (mirrors : Mirrors cell L row) (tidy : Tidy L) (inside : r < L.length / 2)
    (winner : p.name = nameAt L (seat L.length r side))
    (loser : q.name = nameAt L (seat L.length r side.other)) (notFree : p.name ≠ some "FREE")
    (differ : row ≠ r) : Mirrors cell (L.map (Group.mark p q)) row := by
  refine ⟨by rw [List.length_map]; exact mirrors.inside, ?_, ?_⟩
  · intro side'
    rw [nameAt_map_mark, List.length_map]
    exact mirrors.name side'
  · intro side'
    have apart : ∀ side'', seat L.length row side' ≠ seat L.length r side'' := by
      intro side'' same
      have rows := congrArg (Mirror.row L.length) same
      rw [row_seat mirrors.inside, row_seat inside] at rows
      exact differ rows
    rw [List.length_map, tidy.statusAt_mark inside winner loser notFree (seat_lt mirrors.inside side'),
      if_neg (apart _), if_neg (apart _)]
    exact mirrors.ribbon side'

end

/-! ### The events -/

theorem Watched.initialized_of_visible (watched : Watched reg w)
    (visible : w.screen.visibleCells table row = some cell) : w.screen.controller.initialized = true := by
  by_contra notYet
  obtain ⟨bound, -⟩ := watched.cells table row cell visible
  rw [watched.blank (by simpa using notYet)] at bound
  exact Nat.not_lt_zero _ bound

/-- An event that leaves the tables and their lists alone. -/
theorem Watched.frame {count : Int} {tournament : Tournament} (watched : Watched reg w)
    (controller : t.controller = { w.screen.controller with winnerSelectedCount := count, tournament })
    (kept : ∀ (i : Nat) L, w.screen.controller.tournament.roundList[i]? = some L →
      tournament.roundList[i]? = some L)
    (cells : ∀ table row cell, t.visibleCells table row = some cell →
      table.id < t.controller.bracketViewArr.length ∧ cell.round = table.id + 1 ∧
      ∃ L, t.controller.tournament.roundList[table.id]? = some L ∧ Mirrors cell L row) :
    Watched reg { w with screen := t } := by
  refine ⟨?_, ?_, ?_, cells⟩
  · rw [controller]
    exact watched.code
  · rw [controller]
    exact watched.blank
  · intro initialized
    rw [controller] at initialized
    obtain ⟨k, done, next, showing⟩ := watched.running initialized
    have positive : 0 < shownRounds reg.rounds k := by
      have := reg.rounds_pos
      unfold shownRounds
      omega
    refine ⟨k, done, next, ?_⟩
    show Showing reg t.controller k
    rw [controller]
    refine ⟨?_, showing.currRound, ?_, ?_⟩
    · exact ⟨showing.placed.initialized, showing.placed.arr, showing.placed.rows⟩
    · intro i below
      obtain ⟨L, listed, filled, size⟩ := showing.lists i below
      exact ⟨L, kept i L listed, filled, size⟩
    · intro L current
      obtain ⟨M, listed, -⟩ := showing.lists (w.screen.controller.currRound - 1) (by
        rw [showing.currRound]
        omega)
      obtain rfl := Option.some.inj ((kept _ M listed).symm.trans current)
      exact showing.tidy M listed

theorem Watched.display {reuse : Option Nat} (watched : Watched reg w)
    (h : w.screen.display table row reuse = some t) : Watched reg { w with screen := t } := by
  obtain ⟨rows, dequeued, rest, cell, counted, below, -, configured, rfl⟩ := Screen.display_inv h
  apply watched.frame
  · rfl
  · exact fun _ _ listed => listed
  intro table' row' cell' visible'
  rcases Screen.setCell_visible visible' with ⟨rfl, rfl, isNew⟩ | old
  · obtain rfl := Option.some.inj isNew
    by_cases initialized : w.screen.controller.initialized = true
    · obtain ⟨k, -, -, showing⟩ := watched.running initialized
      obtain ⟨shown, g1, g2, filled, first, second, bound, rfl⟩ :=
        BracketController.cellForRowAt_inv showing.placed.arr configured
      obtain ⟨L, listed, same, size⟩ := showing.lists table'.id bound
      obtain rfl := Option.some.inj (filled.symm.trans same)
      have placed := showing.placed.rows table'.id bound
      obtain rfl := Option.some.inj (counted.symm.trans placed)
      have inside : row' < shown.length / 2 := by
        have le : shownRounds reg.rounds k ≤ reg.rounds := by unfold shownRounds; omega
        rw [size, half_pow_sub (by omega)]
        exact below
      refine ⟨?_, rfl, shown, listed, .of_setMatchup inside first second dequeued _⟩
      show table'.id < w.screen.controller.bracketViewArr.length
      rw [showing.placed.arr, tables_length]
      exact bound
    · have empty : w.screen.controller.bracketViewArr = tables 0 := watched.blank (by simpa using initialized)
      obtain ⟨_, _, _, -, -, -, bound, -⟩ := BracketController.cellForRowAt_inv empty configured
      exact absurd bound (Nat.not_lt_zero _)
  · exact watched.cells table' row' cell' old

theorem Watched.endDisplay (watched : Watched reg w) (h : w.screen.endDisplay table row = some t) :
    Watched reg { w with screen := t } := by
  obtain ⟨cell, -, rfl⟩ := Screen.endDisplay_inv h
  apply watched.frame
  · rfl
  · exact fun _ _ listed => listed
  intro table' row' cell' visible'
  rcases Screen.setCell_visible visible' with ⟨-, -, isNew⟩ | old
  · cases isNew
  · exact watched.cells table' row' cell' old

/-- `nextRound` puts the winners behind the lists that are shown. -/
theorem nextRound_kept (t : Tournament) {i : Nat} (listed : t.roundList[i]? = some L) :
    t.nextRound.roundList[i]? = some L := by
  obtain ⟨bound, -⟩ := List.getElem?_eq_some_iff.mp listed
  exact (List.getElem?_append_left bound).trans listed

theorem Watched.yes (watched : Watched reg w) (h : w.screen.yes = some t) :
    Watched reg { w with screen := t } := by
  obtain ⟨-, code, document, -, rfl⟩ := Screen.yes_inv h
  apply watched.frame
  · rfl
  · exact fun _ _ listed => nextRound_kept _ listed
  intro table row cell visible
  obtain ⟨bound, round, L, listed, mirrors⟩ := watched.cells table row cell visible
  exact ⟨bound, round, L, nextRound_kept _ listed, mirrors⟩

theorem Watched.no (watched : Watched reg w) (h : w.screen.no = some t) :
    Watched reg { w with screen := t } := by
  obtain ⟨-, current, -, rfl⟩ := Screen.no_inv h
  apply watched.frame
  · rfl
  · exact fun _ _ listed => listed
  intro table row cell visible
  by_cases here : table = current
  · subst here
    dsimp only at visible
    rw [Function.update_self] at visible
    obtain ⟨old, before, rfl⟩ := Option.map_eq_some_iff.mp visible
    obtain ⟨bound, round, L, listed, mirrors⟩ := watched.cells table row old before
    refine ⟨bound, round, L, listed, mirrors.inside, ?_, ?_⟩
    · intro side
      rw [← mirrors.name side]
      cases side <;> rfl
    · intro side
      rw [← mirrors.ribbon side]
      cases side <;> rfl
  · dsimp only at visible
    rw [Function.update_of_ne here] at visible
    exact watched.cells table row cell visible

/-- A pick in the table of the current round changes the list of that round only. -/
theorem updated_listed {p q : Group} (current : table.id = c.currRound - 1)
    (listed : c.tournament.roundList[table.id]? = some L) (i : Nat) :
    (c.updated p q c.currRound table L).tournament.roundList[i]? =
      if i = table.id then some (L.map (Group.mark p q)) else c.tournament.roundList[i]? := by
  show (c.tournament.roundList.modify (c.currRound - 1) (·.map (Group.mark p q)))[i]? = _
  rw [← current]
  by_cases here : i = table.id
  · rw [if_pos here, here, List.getElem?_modify_eq, listed]
    rfl
  · rw [if_neg here, List.getElem?_modify_ne _ _ (Ne.symm here)]

theorem Showing.updated {p q : Group} (showing : Showing reg c k) (current : table.id = c.currRound - 1)
    (listed : c.tournament.roundList[table.id]? = some L) (tidy : Tidy (L.map (Group.mark p q))) :
    Showing reg (c.updated p q c.currRound table L) k := by
  have placed := showing.placed
  refine ⟨⟨placed.initialized, placed.arr, placed.rows⟩, showing.currRound, ?_, ?_⟩
  · intro i below
    obtain ⟨M, listedM, filled, size⟩ := showing.lists i below
    by_cases here : i = table.id
    · subst here
      obtain rfl := Option.some.inj (listed.symm.trans listedM)
      refine ⟨L.map (Group.mark p q), ?_, Function.update_self .., by rwa [List.length_map]⟩
      rw [updated_listed current listed, if_pos rfl]
    · have different : (⟨i⟩ : UITableView) ≠ table := fun same => here (congrArg UITableView.id same)
      refine ⟨M, ?_, ?_, size⟩
      · rw [updated_listed current listed, if_neg here, listedM]
      · exact (Function.update_of_ne different _ _).trans filled
  · intro M now
    change (c.updated p q c.currRound table L).tournament.roundList[c.currRound - 1]? = some M at now
    rw [← current, updated_listed current listed, if_pos rfl] at now
    obtain rfl := Option.some.inj now
    exact tidy

theorem Mirrors.notFree (mirrors : Mirrors cell L row) (tidy : Tidy L)
    (guard : side = .second → cell.group2.name ≠ some "FREE") : (cell.groupOf side).name ≠ some "FREE" := by
  cases side with
  | first =>
    -- A bye comes second in its row.
    intro isFree
    have inside := mirrors.inside
    have second := (tidy.free row (by omega) ((mirrors.name .first).symm.trans isFree)).1
    omega
  | second => exact guard rfl

theorem Watched.picks (watched : Watched reg w) (visible : w.screen.visibleCells table row = some cell)
    (picks : w.screen.Picks side table row cell t) : Watched reg { w with screen := t } := by
  have initialized := watched.initialized_of_visible visible
  obtain ⟨k, done, next, showing⟩ := watched.running initialized
  obtain ⟨bound, round, L, listed, mirrors⟩ := watched.cells table row cell visible
  obtain ⟨-, tbl, shown, -, onScreen, filled, after⟩ := BracketController.updateWinner_inv picks.controller
  have below : table.id < shownRounds reg.rounds k := by rwa [showing.placed.arr, tables_length] at bound
  have current : table.id = w.screen.controller.currRound - 1 := by
    have := picks.round
    omega
  obtain rfl : tbl = table := by
    obtain ⟨-, onScreen⟩ := ofRound?_eq_some onScreen
    change w.screen.controller.bracketViewArr[w.screen.controller.currRound - 1]? = some tbl at onScreen
    rw [← current, showing.placed.arr, tables_getElem? below] at onScreen
    exact (Option.some.inj onScreen).symm
  obtain rfl : shown = L := by
    obtain ⟨M, listedM, filledM, -⟩ := showing.lists tbl.id below
    obtain rfl := Option.some.inj (listed.symm.trans listedM)
    exact Option.some.inj (filled.symm.trans filledM)
  have tidy : Tidy shown := showing.tidy shown (current ▸ listed)
  have winner := mirrors.name side
  have loser := mirrors.name side.other
  have notFree := mirrors.notFree tidy picks.notFree
  let mark := Group.mark (cell.groupOf side) (cell.groupOf side.other)
  have counted : Showing reg (w.screen.counted cell) k := by
    have placed := showing.placed
    exact ⟨⟨placed.initialized, placed.arr, placed.rows⟩, showing.currRound, showing.lists, showing.tidy⟩
  have lists : ∀ i, t.controller.tournament.roundList[i]? =
      if i = tbl.id then some (shown.map mark) else w.screen.controller.tournament.roundList[i]? := by
    rw [after]
    exact updated_listed (c := w.screen.counted cell) current listed
  have arr : t.controller.bracketViewArr = w.screen.controller.bracketViewArr := by
    rw [after]
    rfl
  refine ⟨?_, ?_, fun _ => ⟨k, done, next, ?_⟩, ?_⟩
  · show t.controller.gameCode = _
    rw [after]
    exact watched.code
  · intro notYet
    rw [picks.initialized, initialized] at notYet
    cases notYet
  · show Showing reg t.controller k
    rw [after]
    exact counted.updated current listed (tidy.mark mirrors.inside winner loser notFree)
  · intro table' row' cell' visible'
    change t.visibleCells table' row' = some cell' at visible'
    show table'.id < t.controller.bracketViewArr.length ∧ cell'.round = table'.id + 1 ∧
      ∃ L, t.controller.tournament.roundList[table'.id]? = some L ∧ Mirrors cell' L row'
    rw [arr, lists]
    rw [picks.visibleCells] at visible'
    by_cases here : table' = tbl ∧ row' = row
    · obtain ⟨rfl, rfl⟩ := here
      rw [Screen.setCell_self] at visible'
      obtain rfl := Option.some.inj visible'
      exact ⟨bound, round, _, if_pos rfl, mirrors.chosen tidy winner loser notFree⟩
    · rw [Screen.setCell_of_ne here] at visible'
      obtain ⟨bound', round', M, listedM, mirrorsM⟩ := watched.cells table' row' cell' visible'
      refine ⟨bound', round', ?_⟩
      by_cases same : table'.id = tbl.id
      · obtain rfl : table' = tbl := congrArg UITableView.mk same
        obtain rfl := Option.some.inj (listed.symm.trans listedM)
        refine ⟨_, if_pos rfl, mirrorsM.other tidy mirrors.inside winner loser notFree ?_⟩
        exact fun sameRow => here ⟨rfl, sameRow⟩
      · exact ⟨M, (if_neg same).trans listedM, mirrorsM⟩

/-! ### Snapshots -/

theorem Screen.deliver_inv {d : Document} (h : s.deliver d = some t) :
    ∃ c, s.controller.deliver d = some c ∧ t = { s.reloadData with controller := c, picked := [] } := by
  obtain ⟨c, delivered, h⟩ := Option.bind_eq_some_iff.mp h
  exact ⟨c, delivered, (Option.some.inj h).symm⟩

/-- A snapshot hears a stored document, and remembers how far the listener is. -/
theorem Screen.snapshot_eq_deliver (s : Screen) (version : Nat) :
    s.snapshot version = if s.seen ≤ version then
      s.stored[version]?.bind fun d => (s.deliver d).map ({ · with seen := version + 1 }) else none := by
  unfold Screen.snapshot Screen.deliver BracketController.deliver
  by_cases ahead : s.seen ≤ version
  · rw [if_pos ahead, if_pos ahead]
    cases s.stored[version]? with
    | none => rfl
    | some d =>
      simp only [Option.bind_eq_bind, Option.bind_some, Option.map_bind, Option.bind_assoc,
        Function.comp_def, Option.map_some]
  · rw [if_neg ahead, if_neg ahead]

theorem Showing.of_loaded (chronicle : Chronicle reg v document) (free : "FREE" ∉ reg.names)
    (done : k ≤ reg.rounds) (loaded : c.Loaded reg.rounds k (v k)) : Showing reg c k := by
  refine ⟨loaded.toPlaced, loaded.currRound, ?_, ?_⟩
  · intro i below
    have early : i ≤ k := by unfold shownRounds at below; omega
    obtain ⟨L, listed, size⟩ := (chronicle.version free done).sizes i early
    rw [loaded.tournament, loaded.shown i below]
    exact ⟨L, listed, listed, size⟩
  · intro L current
    rw [loaded.tournament, loaded.currRound] at current
    exact chronicle.tidy_current free done current

theorem Watched.snapshot (chronicle : Chronicle reg v document) (free : "FREE" ∉ reg.names)
    (watched : Watched reg w) (done : w.next ≤ reg.rounds)
    (h : w.screen.deliver (document w.next) = some t) : Watched reg { screen := t, next := w.next + 1 } := by
  obtain ⟨d, delivered, rfl⟩ := Screen.deliver_inv h
  have shown := (deliver_eq watched.code (chronicle.load free done)).symm.trans delivered
  have sized := (chronicle.version free done).sized
  have loads : ∃ c, w.screen.controller.snapshot (v w.next) = some c ∧ c.Loaded reg.rounds w.next (v w.next) ∧
      w.screen.controller.Kept c := by
    by_cases initialized : w.screen.controller.initialized = true
    · obtain ⟨k, -, next, showing⟩ := watched.running initialized
      rw [next] at sized ⊢
      exact BracketController.snapshot_next sized showing.placed
    · have fresh : w.screen.controller.initialized = false := by simpa using initialized
      exact BracketController.snapshot_fresh sized fresh (watched.blank fresh)
  obtain ⟨c, same, loaded, kept⟩ := loads
  obtain rfl := Option.some.inj (same.symm.trans shown)
  refine ⟨kept.1.trans watched.code, ?_, fun _ => ⟨w.next, done, rfl, .of_loaded chronicle free done loaded⟩, ?_⟩
  · intro notYet
    rw [loaded.initialized] at notYet
    cases notYet
  · intro table row cell visible
    cases visible

theorem Watched.step (chronicle : Chronicle reg v document) (free : "FREE" ∉ reg.names)
    (watched : Watched reg w) {e : WatchEvent} (h : w.step reg document e = some x) : Watched reg x := by
  cases e with
  | display table row reuse =>
    obtain ⟨t, moved, rfl⟩ := Option.map_eq_some_iff.mp h
    exact watched.display moved
  | endDisplay table row =>
    obtain ⟨t, moved, rfl⟩ := Option.map_eq_some_iff.mp h
    exact watched.endDisplay moved
  | tap side table row =>
    obtain ⟨t, tapped, rfl⟩ := Option.map_eq_some_iff.mp h
    obtain ⟨cell, visible, -, ⟨-, rfl⟩ | ⟨-, picks⟩⟩ := Screen.tap_inv tapped
    · exact watched
    · exact watched.picks visible picks
  | yes =>
    obtain ⟨t, confirmed, rfl⟩ := Option.map_eq_some_iff.mp h
    exact watched.yes confirmed
  | no =>
    obtain ⟨t, returned, rfl⟩ := Option.map_eq_some_iff.mp h
    exact watched.no returned
  | snapshot =>
    change (if w.next ≤ reg.rounds then _ else none) = _ at h
    by_cases done : w.next ≤ reg.rounds
    · rw [if_pos done] at h
      obtain ⟨t, delivered, rfl⟩ := Option.map_eq_some_iff.mp h
      exact watched.snapshot chronicle free done delivered
    · rw [if_neg done] at h
      cases h

theorem Watched.start (reg : Registration) (host : Bool) (next : Nat) :
    Watched reg (Watch.start reg host next) := by
  refine ⟨rfl, fun _ => rfl, ?_, ?_⟩
  · intro initialized
    cases initialized
  · intro table row cell visible
    cases visible

theorem Watched.copiesAgree (watched : Watched reg w) : CopiesAgree w.screen := by
  have shows : ∀ (k : Nat) table, w.screen.controller.bracketViewArr[k]? = some table →
      table = ⟨k⟩ ∧ ∃ L, w.screen.controller.tournament.roundList[k]? = some L ∧
        w.screen.controller.bracketViewGroupDict ⟨k⟩ = some L := by
    intro k table here
    by_cases initialized : w.screen.controller.initialized = true
    · obtain ⟨j, -, -, showing⟩ := watched.running initialized
      rw [showing.placed.arr] at here
      obtain ⟨bound, -⟩ := List.getElem?_eq_some_iff.mp here
      rw [tables_length] at bound
      rw [tables_getElem? bound] at here
      obtain ⟨L, listed, filled, -⟩ := showing.lists k bound
      exact ⟨(Option.some.inj here).symm, L, listed, filled⟩
    · rw [watched.blank (by simpa using initialized)] at here
      cases here
  refine ⟨?_, ?_⟩
  · intro k table here
    obtain ⟨rfl, L, listed, filled⟩ := shows k table here
    exact ⟨L, listed, filled⟩
  · intro k table row cell here visible
    obtain ⟨rfl, -⟩ := shows k table here
    obtain ⟨-, -, L, listed, mirrors⟩ := watched.cells _ row cell visible
    have inside := mirrors.inside
    have first : L[row]? = some L[row] := List.getElem?_eq_getElem (by omega)
    have second : L[L.length - 1 - row]? = some L[L.length - 1 - row] := List.getElem?_eq_getElem (by omega)
    have ribbon1 : (!cell.winnerIcon1IsHidden) = L[row].status :=
      (mirrors.ribbon .first).trans (statusAt_of_getElem? first)
    have ribbon2 : (!cell.winnerIcon2IsHidden) = L[L.length - 1 - row].status :=
      (mirrors.ribbon .second).trans (statusAt_of_getElem? second)
    refine ⟨L, _, _, listed, first, second, ?_, ?_⟩
    · rw [← ribbon1, Bool.not_eq_true']
    · rw [← ribbon2, Bool.not_eq_true']

/-- In every state that an open bracket reaches while its listener delivers the versions of a chronicle one
after the other, the copies of the results agree. -/
theorem copies_agree {host : Bool} {next : Nat} {es : List WatchEvent} (chronicle : Chronicle reg v document)
    (free : "FREE" ∉ reg.names)
    (ran : Transition.run (Watch.step reg document) (Watch.start reg host next) es = some w) :
    CopiesAgree w.screen :=
  have watched : Watched reg w :=
    Transition.run_invariant' (fun _ _ _ now moved => now.step chronicle free moved) (.start reg host next) ran
  watched.copiesAgree

/-! ### Three groups -/

/-- The picks of each round; in the first one "A" has a bye, and the host changes its mind about "C". -/
def threePicks : Nat → List Pick
  | 0 => [{ row := 0, side := .first }, { row := 1, side := .second }, { row := 1, side := .first }]
  | _ => [{ row := 0, side := .second }]

def threeVersion : Nat → Tournament
  | 0 => three.created
  | k + 1 => ((threeVersion k).play (threeVersion k).winners (k + 1) (threePicks k)).nextRound

def threeDocument (k : Nat) : Document := ((threeVersion k).store.map Prod.snd).getD default

theorem three_rounds : three.rounds = 2 := by decide

theorem three_chronicle : Chronicle three threeVersion threeDocument := by
  refine ⟨rfl, ?_, ?_⟩
  · intro k below
    rw [three_rounds] at below
    refine ⟨threePicks k, ?_, ?_, rfl⟩
    · obtain rfl | rfl : k = 0 ∨ k = 1 := by omega
      · decide
      · decide
    · obtain rfl | rfl : k = 0 ∨ k = 1 := by omega
      · decide
      · decide
  · intro k below
    rw [three_rounds] at below
    obtain rfl | rfl | rfl : k = 0 ∨ k = 1 ∨ k = 2 := by omega
    · decide
    · decide
    · decide

/-- The host takes back the first "Complete round", and the cell of the second row comes up again. -/
def threeWatched : List WatchEvent :=
  [.snapshot, .display ⟨0⟩ 0 none, .display ⟨0⟩ 1 none, .tap .first ⟨0⟩ 0, .tap .second ⟨0⟩ 1, .no,
    .endDisplay ⟨0⟩ 1, .display ⟨0⟩ 1 (some 0), .tap .first ⟨0⟩ 1, .yes, .snapshot, .display ⟨0⟩ 0 (some 0),
    .display ⟨1⟩ 0 none, .tap .second ⟨1⟩ 0]

theorem copies_agree_three :
    ∃ w, Transition.run (Watch.step three threeDocument) (Watch.start three true 0) threeWatched = some w ∧
      (w.screen.visibleCells ⟨1⟩ 0).isSome ∧ CopiesAgree w.screen := by
  have shows : ((Transition.run (Watch.step three threeDocument) (Watch.start three true 0) threeWatched).map
      fun w => (w.screen.visibleCells ⟨1⟩ 0).isSome) = some true := by decide
  obtain ⟨w, ran, visible⟩ := Option.map_eq_some_iff.mp shows
  exact ⟨w, ran, visible, copies_agree three_chronicle (by decide) ran⟩

end Tourni
