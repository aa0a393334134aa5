import Tourni.Bracket.Incremental
import Tourni.Lib.Transition

/-!
# Paging through the rounds

The bracket scene is panned from table to table. `page` is changed by the end of a pan only, while snapshots
append tables, and it is used with offsets by the callbacks of the scroll views and of the row heights.
-/

namespace Tourni

/-- `xs[i]` for an `Int`, which traps out of range. -/
def at? {α : Type*} (xs : List α) (i : Int) : Option α := if 0 ≤ i then xs[i.toNat]? else none

def matchupHeight : Int := 130

def matchupShrinked : Int := 130

/-- The paging of a `BracketController`, with the content offsets of its tables. -/
structure Pager (CGPoint : Type) where
  controller : BracketController
  page : Int := 0
  contentOffset : UITableView → CGPoint

/-- What happens to the pages; the environment chooses the order. -/
inductive PagerEvent (CGPoint : Type) where
  | panEnded (isLeft : Bool)
  | scroll (table : UITableView) (offset : CGPoint)
  | height (table : UITableView)
  | snapshot (t : Tournament)

namespace Pager
variable {CGPoint : Type}

/-- `heightForRowAt`: the same for every row. -/
def heightForRowAt (p : Pager CGPoint) (table : UITableView) : Option Int :=
  let arr := p.controller.bracketViewArr
  if p.page - 1 ≥ 0 then do
    let left ← at? arr (p.page - 1)
    if table == left then some matchupShrinked
    else
      let here ← at? arr p.page
      if table == here then some matchupHeight
      else if p.page + 1 < arr.length then
        let right ← at? arr (p.page + 1)
        if table == right then
          if p.page + 1 == (arr.length : Int) - 1 then some (matchupHeight * 2)
          else some (p.page * matchupHeight)
        else some 0
      else some 0
  else do
    let first ← at? arr 0
    some (if table == first then matchupHeight else 2 * matchupHeight)

/-- The assignment to `page` and its `didSet`, which asks every table for its heights. -/
def setPage (p : Pager CGPoint) (page : Int) : Option (Pager CGPoint) := do
  let p := { p with page }
  let _ ← p.controller.bracketViewArr.mapM p.heightForRowAt
  some p

/-- `panGestureOverBracketViewHandler` at the end of a gesture. -/
def panEnded (p : Pager CGPoint) (isLeft : Bool) : Option (Pager CGPoint) :=
  if !isLeft then
    if p.page == 0 then p.setPage 0 else p.setPage (p.page - 1)
  else if p.page == (p.controller.bracketViewArr.length : Int) - 1 then some p
  else p.setPage (p.page + 1)

def setContentOffset (p : Pager CGPoint) (table : UITableView) (offset : CGPoint) : Pager CGPoint :=
  { p with contentOffset := Function.update p.contentOffset table offset }

def scrollViewDidScroll (p : Pager CGPoint) (scrollView : UITableView) : Option (Pager CGPoint) :=
  let arr := p.controller.bracketViewArr
  let size := (arr.length : Int) - 1
  if size ≤ p.page + 1 then some p
  else do
    let right ← at? arr (p.page + 1)
    if scrollView == right && p.page < size then
      let here ← at? arr p.page
      some (p.setContentOffset here (p.contentOffset scrollView))
    else
      let here ← at? arr p.page
      if scrollView == here && p.page + 1 < size then
        let right ← at? arr (p.page + 1)
        some (p.setContentOffset right (p.contentOffset scrollView))
      else some p

def step (p : Pager CGPoint) : PagerEvent CGPoint → Option (Pager CGPoint)
  | .panEnded isLeft => p.panEnded isLeft
  | .scroll table offset => (p.setContentOffset table offset).scrollViewDidScroll table
  | .height table => (p.heightForRowAt table).map fun _ => p
  | .snapshot t => (p.controller.snapshot t).map fun controller => { p with controller }

/-- `page` is the index of a table. -/
structure OnPage (p : Pager CGPoint) : Prop where
  low : 0 ≤ p.page
  high : p.page < p.controller.bracketViewArr.length

/-- The tables were created one after the other. -/
def Ordered (p : Pager CGPoint) : Prop := ∃ m, p.controller.bracketViewArr = tables m

variable {p q : Pager CGPoint} {table : UITableView}

/-! ### Callbacks -/

theorem at?_eq {α : Type*} (xs : List α) {i : Int} (low : 0 ≤ i) (high : i < xs.length) :
    ∃ x, at? xs i = some x := by
  have bound : i.toNat < xs.length := by omega
  unfold at?
  rw [if_pos low]
  exact ⟨xs[i.toNat], List.getElem?_eq_getElem bound⟩

theorem OnPage.heightForRowAt (on : p.OnPage) (table : UITableView) :
    ∃ height, p.heightForRowAt table = some height := by
  obtain ⟨low, high⟩ := on
  unfold Pager.heightForRowAt
  dsimp only
  by_cases inner : p.page - 1 ≥ 0
  · obtain ⟨left, hleft⟩ := at?_eq p.controller.bracketViewArr inner (by omega)
    obtain ⟨here, hhere⟩ := at?_eq p.controller.bracketViewArr low high
    rw [if_pos inner, hleft, hhere]
    simp only [Option.bind_eq_bind, Option.bind_some]
    split
    · exact ⟨_, rfl⟩
    · split
      · exact ⟨_, rfl⟩
      · split
        · rename_i more
          obtain ⟨right, hright⟩ := at?_eq p.controller.bracketViewArr (by omega) more
          rw [hright]
          simp only [Option.bind_some]
          split
          · split <;> exact ⟨_, rfl⟩
          · exact ⟨_, rfl⟩
        · exact ⟨_, rfl⟩
  · obtain ⟨first, hfirst⟩ := at?_eq p.controller.bracketViewArr (Int.le_refl 0) (by omega)
    rw [if_neg inner, hfirst]
    exact ⟨_, rfl⟩

/-- A scroll callback indexes in range, and moves contents only. -/
theorem OnPage.scrollViewDidScroll (on : p.OnPage) (table : UITableView) :
    ∃ q, p.scrollViewDidScroll table = some q ∧ q.controller = p.controller ∧ q.page = p.page := by
  obtain ⟨low, high⟩ := on
  unfold Pager.scrollViewDidScroll
  dsimp only
  split
  · exact ⟨p, rfl, rfl, rfl⟩
  · obtain ⟨here, hhere⟩ := at?_eq p.controller.bracketViewArr low high
    obtain ⟨right, hright⟩ := at?_eq p.controller.bracketViewArr (i := p.page + 1) (by omega) (by omega)
    rw [hright, hhere]
    simp only [Option.bind_eq_bind, Option.bind_some]
    split
    · exact ⟨_, rfl, rfl, rfl⟩
    · split
      · exact ⟨_, rfl, rfl, rfl⟩
      · exact ⟨_, rfl, rfl, rfl⟩

/-! ### Gestures -/

theorem mapM_isSome {α β : Type*} {f : α → Option β} (total : ∀ x, ∃ y, f x = some y) (xs : List α) :
    ∃ ys, xs.mapM f = some ys := by
  induction xs with
  | nil => exact ⟨[], rfl⟩
  | cons x xs ih =>
    obtain ⟨y, first⟩ := total x
    obtain ⟨ys, rest⟩ := ih
    exact ⟨y :: ys, by simp [List.mapM_cons, first, rest]⟩

theorem setPage_eq {page : Int} (on : OnPage { p with page }) : p.setPage page = some { p with page } := by
  obtain ⟨heights, asked⟩ := mapM_isSome on.heightForRowAt p.controller.bracketViewArr
  rw [setPage]
  simp only [asked, Option.bind_eq_bind, Option.bind_some]

/-- The end of a pan stays on a page. -/
theorem OnPage.panEnded (on : p.OnPage) (isLeft : Bool) :
    ∃ page, p.panEnded isLeft = some { p with page } ∧ OnPage { p with page } := by
  obtain ⟨low, high⟩ := on
  unfold Pager.panEnded
  cases isLeft with
  | false =>
    rw [if_pos (by rfl)]
    split
    · have first : OnPage { p with page := 0 } := ⟨Int.le_refl 0, by dsimp only; omega⟩
      exact ⟨0, setPage_eq first, first⟩
    · rename_i later
      have notFirst : p.page ≠ 0 := by simpa using later
      have before : OnPage { p with page := p.page - 1 } := ⟨by dsimp only; omega, by dsimp only; omega⟩
      exact ⟨_, setPage_eq before, before⟩
  | true =>
    rw [if_neg (by decide)]
    split
    · exact ⟨p.page, rfl, low, high⟩
    · rename_i earlier
      have notLast : p.page ≠ (p.controller.bracketViewArr.length : Int) - 1 := by simpa using earlier
      have next : OnPage { p with page := p.page + 1 } := ⟨by dsimp only; omega, by dsimp only; omega⟩
      exact ⟨_, setPage_eq next, next⟩

/-! ### Runs -/

/-- Snapshots only append tables. -/
theorem snapshot_tables {c d : BracketController} {t : Tournament} {m : Nat} (arr : c.bracketViewArr = tables m)
    (h : c.snapshot t = some d) : ∃ n, d.bracketViewArr = tables (m + n) := by
  obtain ⟨-, rfl⟩ := BracketController.snapshot_inv arr h
  exact ⟨_, rfl⟩

theorem OnPage.step (on : p.OnPage) (ordered : p.Ordered) {e : PagerEvent CGPoint} (h : p.step e = some q) :
    q.OnPage ∧ q.Ordered := by
  cases e with
  | panEnded isLeft =>
    obtain ⟨page, panned, still⟩ := on.panEnded isLeft
    obtain rfl := Option.some.inj (panned.symm.trans h)
    exact ⟨still, ordered⟩
  | scroll table offset =>
    have moved : (p.setContentOffset table offset).OnPage := ⟨on.low, on.high⟩
    obtain ⟨r, scrolled, controller, page⟩ := moved.scrollViewDidScroll table
    obtain rfl := Option.some.inj (scrolled.symm.trans h)
    refine ⟨⟨?_, ?_⟩, ?_⟩
    · rw [page]
      exact on.low
    · rw [page, controller]
      exact on.high
    · unfold Ordered
      rw [controller]
      exact ordered
  | height table =>
    obtain ⟨_, -, rfl⟩ := Option.map_eq_some_iff.mp h
    exact ⟨on, ordered⟩
  | snapshot t =>
    obtain ⟨c, shown, rfl⟩ := Option.map_eq_some_iff.mp h
    obtain ⟨m, arr⟩ := ordered
    obtain ⟨n, after⟩ := snapshot_tables arr shown
    have high := on.high
    refine ⟨⟨on.low, ?_⟩, _, after⟩
    rw [arr, tables_length] at high
    show p.page < (c.bracketViewArr.length : Int)
    rw [after, tables_length]
    omega

/-- From the first snapshot that creates a table on, `page` is the index of a table, and neither a gesture nor a
callback indexes out of range. -/
theorem paging_in_range {c₀ c : BracketController} {t : Tournament} {contentOffset : UITableView → CGPoint}
    {es : List (PagerEvent CGPoint)} (empty : c₀.bracketViewArr = []) (first : c₀.snapshot t = some c)
    (created : c.bracketViewArr ≠ [])
    (ran : Transition.run step { controller := c, contentOffset } es = some p) :
    0 ≤ p.page ∧ p.page < p.controller.bracketViewArr.length ∧
      (∀ table, (p.heightForRowAt table).isSome) ∧
      (∀ table offset, ((p.setContentOffset table offset).scrollViewDidScroll table).isSome) ∧
      ∀ isLeft, (p.panEnded isLeft).isSome := by
  let start : Pager CGPoint := { controller := c, contentOffset }
  have on : start.OnPage := by
    refine ⟨Int.le_refl 0, ?_⟩
    show (0 : Int) < (c.bracketViewArr.length : Int)
    exact_mod_cast List.length_pos_iff.mpr created
  have ordered : start.Ordered := by
    have arr : c₀.bracketViewArr = tables 0 := empty
    obtain ⟨n, after⟩ := snapshot_tables arr first
    exact ⟨_, after⟩
  have keep : ∀ (s : Pager CGPoint) e t, (s.OnPage ∧ s.Ordered) → s.step e = some t →
      t.OnPage ∧ t.Ordered := fun s e t both next => both.1.step both.2 next
  obtain ⟨still, -⟩ := Transition.run_invariant' keep ⟨on, ordered⟩ ran
  refine ⟨still.low, still.high, ?_, ?_, ?_⟩
  · intro table
    exact Option.isSome_iff_exists.mpr (still.heightForRowAt table)
  · intro table offset
    have moved : (p.setContentOffset table offset).OnPage := ⟨still.low, still.high⟩
    obtain ⟨q, scrolled, -⟩ := moved.scrollViewDidScroll table
    exact Option.isSome_iff_exists.mpr ⟨q, scrolled⟩
  · intro isLeft
    obtain ⟨page, panned, -⟩ := still.panEnded isLeft
    exact Option.isSome_iff_exists.mpr ⟨_, panned⟩

/-- The second table of four groups is created while the first one is paged and scrolled. -/
theorem paging_in_range_four :
    ∃ c p, ({ gameCode := "abcd" } : BracketController).snapshot four.created = some c ∧
      Transition.run step { controller := c, contentOffset := fun _ => (0 : Int) }
        [.panEnded true, .snapshot fourWon.nextRound, .panEnded true, .scroll ⟨1⟩ 40, .height ⟨0⟩] = some p ∧
      p.page = 1 ∧ p.controller.bracketViewArr.length = 2 ∧ (p.heightForRowAt ⟨1⟩).isSome := by
  have sees : ((({ gameCode := "abcd" } : BracketController).snapshot four.created).bind fun c =>
      (Transition.run step { controller := c, contentOffset := fun _ => (0 : Int) }
        [.panEnded true, .snapshot fourWon.nextRound, .panEnded true, .scroll ⟨1⟩ 40, .height ⟨0⟩]).map
      fun p => (c.bracketViewArr.length, p.page, p.controller.bracketViewArr.length)) = some (1, 1, 2) := by
    decide
  obtain ⟨c, first, sees⟩ := Option.bind_eq_some_iff.mp sees
  obtain ⟨p, ran, sees⟩ := Option.map_eq_some_iff.mp sees
  simp only [Prod.mk.injEq] at sees
  obtain ⟨one, page, two⟩ := sees
  have created : c.bracketViewArr ≠ [] := List.ne_nil_of_length_pos (by omega)
  obtain ⟨-, -, heights, -⟩ := paging_in_range rfl first created ran
  exact ⟨c, p, first, ran, page, two, heights ⟨1⟩⟩

end Pager
end Tourni
