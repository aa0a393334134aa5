import Mathlib.Data.List.NodupEquivFin
import Tourni.Lib.Mirror

/-!
# Elimination by mirrored pairing

A round pairs a list from the outside in and leaves one element of each pair. An elimination is a list of lists,
each made by a round from the one before it.
-/

namespace Elimination
open Mirror

variable {α β : Type*} {xs ys zs : List α} {ls : List (List α)} {a b x : α} {i j r : Nat}

/-- `a` and `b` are the two elements of a row. -/
def Opposite (xs : List α) (a b : α) : Prop :=
  ∃ r < xs.length / 2, ∃ s, xs[seat xs.length r s]? = some a ∧ xs[seat xs.length r s.other]? = some b

/-- `ys` has the element on one side of each row of `xs`, in any order. -/
def Round (xs ys : List α) : Prop :=
  ∃ won : Nat → Side, (ys.map some).Perm
    ((List.range (xs.length / 2)).map fun r => xs[seat xs.length r (won r)]?)

/-! ### One round -/

namespace Round

theorem length (round : Round xs ys) : ys.length = xs.length / 2 := by
  obtain ⟨won, perm⟩ := round
  simpa using perm.length_eq

theorem mem_iff {won : Nat → Side} (perm : (ys.map some).Perm
      ((List.range (xs.length / 2)).map fun r => xs[seat xs.length r (won r)]?)) :
    a ∈ ys ↔ ∃ r < xs.length / 2, xs[seat xs.length r (won r)]? = some a := by
  have member := perm.mem_iff (a := some a)
  simpa using member

theorem subset (round : Round xs ys) : ys ⊆ xs := by
  obtain ⟨won, perm⟩ := round
  intro a member
  obtain ⟨r, -, here⟩ := (mem_iff perm).mp member
  exact List.mem_of_getElem? here

/-- Two seats of a list without repetition have different elements. -/
theorem seat_inj (distinct : xs.Nodup) {s t : Side} {q : Nat} (hr : r < xs.length / 2) (hq : q < xs.length / 2)
    (same : xs[seat xs.length r s]? = xs[seat xs.length q t]?) : r = q ∧ s = t := by
  have seats := (List.getElem?_inj (seat_lt hr s) distinct).mp same
  have rows := congrArg (Mirror.row xs.length) seats
  have sides := congrArg (Mirror.side xs.length) seats
  rw [row_seat hr, row_seat hq] at rows
  rw [side_seat hr, side_seat hq] at sides
  exact ⟨rows, sides⟩

theorem nodup (round : Round xs ys) (distinct : xs.Nodup) : ys.Nodup := by
  obtain ⟨won, perm⟩ := round
  apply List.Nodup.of_map some
  rw [perm.nodup_iff]
  refine List.Nodup.map_on ?_ List.nodup_range
  intro r hr q hq same
  exact (seat_inj distinct (List.mem_range.mp hr) (List.mem_range.mp hq) same).1

/-- Of the two elements of a row, exactly one is left. -/
theorem decided (round : Round xs ys) (distinct : xs.Nodup) (opposite : Opposite xs a b) :
    a ∈ ys ↔ b ∉ ys := by
  obtain ⟨won, perm⟩ := round
  obtain ⟨r, inside, s, first, second⟩ := opposite
  have left : ∀ {t x}, xs[seat xs.length r t]? = some x → (x ∈ ys ↔ won r = t) := by
    intro t x here
    rw [mem_iff perm]
    constructor
    · rintro ⟨q, bound, there⟩
      obtain ⟨rfl, same⟩ := seat_inj distinct bound inside (there.trans here.symm)
      exact same
    · rintro rfl
      exact ⟨r, inside, here⟩
  rw [left first, left second]
  cases won r <;> cases s <;> decide

theorem map (round : Round xs ys) (f : α → β) : Round (xs.map f) (ys.map f) := by
  obtain ⟨won, perm⟩ := round
  refine ⟨won, ?_⟩
  have mapped := perm.map (Option.map f)
  simpa [List.map_map, Function.comp_def] using mapped

end Round

/-! ### All rounds -/

theorem isChain_getElem? (chain : ls.IsChain Round) (here : ls[i]? = some xs) (after : ls[i + 1]? = some ys) :
    Round xs ys := by
  obtain ⟨bound, rfl⟩ := List.getElem?_eq_some_iff.mp here
  obtain ⟨next, rfl⟩ := List.getElem?_eq_some_iff.mp after
  exact List.isChain_iff_getElem.mp chain i next

theorem nodup_of_isChain (chain : ls.IsChain Round) (distinct : ∀ xs, ls[0]? = some xs → xs.Nodup)
    (here : ls[i]? = some xs) : xs.Nodup := by
  induction i generalizing xs with
  | zero => exact distinct xs here
  | succ i ih =>
    obtain ⟨bound, -⟩ := List.getElem?_eq_some_iff.mp here
    have before : ls[i]? = some ls[i] := List.getElem?_eq_getElem (by omega)
    exact (isChain_getElem? chain before here).nodup (ih before)

/-- Who is in a later list is in every earlier one. -/
theorem mem_of_le (chain : ls.IsChain Round) (le : i ≤ j) (earlier : ls[i]? = some xs) (later : ls[j]? = some ys)
    (member : x ∈ ys) : x ∈ xs := by
  induction j, le using Nat.le_induction generalizing ys with
  | base =>
    obtain rfl := Option.some.inj (earlier.symm.trans later)
    exact member
  | succ j le ih =>
    obtain ⟨bound, -⟩ := List.getElem?_eq_some_iff.mp later
    have before : ls[j]? = some ls[j] := List.getElem?_eq_getElem (by omega)
    exact ih before ((isChain_getElem? chain before later).subset member)

/-- Who is in the first list but not in list `j` is in a last one before it. -/
theorem exists_last (first : ls[0]? = some xs) (member : x ∈ xs) (later : ls[j]? = some ys) (gone : x ∉ ys) :
    ∃ i < j, ∃ us vs, ls[i]? = some us ∧ ls[i + 1]? = some vs ∧ x ∈ us ∧ x ∉ vs := by
  induction j generalizing ys with
  | zero =>
    obtain rfl := Option.some.inj (first.symm.trans later)
    exact absurd member gone
  | succ j ih =>
    obtain ⟨bound, -⟩ := List.getElem?_eq_some_iff.mp later
    have before : ls[j]? = some ls[j] := List.getElem?_eq_getElem (by omega)
    by_cases still : x ∈ ls[j]
    · exact ⟨j, Nat.lt_succ_self j, _, _, before, later, still, gone⟩
    · obtain ⟨i, less, rest⟩ := ih before still
      exact ⟨i, by omega, rest⟩

/-! ### Rounds that keep the order -/

/-- An element stands no earlier in a list than in one it is taken from in order. -/
theorem mem_take_of_sublist (sublist : ys.Sublist xs) (distinct : xs.Nodup) (here : ys[i]? = some a) {n : Nat}
    (early : a ∈ xs.take n) : i < n := by
  obtain ⟨f, places⟩ := List.sublist_iff_exists_orderEmbedding_getElem?_eq.mp sublist
  obtain ⟨k, bound, there⟩ := List.getElem_of_mem early
  rw [List.length_take] at bound
  rw [List.getElem_take] at there
  have same : xs[f i]? = xs[k]? := by
    rw [← places, here, ← there]
    exact (List.getElem?_eq_getElem (by omega)).symm
  have inBound : f i < xs.length := by
    rw [places] at here
    exact (List.getElem?_eq_some_iff.mp here).1
  have equal : f i = k := (List.getElem?_inj inBound distinct).mp same
  have le : i ≤ f i := f.strictMono.le_apply
  omega

/-- The first `n` elements do not meet while there are `2 * n` or more. -/
theorem protected_of_sublist (sublist : ys.Sublist xs) (distinct : xs.Nodup) {n : Nat}
    (many : 2 * n ≤ ys.length) (opposite : Opposite ys a b) (first : a ∈ xs.take n) : b ∉ xs.take n := by
  obtain ⟨r, inside, s, here, there⟩ := opposite
  intro second
  have left := mem_take_of_sublist sublist distinct here first
  have right := mem_take_of_sublist sublist distinct there second
  cases s <;> simp only [seat, Side.other] at left right <;> omega

end Elimination
