import Mathlib.Tactic

/-!
# Mirrored pairing

The seats `0, ..., n - 1` are paired from the outside in: row `r` pairs seat `r` with seat `n - 1 - r`.
-/

namespace Mirror

inductive Side where
  | first | second
  deriving DecidableEq, Repr, Inhabited

def Side.other : Side → Side
  | .first => .second
  | .second => .first

@[simp] theorem Side.other_other (s : Side) : s.other.other = s := by cases s <;> rfl

theorem Side.other_ne (s : Side) : s.other ≠ s := by cases s <;> decide

theorem Side.eq_other_iff {s t : Side} : s = t.other ↔ s ≠ t := by cases s <;> cases t <;> decide

def seat (n r : Nat) : Side → Nat
  | .first => r
  | .second => n - 1 - r

def row (n i : Nat) : Nat := min i (n - 1 - i)

def side (n i : Nat) : Side := if i < n / 2 then .first else .second

variable {n r i j : Nat}

theorem seat_lt (h : r < n / 2) (s : Side) : seat n r s < n := by
  cases s <;> simp only [seat] <;> omega

@[simp] theorem row_seat (h : r < n / 2) (s : Side) : row n (seat n r s) = r := by
  cases s <;> simp only [seat, row] <;> omega

@[simp] theorem side_seat (h : r < n / 2) (s : Side) : side n (seat n r s) = s := by
  cases s with
  | first => exact if_pos h
  | second => exact if_neg (by simp only [seat]; omega)

theorem seat_row_side (bound : i < n) (h : row n i < n / 2) : seat n (row n i) (side n i) = i := by
  unfold side row at *
  split <;> simp only [seat] <;> omega

theorem row_lt_of_even (bound : i < n) (even : 2 ∣ n) : row n i < n / 2 := by
  unfold row
  omega

theorem seat_eq_iff (h : r < n / 2) (bound : i < n) (s : Side) :
    i = seat n r s ↔ row n i = r ∧ side n i = s := by
  constructor
  · rintro rfl
    exact ⟨row_seat h s, side_seat h s⟩
  · rintro ⟨rfl, rfl⟩
    exact (seat_row_side bound h).symm

theorem seat_ne_seat_other (h : r < n / 2) (s : Side) : seat n r s ≠ seat n r s.other := by
  cases s <;> simp only [seat, Side.other] <;> omega

end Mirror
