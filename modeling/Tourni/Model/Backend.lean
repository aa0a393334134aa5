import Mathlib.Tactic

/-!
# Rounds and match-ups

`bracket_backend.swift`. `powf(2, r)` is exact at every `r` that occurs, so the first number of match-ups
is `2 ^ r / 2`, and it fits an `Int` because the number of groups does.
-/

namespace Tourni

/-- The halving loop of `generate_rounds`; a size of `g` never needs more than `g` turns. -/
def roundsLoop : Nat → Int → Nat → Nat
  | 0, _, rounds => rounds
  | fuel + 1, size, rounds => if size > 1 then roundsLoop fuel (size / 2) (rounds + 1) else rounds

def generateRounds (g : Int) : Nat := if g ≤ 0 then 0 else roundsLoop g.toNat g 0

/-- The loop of `generate_matches` over `0..<r`. -/
def matchesLoop : Nat → Nat → List Nat
  | 0, _ => []
  | r + 1, numOfMatchUps => numOfMatchUps :: matchesLoop r (numOfMatchUps / 2)

def generateMatches (r : Nat) : List Nat := matchesLoop r (2 ^ r / 2)

/-- `Int(_:)` of a float: a value that does not fit 64 bits traps. -/
def intOfFloat (x : Nat) : Option Nat := if x < 2 ^ 63 then some x else none

/-- `generate_matches` with its one trap. -/
def generateMatches? (r : Nat) : Option (List Nat) := do
  let power ← intOfFloat (2 ^ r)
  some (matchesLoop r (power / 2))

/-! ### The halving loop -/

/-- A size is halved `log2` times, or as often as there is fuel for. -/
theorem roundsLoop_eq (fuel size rounds : Nat) :
    roundsLoop fuel size rounds = rounds + min fuel (Nat.log 2 size) := by
  induction fuel generalizing size rounds with
  | zero =>
    rw [roundsLoop]
    omega
  | succ fuel ih =>
    rw [roundsLoop]
    by_cases big : 1 < size
    · rw [if_pos (by exact_mod_cast big), show ((size : Int) / 2) = ((size / 2 : Nat) : Int) by norm_cast,
        ih, Nat.log_div_base]
      have positive : 0 < Nat.log 2 size := Nat.log_pos (by decide) big
      omega
    · rw [if_neg (by exact_mod_cast big), Nat.log_of_lt (by omega), Nat.min_zero, Nat.add_zero]

theorem generateRounds_log (g : Nat) : generateRounds g = Nat.log 2 g := by
  unfold generateRounds
  split
  · rw [show g = 0 by omega, Nat.log_zero_right]
  · have shorter : Nat.log 2 g ≤ g := Nat.log_le_self 2 g
    rw [Int.toNat_natCast, roundsLoop_eq, Nat.zero_add, Nat.min_eq_right shorter]

@[simp] theorem generateRounds_pow (r : Nat) : generateRounds ((2 ^ r : Nat) : Int) = r := by
  rw [generateRounds_log, Nat.log_pow (by decide)]

/-! ### The list of match-ups -/

theorem matchesLoop_length (r m : Nat) : (matchesLoop r m).length = r := by
  induction r generalizing m with
  | zero => rfl
  | succ r ih => rw [matchesLoop, List.length_cons, ih]

theorem matchesLoop_getElem? {r m i : Nat} (h : i < r) : (matchesLoop r m)[i]? = some (m / 2 ^ i) := by
  induction r generalizing m i with
  | zero => omega
  | succ r ih =>
    rw [matchesLoop]
    cases i with
    | zero => simp
    | succ i =>
      rw [List.getElem?_cons_succ, ih (by omega), Nat.div_div_eq_div_mul, ← Nat.pow_succ']

@[simp] theorem generateMatches_length (r : Nat) : (generateMatches r).length = r := matchesLoop_length _ _

theorem generateMatches_getElem? {r i : Nat} (h : i < r) :
    (generateMatches r)[i]? = some (2 ^ (r - 1 - i)) := by
  unfold generateMatches
  rw [matchesLoop_getElem? h]
  obtain ⟨s, rfl⟩ : ∃ s, r = s + 1 := ⟨r - 1, by omega⟩
  rw [Nat.pow_succ, Nat.mul_div_cancel _ (by decide), Nat.pow_div (by omega) (by decide)]
  rfl

/-- Half the winners of round `k` are the match-ups of round `k + 1`. -/
theorem half_pow_sub {r k : Nat} (h : k < r) : 2 ^ (r - k) / 2 = 2 ^ (r - 1 - k) := by
  rw [show r - k = r - 1 - k + 1 by omega, Nat.pow_succ, Nat.mul_div_cancel _ (by decide)]

theorem two_mul_pow_sub {r k : Nat} (h : k < r) : 2 * 2 ^ (r - (k + 1)) = 2 ^ (r - k) := by
  rw [← Nat.pow_succ']
  congr 1
  omega

theorem generateMatches_eq_map (r : Nat) :
    generateMatches r = (List.range r).map fun i => 2 ^ (r - 1 - i) := by
  apply List.ext_getElem?
  intro i
  by_cases h : i < r
  · rw [generateMatches_getElem? h, List.getElem?_map, List.getElem?_range h, Option.map_some]
  · rw [List.getElem?_eq_none (by simp; omega), List.getElem?_eq_none (by simp; omega)]

theorem generateMatches_succ (r : Nat) : generateMatches (r + 1) = 2 ^ r :: generateMatches r := by
  rw [generateMatches, Nat.pow_succ, Nat.mul_div_cancel _ (by decide), matchesLoop]
  rfl

theorem generateMatches_sum (r : Nat) : (generateMatches r).sum = 2 ^ r - 1 := by
  induction r with
  | zero => rfl
  | succ r ih =>
    have positive : 0 < 2 ^ r := Nat.pow_pos (by decide)
    rw [generateMatches_succ, List.sum_cons, ih, Nat.pow_succ]
    omega

theorem generateMatches?_eq {r : Nat} (fits : r < 63) : generateMatches? r = some (generateMatches r) := by
  have small : 2 ^ r < 2 ^ 63 := Nat.pow_lt_pow_right (by decide) fits
  unfold generateMatches?
  rw [intOfFloat, if_pos small]
  rfl

theorem mem_generateMatches {r m : Nat} : m ∈ generateMatches r ↔ ∃ i < r, m = 2 ^ (r - 1 - i) := by
  simp only [generateMatches_eq_map, List.mem_map, List.mem_range, eq_comm]

/-- Only the entry of round `k + 1` is half of the `2 ^ (r - k)` winners of round `k`. -/
theorem generateMatches_findIdx? {r k : Nat} (h : k < r) :
    (generateMatches r).findIdx? (fun m => 2 ^ (r - k) / 2 == m) = some k := by
  have half := half_pow_sub h
  rw [generateMatches_eq_map, List.findIdx?_eq_some_iff_getElem]
  refine ⟨by simpa using h, ?_, ?_⟩
  · simp [half]
  · intro j hj
    have apart : 2 ^ (r - 1 - k) < 2 ^ (r - 1 - j) := Nat.pow_lt_pow_right (by decide) (by omega)
    simp [half]
    omega

theorem generateMatches_findIdx?_single (r : Nat) :
    (generateMatches r).findIdx? (fun m => 1 / 2 == m) = none := by
  rw [List.findIdx?_eq_none_iff]
  intro m member
  obtain ⟨i, _, rfl⟩ := mem_generateMatches.mp member
  have : 0 < 2 ^ (r - 1 - i) := Nat.pow_pos (by decide)
  simp only [beq_eq_false_iff_ne]
  omega

end Tourni
