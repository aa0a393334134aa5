import Mathlib.Tactic
import Tourni.Model.Group

/-!
# Tournaments

`Tournament.swift`, without the phone and the database. The optional lists of the source are created
non-nil and never set to nil, so they are plain lists here.
-/

namespace Tourni

structure Tournament where
  title : Option String := none
  description : Option String := none
  groups : List Group := []
  gameCode : Option String := none
  winners : List Group := []
  losers : List Group := []
  roundList : List (List Group) := []
  deriving DecidableEq, Repr, Inhabited

def isPowerOf2 (x : Nat) : Bool := decide (x ≠ 0) && (x &&& (x - 1)) == 0

theorem isPowerOf2_iff {x : Nat} : isPowerOf2 x = true ↔ ∃ k, x = 2 ^ k := by
  unfold isPowerOf2
  rw [Bool.and_eq_true, decide_eq_true_iff, beq_iff_eq]
  exact Nat.ne_zero_and_sub_one_eq_zero_iff_isPowerOfTwo

def letters : List Char := "abcdefghijklmnopqrstuvwxyz0123456789".toList

/-- `genCode(length:)`, with the outcome of each `randomElement` given by `draw`. -/
def genCode (length : Nat) (draw : Nat → Fin 36) : String :=
  String.ofList ((List.range length).map fun i => letters.getD (draw i) 'a')

namespace Tournament

def getNumGroups (t : Tournament) : Nat := t.groups.length

def addGroup (t : Tournament) (group : Group) : Tournament := { t with groups := t.groups ++ [group] }

def setTitle (t : Tournament) (title : String) : Tournament := { t with title := some title }

def setDescription (t : Tournament) (description : String) : Tournament :=
  { t with description := some description }

/-- Removes group from winners and places into losers. -/
def makeLoser (t : Tournament) (group : Group) : Tournament :=
  { t with
    winners := t.winners.filter (· != group)
    losers := if t.losers.any (· == group) then t.losers else t.losers ++ [group] }

/-- Removes group from losers and places into winners. -/
def makeWinner (t : Tournament) (group : Group) : Tournament :=
  { t with
    losers := t.losers.filter (· != group)
    winners := if t.winners.any (· == group) then t.winners else t.winners ++ [group] }

/-- The loop of `generate`: free groups are added until the count is a power of two. `n` groups never
need as many as `n` of them. -/
def addFree (nextSeed : Int) : Nat → Tournament → Tournament
  | 0, t => t
  | fuel + 1, t =>
    if isPowerOf2 t.groups.length then t else addFree nextSeed fuel (t.addGroup (.free nextSeed))

/-- `generate`, given the code drawn by `genCode`; it traps on a tournament without groups. The phone's
list of hosted codes and the write to the database are in `Tourni.Database.Devices`. -/
def generate (t : Tournament) (gameCode : String) : Option Tournament := do
  let last ← t.groups.getLast?
  let seed ← last.getSeed
  let t := addFree (seed + 1) t.groups.length { t with gameCode := some gameCode }
  some { t with winners := t.groups, roundList := t.roundList ++ [t.groups] }

/-! ### Padding -/

theorem addFree_eq (nextSeed : Int) (fuel : Nat) (t : Tournament) (nonempty : 0 < t.groups.length)
    (enough : 2 ^ Nat.clog 2 t.groups.length ≤ t.groups.length + fuel) :
    addFree nextSeed fuel t = { t with
      groups := t.groups ++
        List.replicate (2 ^ Nat.clog 2 t.groups.length - t.groups.length) (Group.free nextSeed) } := by
  induction fuel generalizing t with
  | zero =>
    have reached : t.groups.length ≤ 2 ^ Nat.clog 2 t.groups.length := Nat.le_pow_clog (by decide) _
    rw [show 2 ^ Nat.clog 2 t.groups.length - t.groups.length = 0 by omega]
    simp [addFree]
  | succ fuel ih =>
    rw [addFree]
    by_cases power : isPowerOf2 t.groups.length
    · obtain ⟨k, same⟩ := isPowerOf2_iff.mp power
      rw [if_pos power, same, Nat.clog_pow _ _ (by decide), Nat.sub_self]
      simp
    · have below : t.groups.length < 2 ^ Nat.clog 2 t.groups.length :=
        Nat.lt_of_le_of_ne (Nat.le_pow_clog (by decide) _) fun same => power (isPowerOf2_iff.mpr ⟨_, same⟩)
      have next : Nat.clog 2 (t.groups.length + 1) = Nat.clog 2 t.groups.length :=
        le_antisymm (Nat.clog_le_of_le_pow below) (Nat.clog_mono_right 2 (Nat.le_succ _))
      have grown : (t.addGroup (.free nextSeed)).groups.length = t.groups.length + 1 := by
        simp [addGroup]
      rw [if_neg power, ih _ (by omega) (by rw [grown, next]; omega), grown, next,
        show 2 ^ Nat.clog 2 t.groups.length - t.groups.length =
          2 ^ Nat.clog 2 t.groups.length - (t.groups.length + 1) + 1 by omega, List.replicate_succ]
      simp [addGroup]

theorem pow_clog_lt_two_mul {n : Nat} (h : 2 ≤ n) : 2 ^ Nat.clog 2 n < 2 * n := by
  have short : 2 ^ (Nat.clog 2 n - 1) < n := Nat.pow_pred_clog_lt_self (by decide) (by omega)
  have positive : 0 < Nat.clog 2 n := Nat.clog_pos (by decide) h
  have double : 2 ^ Nat.clog 2 n = 2 ^ (Nat.clog 2 n - 1) * 2 := by
    rw [← Nat.pow_succ]
    congr 1
    omega
  omega

end Tournament
end Tourni
