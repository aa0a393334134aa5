import Tourni.Bracket.Versions

/-!
# Finding the current round

`make_roundsHost` and the snapshot closure each look for half the number of current groups among the numbers
of match-ups. For a power of two both find the same round, and for a single group neither finds one.
-/

namespace Tourni

/-- What `generate_rounds` and `generate_matches` make of `g` groups; the loop of `generate_rounds` is left
after `r` turns. -/
structure Halves (g : Int) (r : Nat) : Prop where
  terminates : ∀ fuel ≥ r, roundsLoop fuel g 0 = r
  rounds : generateRounds g = r
  low : 2 ^ r ≤ g
  high : g < 2 ^ (r + 1)
  roundMatches : generateMatches? r = some ((List.range r).map fun i => 2 ^ (r - 1 - i))
  entries : (generateMatches r).length = r
  total : (generateMatches r).sum = 2 ^ r - 1

theorem halves_log {g : Nat} (positive : 0 < g) (fits : g < 2 ^ 63) : Halves g (Nat.log 2 g) := by
  have short : Nat.log 2 g < 63 := Nat.log_lt_of_lt_pow (by omega) fits
  refine ⟨?_, generateRounds_log g, ?_, ?_, ?_, generateMatches_length _, generateMatches_sum _⟩
  · intro fuel enough
    rw [roundsLoop_eq, Nat.zero_add, Nat.min_eq_right enough]
  · exact_mod_cast Nat.pow_log_le_self 2 (by omega)
  · exact_mod_cast Nat.lt_pow_succ_log_self (by decide) g
  · rw [generateMatches?_eq short, generateMatches_eq_map]

namespace BracketController

/-- The round after the lookup of the snapshot closure. -/
def lookupAgain (c : BracketController) : Nat :=
  match c.lookupRound with
  | some i => i + 1
  | none => c.currRound

theorem snapshot_lookupAgain (c : BracketController) (t : Tournament) :
    c.snapshot t = (c.receive t).makeRoundsHost.bind fun c =>
      if c.initialized then (List.range c.lookupAgain).foldlM showRound { c with currRound := c.lookupAgain }
      else some { c with initialized := true } := rfl

/-- Half the number of current groups is among the numbers of match-ups at index `k`, and nowhere else. -/
def FoundAt (c : BracketController) (k : Nat) : Prop :=
  ∀ i, c.roundMatches[i]? = some (c.currentGroups.length / 2) ↔ i = k

/-- Both lookups of a controller that was sent a tournament of `2 ^ r` groups. The first one sets the current
round before any table is created. -/
structure Lookups (c : BracketController) (r : Nat) : Prop where
  several : ∀ k < r, c.currentGroups.length = 2 ^ (r - k) → c.FoundAt k ∧ c.nextCurrRound = k + 1 ∧
    (∀ d, c.makeRoundsHost = some d → d.currRound = k + 1 ∧ d.lookupAgain = k + 1) ∧
    ∀ currRound, lookupAgain { c with currRound } = k + 1
  single : c.currentGroups.length = 1 →
    (∀ i : Nat, c.roundMatches[i]? ≠ some (c.currentGroups.length / 2)) ∧ c.nextCurrRound = r ∧
    (∀ d, c.makeRoundsHost = some d → d.currRound = r ∧ d.lookupAgain = r) ∧
    ∀ currRound, lookupAgain { c with currRound } = currRound

variable {c d : BracketController} {r k : Nat}

/-- The tables are created without touching what the lookups read. -/
theorem makeRounds_kept {is : List Nat} (h : is.foldlM makeRound c = some d) :
    d.currRound = c.currRound ∧ d.roundMatches = c.roundMatches ∧ d.currentGroups = c.currentGroups := by
  induction is generalizing c with
  | nil =>
    obtain rfl := Option.some.inj h
    exact ⟨rfl, rfl, rfl⟩
  | cons i is ih =>
    rw [List.foldlM_cons] at h
    obtain ⟨e, made, rest⟩ := Option.bind_eq_some_iff.mp h
    obtain ⟨rows, -, made⟩ := Option.bind_eq_some_iff.mp made
    obtain ⟨shown, -, made⟩ := Option.bind_eq_some_iff.mp made
    obtain rfl := Option.some.inj made
    have kept := ih rest
    exact kept

theorem makeRoundsHost_kept (h : c.makeRoundsHost = some d) :
    d.currRound = c.nextCurrRound ∧ d.roundMatches = c.roundMatches ∧ d.currentGroups = c.currentGroups := by
  unfold makeRoundsHost at h
  dsimp only at h
  split at h
  · exact makeRounds_kept h
  · obtain rfl := Option.some.inj h
    exact ⟨rfl, rfl, rfl⟩

theorem lookupRound_kept (h : c.makeRoundsHost = some d) : d.lookupRound = c.lookupRound := by
  obtain ⟨-, roundMatches, currentGroups⟩ := makeRoundsHost_kept h
  rw [lookupRound, lookupRound, roundMatches, currentGroups]

theorem foundAt_of_lt (roundMatches : c.roundMatches = generateMatches r) (below : k < r)
    (winners : c.currentGroups.length = 2 ^ (r - k)) : c.FoundAt k := by
  have half : c.currentGroups.length / 2 = 2 ^ (r - 1 - k) := by
    rw [winners, half_pow_sub below]
  intro i
  rw [roundMatches, half]
  constructor
  · intro here
    have inside : i < r := by simpa using (List.getElem?_eq_some_iff.mp here).1
    rw [generateMatches_getElem? inside] at here
    have same := Nat.pow_right_injective (Nat.le_refl 2) (Option.some.inj here)
    omega
  · rintro rfl
    exact generateMatches_getElem? below

theorem lookups_of_generated (roundMatches : c.roundMatches = generateMatches r) (rounds : c.rounds = r) :
    c.Lookups r := by
  constructor
  · intro k below winners
    have found : c.lookupRound = some k := by
      unfold lookupRound
      rw [roundMatches, winners, generateMatches_findIdx? below]
    have again : ∀ d : BracketController, d.lookupRound = some k → d.lookupAgain = k + 1 := by
      intro d same
      unfold lookupAgain
      rw [same]
    have current : c.nextCurrRound = k + 1 := by
      unfold nextCurrRound
      rw [found]
    refine ⟨foundAt_of_lt roundMatches below winners, current, ?_, fun currRound => again _ found⟩
    intro d made
    exact ⟨(makeRoundsHost_kept made).1.trans current, again d ((lookupRound_kept made).trans found)⟩
  · intro single
    have missed : c.lookupRound = none := by
      unfold lookupRound
      rw [roundMatches, single, generateMatches_findIdx?_single]
    have again : ∀ d : BracketController, d.lookupRound = none → d.lookupAgain = d.currRound := by
      intro d same
      unfold lookupAgain
      rw [same]
    have first : c.nextCurrRound = r := by
      unfold nextCurrRound
      rw [missed, ← rounds]
      simp [single]
    refine ⟨?_, first, ?_, fun currRound => again { c with currRound } missed⟩
    · intro i here
      rw [roundMatches, single] at here
      obtain ⟨j, -, zero⟩ := mem_generateMatches.mp (List.mem_of_getElem? here)
      have positive : 0 < 2 ^ (r - 1 - j) := Nat.pow_pos (by decide)
      omega
    · intro d made
      have current : d.currRound = r := (makeRoundsHost_kept made).1.trans first
      exact ⟨current, (again d ((lookupRound_kept made).trans missed)).trans current⟩

end BracketController

/-- The rounds of `g` groups, for every `g` that an `Int` can hold, and the current round that both lookups
find when `g` is a power of two. -/
theorem round_arithmetic (g : Int64) (positive : 1 ≤ g) :
    ∃ r, Halves g.toInt r ∧ ∀ (c : BracketController) (t : Tournament),
      (t.getNumGroups : Int) = g.toInt → g.toInt = 2 ^ r → (c.receive t).Lookups r := by
  have low : 1 ≤ g.toInt := Int64.le_iff_toInt_le.mp positive
  have high : g.toInt < 2 ^ 63 := g.toInt_lt
  obtain ⟨n, same⟩ : ∃ n : Nat, g.toInt = n := ⟨g.toInt.toNat, by omega⟩
  rw [same] at low high ⊢
  refine ⟨Nat.log 2 n, halves_log (by omega) (by exact_mod_cast high), ?_⟩
  intro c t groups power
  have rounds : generateRounds t.getNumGroups = Nat.log 2 n := by rw [groups, generateRounds_log]
  apply BracketController.lookups_of_generated
  · show generateMatches (generateRounds t.getNumGroups) = _
    rw [rounds]
  · exact rounds

/-- Eight groups, two of which are left. -/
theorem round_arithmetic_eight :
    let t : Tournament := { groups := List.replicate 8 {}, winners := List.replicate 2 {} }
    Halves 8 3 ∧ (({} : BracketController).receive t).Lookups 3 ∧
      (({} : BracketController).receive t).currentGroups.length = 2 ^ (3 - 2) := by
  obtain ⟨r, halves, lookups⟩ := round_arithmetic 8 (by decide)
  have three : r = 3 := by
    rw [← halves.rounds]
    decide
  subst three
  exact ⟨halves, lookups _ _ rfl rfl, rfl⟩

end Tourni
