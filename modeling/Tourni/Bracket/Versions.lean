import Tourni.Bracket.Loading

/-!
# Versions of a tournament

A tournament of `2 ^ R` groups is stored `R + 1` times, once after each number `k` of rounds. A controller
that has loaded the version after `k` rounds shows `k + 1` tables, and `R` of them once the final is decided.
-/

namespace Tourni

structure Sized (R k : Nat) (v : Tournament) : Prop where
  positive : 0 < R
  done : k ≤ R
  groups : v.groups.length = 2 ^ R
  winners : v.winners.length = 2 ^ (R - k)
  lists : k < v.roundList.length

def shownRounds (R k : Nat) : Nat := min (k + 1) R

theorem shownRounds_of_lt {R k : Nat} (h : k < R) : shownRounds R k = k + 1 := Nat.min_eq_left h

theorem shownRounds_self (R : Nat) : shownRounds R R = R := Nat.min_eq_right (Nat.le_succ R)

namespace BracketController

/-- The tables of a controller that has loaded the version after `k` rounds. -/
structure Placed (c : BracketController) (R k : Nat) : Prop where
  initialized : c.initialized = true
  arr : c.bracketViewArr = tables (shownRounds R k)
  rows : ∀ i < shownRounds R k, c.numberOfRows ⟨i⟩ = some (2 ^ (R - 1 - i))

/-- What a controller has made of the version `v` after `k` rounds. -/
structure Loaded (c : BracketController) (R k : Nat) (v : Tournament) : Prop extends Placed c R k where
  tournament : c.tournament = v
  roundMatches : c.roundMatches = generateMatches R
  currRound : c.currRound = shownRounds R k
  currentGroups : c.currentGroups = v.winners
  shown : ∀ i < shownRounds R k, c.bracketViewGroupDict ⟨i⟩ = v.roundList[i]?

/-- The fields that a snapshot leaves alone. -/
def Kept (c d : BracketController) : Prop :=
  d.gameCode = c.gameCode ∧ d.host = c.host ∧ d.winnerSelectedCount = c.winnerSelectedCount

theorem afterSnapshot_kept (c : BracketController) (t : Tournament) (m : Nat) :
    c.Kept (c.afterSnapshot t m) := ⟨rfl, rfl, rfl⟩

variable {c d : BracketController} {R k m : Nat} {v : Tournament}

/-! ### The current round of a version -/

theorem receive_roundMatches (sized : Sized R k v) (c : BracketController) :
    (c.receive v).roundMatches = generateMatches R := by
  have rounds : generateRounds v.getNumGroups = R := by
    unfold Tournament.getNumGroups
    rw [sized.groups, generateRounds_pow]
  show generateMatches (generateRounds v.getNumGroups) = _
  rw [rounds]

theorem receive_rounds (sized : Sized R k v) (c : BracketController) : (c.receive v).rounds = R := by
  show generateRounds v.getNumGroups = R
  unfold Tournament.getNumGroups
  rw [sized.groups, generateRounds_pow]

theorem lookupRound_of_lt (sized : Sized R k v) (c : BracketController) (h : k < R) :
    (c.receive v).lookupRound = some k := by
  unfold lookupRound
  rw [receive_roundMatches sized]
  show (generateMatches R).findIdx? (fun m => v.winners.length / 2 == m) = some k
  rw [sized.winners, generateMatches_findIdx? h]

theorem lookupRound_of_single (c : BracketController) (single : v.winners.length = 1) :
    (c.receive v).lookupRound = none := by
  show (generateMatches _).findIdx? (fun m => v.winners.length / 2 == m) = none
  rw [single, generateMatches_findIdx?_single]

theorem nextCurrRound_receive (sized : Sized R k v) (c : BracketController) :
    (c.receive v).nextCurrRound = shownRounds R k := by
  have done := sized.done
  unfold nextCurrRound shownRounds
  by_cases h : k < R
  · rw [lookupRound_of_lt sized c h]
    dsimp only
    omega
  · have single : v.winners.length = 1 := by
      rw [sized.winners, show R - k = 0 by omega, Nat.pow_zero]
    have current : (c.receive v).currentGroups.length = 1 := single
    rw [lookupRound_of_single c single]
    simp only [current, beq_self_eq_true, if_true, receive_rounds sized]
    omega

theorem startBracketAt_receive (sized : Sized R k v) (c : BracketController) :
    (c.receive v).startBracketAt = if c.initialized then shownRounds R k - 1 else 0 := by
  have kept : (c.receive v).initialized = c.initialized := rfl
  unfold startBracketAt
  rw [nextCurrRound_receive sized, kept]

theorem built_fresh (sized : Sized R k v) (fresh : c.initialized = false) :
    (c.receive v).built = shownRounds R k := by
  have kept : (c.receive v).initialized = false := fresh
  have builds : ((c.receive v).currentGroups.length == 1 || (c.receive v).lookupRound.isSome) = true := by
    by_cases h : k < R
    · simp [lookupRound_of_lt sized c h]
    · have done := sized.done
      have single : (c.receive v).currentGroups.length = 1 := by
        show v.winners.length = 1
        rw [sized.winners, show R - k = 0 by omega, Nat.pow_zero]
      simp [single]
  unfold built
  rw [startBracketAt_receive sized, nextCurrRound_receive sized, builds, kept, fresh]
  rfl

theorem built_running (sized : Sized R k v) (running : c.initialized = true) (h : k < R) :
    (c.receive v).built = 1 := by
  have kept : (c.receive v).initialized = true := running
  have several : ((c.receive v).currentGroups.length == 1) = false := by
    have power : v.winners.length = 2 ^ (R - k) := sized.winners
    have big : 1 < 2 ^ (R - k) := Nat.one_lt_two_pow (by omega)
    show (v.winners.length == 1) = false
    rw [beq_eq_false_iff_ne]
    omega
  unfold built
  rw [startBracketAt_receive sized, nextCurrRound_receive sized, lookupRound_of_lt sized c h, several,
    kept, running]
  simp [shownRounds]
  omega

theorem built_finished (sized : Sized R R v) (running : c.initialized = true) :
    (c.receive v).built = 0 := by
  have kept : (c.receive v).initialized = true := running
  have single : (c.receive v).currentGroups.length = 1 := by
    show v.winners.length = 1
    rw [sized.winners, Nat.sub_self, Nat.pow_zero]
  unfold built
  rw [single, kept]
  rfl

theorem shownRounds_le (sized : Sized R k v) : shownRounds R k ≤ R ∧ shownRounds R k ≤ v.roundList.length := by
  have := sized.lists
  unfold shownRounds
  omega

theorem getElem?_receive_roundMatches (sized : Sized R k v) (c : BracketController) {i : Nat} (h : i < R) :
    (c.receive v).roundMatches[i]? = some (2 ^ (R - 1 - i)) := by
  rw [receive_roundMatches sized, generateMatches_getElem? h]

theorem afterSnapshot_currRound (sized : Sized R k v) (c : BracketController) (m : Nat) :
    (c.afterSnapshot v m).currRound = shownRounds R k := nextCurrRound_receive sized c

/-! ### Snapshots of versions -/

theorem snapshot_fresh (sized : Sized R k v) (fresh : c.initialized = false)
    (empty : c.bracketViewArr = []) : ∃ d, c.snapshot v = some d ∧ d.Loaded R k v ∧ c.Kept d := by
  have arr : c.bracketViewArr = Tourni.tables 0 := empty
  have built := built_fresh sized fresh
  have start : (c.receive v).startBracketAt = 0 := by rw [startBracketAt_receive sized, fresh]; rfl
  obtain ⟨leR, leLists⟩ := shownRounds_le sized
  have loadable : c.Loadable v 0 := by
    refine ⟨?_, fun running => by rw [fresh] at running; cases running⟩
    intro j below
    rw [built] at below
    rw [start, receive_roundMatches sized, generateMatches_length]
    show 0 + j < R ∧ 0 + j < v.roundList.length
    omega
  refine ⟨c.afterSnapshot v 0, by rw [snapshot_eq arr, if_pos loadable], ?_, afterSnapshot_kept c v 0⟩
  refine ⟨⟨rfl, ?_, ?_⟩, rfl, receive_roundMatches sized c, afterSnapshot_currRound sized c 0, rfl, ?_⟩
  · show tables (0 + (c.receive v).built) = _
    rw [built, Nat.zero_add]
  · intro i below
    show fill _ 0 (c.receive v).built (c.receive v).roundMatches (c.receive v).startBracketAt ⟨i⟩ = _
    rw [fill_of_lt (Nat.zero_le i) (by omega), start, Nat.sub_zero, Nat.zero_add,
      getElem?_receive_roundMatches sized c (by omega)]
  · intro i below
    have unfolded : (c.afterSnapshot v 0).bracketViewGroupDict =
        fill c.bracketViewGroupDict 0 (c.receive v).built v.roundList (c.receive v).startBracketAt := by
      simp only [afterSnapshot, fresh, Bool.false_eq_true, if_false]
      rfl
    rw [unfolded, fill_of_lt (Nat.zero_le i) (by omega), start, Nat.sub_zero, Nat.zero_add]

theorem shown_running {i : Nat} (sized : Sized R k v) (running : c.initialized = true)
    (below : i < shownRounds R k) : (c.afterSnapshot v m).bracketViewGroupDict ⟨i⟩ = v.roundList[i]? := by
  have current : ((c.receive v).afterBuild m).currRound = shownRounds R k := nextCurrRound_receive sized c
  simp only [afterSnapshot, running, if_true, current]
  rw [fill_of_lt (Nat.zero_le i) (by omega), Nat.sub_zero, Nat.zero_add]

theorem snapshot_finished (sized : Sized R R v) (placed : c.Placed R R) :
    ∃ d, c.snapshot v = some d ∧ d.Loaded R R v ∧ c.Kept d := by
  obtain ⟨running, arr, rows⟩ := placed
  obtain ⟨leR, leLists⟩ := shownRounds_le sized
  have all : shownRounds R R = R := shownRounds_self R
  have built := built_finished sized running
  have loadable : c.Loadable v (shownRounds R R) := by
    refine ⟨?_, fun _ => ?_⟩
    · intro j below
      rw [built] at below
      omega
    · rw [nextCurrRound_receive sized, built]
      omega
  refine ⟨c.afterSnapshot v _, by rw [snapshot_eq arr, if_pos loadable], ?_, afterSnapshot_kept ..⟩
  refine ⟨⟨rfl, ?_, ?_⟩, rfl, receive_roundMatches sized c, afterSnapshot_currRound sized c _, rfl,
    fun i below => shown_running sized running below⟩
  · show tables (shownRounds R R + (c.receive v).built) = _
    rw [built, Nat.add_zero]
  · intro i below
    show fill c.bracketViewDict _ (c.receive v).built (c.receive v).roundMatches
      (c.receive v).startBracketAt ⟨i⟩ = _
    rw [built, fill_zero]
    exact rows i below

/-- The next version adds the table of its round. -/
theorem snapshot_next (sized : Sized R (k + 1) v) (placed : c.Placed R k) :
    ∃ d, c.snapshot v = some d ∧ d.Loaded R (k + 1) v ∧ c.Kept d := by
  obtain ⟨running, arr, rows⟩ := placed
  obtain ⟨leR, leLists⟩ := shownRounds_le sized
  have done := sized.done
  have before : shownRounds R k = k + 1 := shownRounds_of_lt done
  rw [before] at arr rows
  have next := nextCurrRound_receive sized c
  by_cases h : k + 1 < R
  · have after : shownRounds R (k + 1) = k + 2 := shownRounds_of_lt h
    have built := built_running sized running h
    have start : (c.receive v).startBracketAt = k + 1 := by
      rw [startBracketAt_receive sized, running, after]
      rfl
    have loadable : c.Loadable v (k + 1) := by
      refine ⟨?_, fun _ => ?_⟩
      · intro j below
        rw [built] at below
        rw [start, receive_roundMatches sized, generateMatches_length]
        show k + 1 + j < R ∧ k + 1 + j < v.roundList.length
        omega
      · rw [next, built, after]
        omega
    refine ⟨c.afterSnapshot v (k + 1), by rw [snapshot_eq arr, if_pos loadable], ?_, afterSnapshot_kept ..⟩
    refine ⟨⟨rfl, ?_, ?_⟩, rfl, receive_roundMatches sized c, afterSnapshot_currRound sized c _, rfl,
      fun i below => shown_running sized running below⟩
    · show tables (k + 1 + (c.receive v).built) = _
      rw [built, after]
    · intro i below
      show fill c.bracketViewDict (k + 1) (c.receive v).built (c.receive v).roundMatches
        (c.receive v).startBracketAt ⟨i⟩ = _
      by_cases old : i < k + 1
      · rw [fill_of_low old]
        exact rows i old
      · rw [fill_of_lt (by omega) (by omega), start, show k + 1 + (i - (k + 1)) = i by omega,
          getElem?_receive_roundMatches sized c (by omega)]
  · have last : R = k + 1 := by omega
    have same : shownRounds R (k + 1) = shownRounds R k := by rw [before, ← last, shownRounds_self]
    rw [← last] at sized same ⊢
    exact snapshot_finished sized ⟨running, by rw [arr, same, before], by rw [same, before]; exact rows⟩

/-- Skipping a version traps: the snapshot adds one table and then indexes the table of a later round. -/
theorem snapshot_skip (sized : Sized R k v) (placed : c.Placed R m) (skipped : m + 1 < k) :
    c.snapshot v = none := by
  obtain ⟨running, arr, -⟩ := placed
  have done := sized.done
  have before : shownRounds R m = m + 1 := shownRounds_of_lt (by omega)
  have atMostOne : (c.receive v).built ≤ 1 := by
    by_cases h : k < R
    · rw [built_running sized running h]
    · obtain rfl : k = R := by omega
      rw [built_finished sized running]
      omega
  have far : m + 2 < shownRounds R k ∨ (shownRounds R k = m + 2 ∧ (c.receive v).built = 0) := by
    by_cases h : k < R
    · rw [shownRounds_of_lt h]
      left
      omega
    · obtain rfl : k = R := by omega
      have built := built_finished sized running
      rw [shownRounds_self]
      omega
  rw [snapshot_eq arr, if_neg]
  rintro ⟨-, enough⟩
  have short := (enough running).1
  rw [nextCurrRound_receive sized, before] at short
  omega

end BracketController
end Tourni
