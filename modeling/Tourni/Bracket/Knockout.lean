import Tourni.Bracket.Sources
import Tourni.Bracket.Versions

/-!
# The knockout

The tournament after `k` decided rounds: its round lists halve in size, and the last of them is the list of
winners, seeded so that the next round can be played.
-/

namespace Tourni
open Mirror

/-- Seat `i` is taken by an added bye: no entrant has this seed. -/
def Registration.added (reg : Registration) (L : List Group) (i : Nat) : Prop :=
  (L.getD i {}).seed = some (reg.names.length + 1 : Int)

instance (reg : Registration) (L : List Group) : DecidablePred (reg.added L) := fun i =>
  inferInstanceAs (Decidable ((L.getD i {}).seed = some (reg.names.length + 1 : Int)))

/-- No entrant is called like an added bye. -/
def Registration.Clear (reg : Registration) : Prop :=
  "FREE" ∉ reg.names ∨ reg.names.length = 2 ^ reg.rounds

/-- Each row of the list `L` has a marked winner and a loser, and the list `M` has the winner but not the
loser. -/
def Advances (L M : List Group) : Prop :=
  ∀ r < L.length / 2, ∃ s,
    statusAt L (seat L.length r s) = true ∧ nameAt L (seat L.length r s) ∈ M.map Group.name ∧
    statusAt L (seat L.length r s.other) = false ∧ nameAt L (seat L.length r s.other) ∉ M.map Group.name

/-- A tournament with `k` decided rounds behind it. -/
structure Version (reg : Registration) (k : Nat) (v : Tournament) : Prop where
  sourced : Sourced reg v
  done : k ≤ reg.rounds
  lists : v.roundList.length = k + 1
  sizes : ∀ i ≤ k, ∃ L, v.roundList[i]? = some L ∧ L.length = 2 ^ (reg.rounds - i)
  first : (v.roundList[0]?).map (·.map Group.entry) = some (reg.padded.map Group.entry)
  current : v.roundList[k]? = some v.winners
  advances : ∀ i L M, v.roundList[i]? = some L → v.roundList[i + 1]? = some M → Advances L M
  seeding : Seeding v.winners (reg.added v.winners)
  losersDistinct : (v.losers.map Group.name).Nodup
  losersNew : ∀ x ∈ v.losers.map Group.name, x ∉ v.winners.map Group.name

variable {reg : Registration} {k : Nat} {v : Tournament} {ps : List Pick}

/-! ### The first version -/

theorem added_padded {i : Nat} (bound : i < 2 ^ reg.rounds) :
    reg.added reg.padded i ↔ reg.names.length ≤ i := by
  unfold Registration.added
  rw [List.getD_eq_getElem?_getD]
  by_cases entered : i < reg.names.length
  · rw [Registration.padded_entered entered, Option.getD_some]
    simp only [Option.some.injEq]
    omega
  · rw [Registration.padded_free (Nat.le_of_not_lt entered) bound, Option.getD_some]
    simp only [Group.free, true_iff]
    omega

theorem nameAt_padded {i : Nat} (h : i < reg.names.length) : nameAt reg.padded i = some reg.names[i] :=
  nameAt_of_getElem? (Registration.padded_entered h)

theorem nameAt_padded_free {i : Nat} (h : reg.names.length ≤ i) (bound : i < 2 ^ reg.rounds) :
    nameAt reg.padded i = some "FREE" :=
  nameAt_of_getElem? (Registration.padded_free h bound)

theorem padded_seeding (clear : reg.Clear) : Seeding reg.padded (reg.added reg.padded) := by
  have size := reg.padded_length
  have apart : ∀ i j, i < reg.names.length → reg.names.length ≤ j → j < 2 ^ reg.rounds →
      nameAt reg.padded i ≠ nameAt reg.padded j := by
    intro i j entered free bound same
    rw [nameAt_padded entered, nameAt_padded_free free bound] at same
    rcases clear with absent | full
    · exact absent (Option.some.inj same ▸ List.getElem_mem entered)
    · omega
  refine ⟨?_, ?_, ?_⟩
  · intro i bound isBye
    rw [size] at bound
    exact nameAt_padded_free ((added_padded bound).mp isBye) bound
  · intro i hi j hj same
    rw [size] at hi hj
    rcases Nat.lt_or_ge i reg.names.length with left | left <;>
      rcases Nat.lt_or_ge j reg.names.length with right | right
    · rw [nameAt_padded left, nameAt_padded right] at same
      exact Or.inl ((reg.distinct.getElem_inj_iff).mp (Option.some.inj same))
    · exact absurd same (apart i j left right hj)
    · exact absurd same.symm (apart j i right left hi)
    · exact Or.inr ⟨(added_padded hi).mpr left, (added_padded hj).mpr right⟩
  · intro i bound isBye
    rw [size] at bound ⊢
    have free := (added_padded bound).mp isBye
    have lower := reg.names_le
    have upper := reg.pow_lt
    refine ⟨by omega, fun alsoBye => ?_⟩
    have := (added_padded (by omega)).mp alsoBye
    omega

theorem version_created (clear : reg.Clear) : Version reg 0 reg.created := by
  refine ⟨created_sourced reg, Nat.zero_le _, ?_, ?_, ?_, ?_, ?_, ?_, ?_, ?_⟩ <;> rw [reg.created_eq]
  · rfl
  · intro i first
    obtain rfl := Nat.le_zero.mp first
    exact ⟨reg.padded, rfl, reg.padded_length⟩
  · rfl
  · rfl
  · intro i L M _ next
    cases next
  · exact padded_seeding clear
  · exact List.nodup_nil
  · intro x member
    cases member

/-! ### The next version -/

theorem Version.winners_length (version : Version reg k v) : v.winners.length = 2 ^ (reg.rounds - k) := by
  obtain ⟨L, here, size⟩ := version.sizes k (Nat.le_refl k)
  rw [version.current] at here
  rw [Option.some.inj here, size]

theorem Version.sized (version : Version reg k v) : Sized reg.rounds k v := by
  refine ⟨reg.rounds_pos, version.done, ?_, version.winners_length, ?_⟩
  · rw [version.sourced.groups, reg.padded_length]
  · have := version.lists
    omega

theorem Version.even (version : Version reg k v) (unfinished : k < reg.rounds) : 2 ∣ v.winners.length := by
  rw [version.winners_length]
  exact dvd_pow_self 2 (by omega)

theorem entryAt_of_standing {L M : List Group} (same : M.map Group.entry = (standing L ps).map (entryAt L))
    {i : Nat} (bound : i < (standing L ps).length) : entryAt M i = entryAt L (standing L ps)[i] := by
  have here := congrArg (fun entries => entries[i]?) same
  simp only [List.getElem?_map, List.getElem?_eq_getElem bound, Option.map_some] at here
  obtain ⟨g, found, entry⟩ := Option.map_eq_some_iff.mp here
  rw [entryAt_of_getElem? found, entry]

/-- Once every row is decided, no bye is left. -/
theorem not_added_of_standing {L M : List Group} (seeding : Seeding L (reg.added L))
    (valid : ∀ p ∈ ps, p.Valid L (reg.added L)) (covers : Covers ps L.length)
    (same : M.map Group.entry = (standing L ps).map (entryAt L)) : ∀ i < M.length, ¬ reg.added M i := by
  have size : M.length = (standing L ps).length := by
    have lengths := congrArg List.length same
    rwa [List.length_map, List.length_map] at lengths
  intro i bound isBye
  rw [size] at bound
  apply not_bye_of_standing seeding valid covers (List.getElem_mem bound)
  have seed := congrArg Prod.snd (entryAt_of_standing same bound)
  exact seed.symm.trans isBye

theorem seeding_standing {L M : List Group} (seeding : Seeding L (reg.added L))
    (valid : ∀ p ∈ ps, p.Valid L (reg.added L)) (covers : Covers ps L.length)
    (same : M.map Group.entry = (standing L ps).map (entryAt L)) : Seeding M (reg.added M) := by
  have size : M.length = (standing L ps).length := by
    have lengths := congrArg List.length same
    rwa [List.length_map, List.length_map] at lengths
  have real := not_added_of_standing seeding valid covers same
  refine ⟨fun i bound isBye => absurd isBye (real i bound), ?_, fun i bound isBye =>
    absurd isBye (real i bound)⟩
  intro i hi j hj names
  rw [size] at hi hj
  have left : nameAt M i = nameAt L (standing L ps)[i] := congrArg Prod.fst (entryAt_of_standing same hi)
  have right : nameAt M j = nameAt L (standing L ps)[j] := congrArg Prod.fst (entryAt_of_standing same hj)
  have seatI := List.getElem_mem hi
  have seatJ := List.getElem_mem hj
  have seats := seeding.eq_of_name (standing_lt valid seatI) (standing_lt valid seatJ)
    (not_bye_of_standing seeding valid covers seatI) (left.symm.trans (names.trans right))
  exact Or.inl (((standing_nodup seeding valid).getElem_inj_iff).mp seats)

theorem Advances.congr {L M N : List Group} (advances : Advances L M)
    (names : N.map Group.name = M.map Group.name) : Advances L N := by
  rwa [Advances, names]

theorem advances_of_standing {L M : List Group} {bye : Nat → Prop} (seeding : Seeding L bye)
    (valid : ∀ p ∈ ps, p.Valid L bye) (covers : Covers ps L.length)
    (same : M.map Group.entry = (standing L ps).map (entryAt L)) : Advances (L.map (markAll L ps)) M := by
  have names : M.map Group.name = (standing L ps).map (nameAt L) := by
    have := congrArg (List.map Prod.fst) same
    rwa [List.map_map, List.map_map] at this
  have marked : nameAt (L.map (markAll L ps)) = nameAt L := by
    funext i
    exact congrArg Prod.fst (congrFun (entryAt_congr (marked_entries L ps)) i)
  intro r inside
  rw [List.length_map] at inside ⊢
  obtain ⟨s, last⟩ := Option.isSome_iff_exists.mp (covers r inside)
  obtain ⟨won, lost⟩ := markAll_status seeding valid inside last
  rw [marked, names]
  refine ⟨s, ?_, ?_, ?_, ?_⟩
  · rwa [statusAt_map (seat_lt inside s)]
  · have left : seat L.length r s ∈ standing L ps := by
      rw [mem_standing_iff_chosen seeding valid covers, mem_chosen, row_seat inside, side_seat inside, last]
      exact ⟨seat_lt inside s, fun same => Side.other_ne s (Option.some.inj same).symm⟩
    exact List.mem_map_of_mem left
  · rwa [statusAt_map (seat_lt inside s.other)]
  · -- Only the loser itself has its name, and it is not left.
    intro member
    obtain ⟨i, left, name⟩ := List.mem_map.mp member
    obtain rfl := seeding.eq_of_name (standing_lt valid left) (seat_lt inside s.other)
      (not_bye_of_standing seeding valid covers left) name
    rw [mem_standing_iff_chosen seeding valid covers, mem_chosen, row_seat inside, side_seat inside,
      Side.other_other] at left
    exact left.2 last

/-- Deciding every row of the current round and storing it makes the next version. -/
theorem Version.next (version : Version reg k v) (unfinished : k < reg.rounds)
    (valid : ∀ p ∈ ps, p.Valid v.winners (reg.added v.winners)) (covers : Covers ps v.winners.length) :
    Version reg (k + 1) (v.play v.winners (k + 1) ps).nextRound := by
  have contained : ∀ g ∈ v.winners, reg.Contains g := version.sourced.winners
  have entries : (v.play v.winners (k + 1) ps).winners.map Group.entry =
      (standing v.winners ps).map (entryAt v.winners) := play_winners rfl
  have rounds : (v.play v.winners (k + 1) ps).roundList =
      v.roundList.modify k (·.map (markAll v.winners ps)) := play_roundList
  have half : (v.play v.winners (k + 1) ps).winners.length = 2 ^ (reg.rounds - (k + 1)) := by
    have lengths := congrArg List.length entries
    rw [List.length_map, List.length_map, standing_length version.seeding valid (version.even unfinished)
      covers, version.winners_length] at lengths
    rw [lengths, half_pow_sub unfinished, Nat.sub_sub, Nat.add_comm]
  have lists := version.lists
  have old : ∀ i ≤ k, ((v.play v.winners (k + 1) ps).nextRound).roundList[i]? =
      (v.roundList.modify k (·.map (markAll v.winners ps)))[i]? := by
    intro i le
    show ((v.play v.winners (k + 1) ps).roundList ++ _)[i]? = _
    rw [rounds, List.getElem?_append_left (by rw [List.length_modify]; omega)]
  have new : ((v.play v.winners (k + 1) ps).nextRound).roundList[k + 1]? =
      some (v.play v.winners (k + 1) ps).winners := by
    show ((v.play v.winners (k + 1) ps).roundList ++ _)[k + 1]? = _
    rw [rounds, List.getElem?_append_right (by rw [List.length_modify]; omega), List.length_modify, lists,
      Nat.sub_self]
    rfl
  have length : ((v.play v.winners (k + 1) ps).nextRound).roundList.length = k + 2 := by
    show ((v.play v.winners (k + 1) ps).roundList ++ _).length = _
    rw [rounds, List.length_append, List.length_modify, lists]
    rfl
  refine ⟨(version.sourced.play contained valid).nextRound, unfinished, length, ?_, ?_, new, ?_, ?_, ?_, ?_⟩
  · intro i le
    rcases Nat.lt_or_eq_of_le le with earlier | rfl
    · obtain ⟨L, here, size⟩ := version.sizes i (by omega)
      rw [old i (by omega), List.getElem?_modify, here]
      refine ⟨_, rfl, ?_⟩
      split <;> simp [size]
    · exact ⟨_, new, half⟩
  · rw [old 0 (Nat.zero_le k), List.getElem?_modify, ← version.first]
    cases v.roundList[0]? with
    | none => rfl
    | some L =>
      simp only [Option.map_some]
      split
      · show some ((L.map (markAll v.winners ps)).map Group.entry) = _
        rw [List.map_map]
        exact congrArg some (List.map_congr_left fun g _ => markAll_entry v.winners ps g)
      · rfl
  · intro i L M here after
    rcases Nat.lt_trichotomy i k with earlier | rfl | later
    · rw [old i (by omega), List.getElem?_modify_ne _ _ (by omega)] at here
      rw [old (i + 1) earlier, List.getElem?_modify] at after
      obtain ⟨N, before, same⟩ := Option.map_eq_some_iff.mp after
      apply (version.advances i L N here before).congr
      rw [← same]
      split
      · rw [List.map_map]
        exact List.map_congr_left fun g _ => markAll_name v.winners ps g
      · rfl
    · rw [old i (Nat.le_refl i), List.getElem?_modify_eq, version.current] at here
      obtain rfl := Option.some.inj here
      obtain rfl := Option.some.inj (new.symm.trans after)
      exact advances_of_standing version.seeding valid covers entries
    · have bound := (List.getElem?_eq_some_iff.mp after).1
      rw [length] at bound
      omega
  · exact seeding_standing version.seeding valid covers entries
  · exact losers_nodup version.losersDistinct
  · intro x lost won
    exact winners_apart_losers (fun x won lost => version.losersNew x lost won) x won lost

end Tourni
