import Tourni.Bracket.Refinement

/-!
# The path of an entrant

An entrant is in the round lists up to a last one. It has won its row in each of the lists before it; in the last
one it is still among the winners, or it has lost its row to a group of the next list.
-/

namespace Tourni
open Mirror

/-- The entrant has won or lost a row of list `L`, against a group that has not. -/
def Met (L : List Group) (name : String) (won : Bool) : Prop :=
  ∃ r < L.length / 2, ∃ s, nameAt L (seat L.length r s) = some name ∧
    statusAt L (seat L.length r s) = won ∧ statusAt L (seat L.length r s.other) = !won

structure Path (t : Tournament) (name : String) (last : Nat) : Prop where
  inside : last < t.roundList.length
  lists : ∀ (m : Nat) L, t.roundList[m]? = some L →
    (L.map Group.name).count (some name) = if m ≤ last then 1 else 0
  won : ∀ m < last, ∃ L, t.roundList[m]? = some L ∧ Met L name true
  lost : last + 1 < t.roundList.length → ∃ L, t.roundList[last]? = some L ∧ Met L name false
  winners : some name ∈ t.winners.map Group.name ↔ last + 1 = t.roundList.length
  losers : some name ∈ t.losers.map Group.name ↔ last + 1 < t.roundList.length

variable {reg : Registration} {t : Tournament} {seats : List (List Nat)} {S : List Nat} {L : List Group}
  {i j m : Nat} {name : String} {h : Host}

theorem nameAt_padded_iff (clear : reg.Clear) (here : reg.names[i]? = some name) (bound : j < 2 ^ reg.rounds) :
    nameAt reg.padded j = some name ↔ j = i := by
  obtain ⟨entered, rfl⟩ := List.getElem?_eq_some_iff.mp here
  constructor
  · intro same
    rcases Nat.lt_or_ge j reg.names.length with also | free
    · rw [nameAt_padded also] at same
      exact (reg.distinct.getElem_inj_iff).mp (Option.some.inj same)
    · rw [nameAt_padded_free free bound] at same
      rcases clear with absent | full
      · exact absurd (Option.some.inj same ▸ List.getElem_mem entered) absent
      · omega
  · rintro rfl
    exact nameAt_padded entered

/-- The lists in which an entrant is are those with its seat. -/
theorem Refines.count (refines : Refines reg t seats) (clear : reg.Clear) (here : reg.names[i]? = some name)
    (seated : seats[m]? = some S) (listed : t.roundList[m]? = some L) :
    (L.map Group.name).count (some name) = if i ∈ S then 1 else 0 := by
  obtain ⟨M, same, entries⟩ := refines.list seated
  obtain rfl := Option.some.inj (listed.symm.trans same)
  have names : L.map Group.name = S.map (nameAt reg.padded) := by
    have first := congrArg (List.map Prod.fst) entries
    rwa [List.map_map, List.map_map] at first
  rw [names, List.count, List.countP_map, ← (refines.nodup seated).count, List.count]
  refine List.countP_congr fun j member => ?_
  simp only [Function.comp_apply, beq_iff_eq]
  exact nameAt_padded_iff clear here (refines.lt seated member)

/-- A seat has won its row exactly when it is left after the round. -/
theorem Refines.met (refines : Refines reg t seats) (here : reg.names[i]? = some name) {T : List Nat} {won : Bool}
    (seated : seats[m]? = some S) (next : seats[m + 1]? = some T) (listed : t.roundList[m]? = some L)
    (member : i ∈ S) (decided : i ∈ T ↔ won = true) : Met L name won := by
  obtain ⟨M, same, entries⟩ := refines.list seated
  obtain rfl := Option.some.inj (listed.symm.trans same)
  have bound := (List.getElem?_eq_some_iff.mp next).1
  have done := refines.done
  have length : L.length = S.length := by simpa using congrArg List.length entries
  have even : 2 ∣ S.length := by
    rw [refines.size seated]
    exact dvd_pow_self 2 (by omega)
  obtain ⟨j, below, rfl⟩ := List.getElem_of_mem member
  have inside := row_lt_of_even below even
  have place := seat_row_side below inside
  have other := seat_lt inside (side S.length j).other
  have mine : S[j]? = some S[j] := List.getElem?_eq_getElem below
  have theirs : S[seat S.length (row S.length j) (side S.length j).other]? =
      some S[seat S.length (row S.length j) (side S.length j).other] := List.getElem?_eq_getElem other
  have exactlyOne := (Elimination.isChain_getElem? refines.chain seated next).decided (refines.nodup seated)
    ⟨_, inside, side S.length j, by rw [place]; exact mine, theirs⟩
  have left := refines.marked m S T L seated next listed _ _ mine
  have right := refines.marked m S T L seated next listed _ _ theirs
  refine ⟨row L.length j, by rw [length]; exact inside, side L.length j, ?_, ?_, ?_⟩
  · rw [length, place]
    have entry := congrArg Prod.fst (entryAt_origin entries (length ▸ below))
    rw [origin_of_getElem? mine] at entry
    exact entry.trans (nameAt_padded_of_getElem? here)
  · rw [length, place, Bool.eq_iff_iff, left, decided]
  · rw [length, Bool.eq_iff_iff, right, Bool.not_eq_true', ← Bool.not_eq_true, ← decided, exactlyOne, not_not]

theorem Refines.path (refines : Refines reg t seats) (clear : reg.Clear) (here : reg.names[i]? = some name) :
    ∃ last, Path t name last := by
  have length := refines.length
  have positive : 0 < seats.length := (List.getElem?_eq_some_iff.mp refines.first).1
  have entered : i ∈ List.range (2 ^ reg.rounds) := by
    have bound := (List.getElem?_eq_some_iff.mp here).1
    have enough := reg.names_le
    exact List.mem_range.mpr (by omega)
  have lists : ∀ m < seats.length, ∃ S L, seats[m]? = some S ∧ t.roundList[m]? = some L := fun m below =>
    ⟨_, _, List.getElem?_eq_getElem below, List.getElem?_eq_getElem (length ▸ below)⟩
  obtain ⟨final, finalList, finalSeated, finalListed⟩ := lists (seats.length - 1) (by omega)
  have finalLast : seats.getLast? = some final := by rw [List.getLast?_eq_getElem?, finalSeated]
  have winnersList : t.winners = finalList := by
    have current := refines.winners
    rw [List.getLast?_eq_getElem?, ← length, finalListed] at current
    exact (Option.some.inj current).symm
  have winners : some name ∈ t.winners.map Group.name ↔ i ∈ final := by
    rw [winnersList, ← List.count_pos_iff, refines.count clear here finalSeated finalListed]
    split <;> simp [*]
  have losers := refines.losers final finalLast i name here
  -- The last list is the one after which the seat is not left.
  obtain ⟨last, inside, upTo, ended⟩ : ∃ last < seats.length,
      (∀ m S, seats[m]? = some S → (i ∈ S ↔ m ≤ last)) ∧ (i ∈ final ↔ last + 1 = seats.length) := by
    by_cases still : i ∈ final
    · refine ⟨seats.length - 1, by omega, fun m S seated => ?_, iff_of_true still (by omega)⟩
      have bound := (List.getElem?_eq_some_iff.mp seated).1
      exact iff_of_true (Elimination.mem_of_le refines.chain (by omega) seated finalSeated still) (by omega)
    · obtain ⟨last, less, us, vs, before, after, member, gone⟩ :=
        Elimination.exists_last refines.first entered finalSeated still
      refine ⟨last, by omega, fun m S seated => ?_, iff_of_false still (by omega)⟩
      constructor
      · intro present
        by_contra later
        exact gone (Elimination.mem_of_le refines.chain (by omega) after seated present)
      · intro le
        exact Elimination.mem_of_le refines.chain le seated before member
  refine ⟨last, by omega, ?_, ?_, ?_, by rw [winners, ended, length], ?_⟩
  · intro m L listed
    have bound := (List.getElem?_eq_some_iff.mp listed).1
    have seated : seats[m]? = some seats[m] := List.getElem?_eq_getElem (by omega)
    rw [refines.count clear here seated listed]
    exact if_congr (upTo m _ seated) rfl rfl
  · intro m below
    obtain ⟨S, L, seated, listed⟩ := lists m (by omega)
    obtain ⟨T, -, next, -⟩ := lists (m + 1) (by omega)
    refine ⟨L, listed, refines.met here seated next listed ?_ ?_⟩
    · exact (upTo m S seated).mpr (by omega)
    · exact iff_of_true ((upTo (m + 1) T next).mpr (by omega)) rfl
  · intro more
    obtain ⟨S, L, seated, listed⟩ := lists last inside
    obtain ⟨T, -, next, -⟩ := lists (last + 1) (by omega)
    refine ⟨L, listed, refines.met here seated next listed ?_ ?_⟩
    · exact (upTo last S seated).mpr (Nat.le_refl _)
    · refine iff_of_false (fun member => ?_) Bool.false_ne_true
      have := (upTo (last + 1) T next).mp member
      omega
  · rw [losers, ended]
    omega

end Tourni
