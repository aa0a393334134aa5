import Tourni.Bracket.Incremental
import Tourni.Bracket.Knockout

/-!
# The chronicle of a tournament

The versions of a tournament as they are stored one after the other, each made from the one before it by
deciding every row of its round. Where no entrant is called "FREE", the names of a round list tell its groups
apart, but for the byes, which come second in their rows and are never marked.
-/

namespace Tourni
open Mirror

/-- The versions `v` and their documents: the first is what `generate` stores, and each next one is stored by
`nextRound` after picks that decide every row. -/
structure Chronicle (reg : Registration) (v : Nat → Tournament) (document : Nat → Document) : Prop where
  first : v 0 = reg.created
  next : ∀ k < reg.rounds, ∃ ps : List Pick,
    (∀ p ∈ ps, p.Valid (v k).winners (reg.added (v k).winners)) ∧ Covers ps (v k).winners.length ∧
    v (k + 1) = ((v k).play (v k).winners (k + 1) ps).nextRound
  stored : ∀ k ≤ reg.rounds, (v k).store = some (reg.gameCode, document k)

/-- Different groups of the list have different names, unless they are called "FREE"; those come second in
their rows and are not marked. -/
structure Tidy (L : List Group) : Prop where
  distinct : ∀ i < L.length, ∀ j < L.length, nameAt L i = nameAt L j → nameAt L i ≠ some "FREE" → i = j
  free : ∀ i < L.length, nameAt L i = some "FREE" → L.length / 2 ≤ i ∧ statusAt L i = false

variable {reg : Registration} {L M : List Group} {w l : Group} {r i k : Nat} {s : Side} {ps : List Pick}
  {v : Nat → Tournament} {document : Nat → Document}

/-! ### Marking a tidy list -/

theorem nameAt_map_mark (w l : Group) : nameAt (L.map (Group.mark w l)) = nameAt L := by
  have same : (L.map (Group.mark w l)).map Group.entry = L.map Group.entry := by
    rw [List.map_map]
    exact List.map_congr_left fun g _ => Group.mark_entry w l g
  funext i
  exact congrArg Prod.fst (congrFun (entryAt_congr same) i)

/-- A pick on row `r` marks the winner, unmarks the loser, and leaves every other mark as it was. -/
theorem Tidy.statusAt_mark (tidy : Tidy L) (inside : r < L.length / 2)
    (winner : w.name = nameAt L (seat L.length r s)) (loser : l.name = nameAt L (seat L.length r s.other))
    (notFree : w.name ≠ some "FREE") (bound : i < L.length) :
    statusAt (L.map (Group.mark w l)) i =
      if i = seat L.length r s then true
      else if i = seat L.length r s.other then false else statusAt L i := by
  have differ : w.name ≠ l.name := by
    intro same
    have seats := tidy.distinct _ (seat_lt inside s) _ (seat_lt inside s.other)
      (winner.symm.trans (same.trans loser)) (winner ▸ notFree)
    exact seat_ne_seat_other inside s seats
  have name : (L.getD i {}).name = nameAt L i := rfl
  rw [statusAt_map bound]
  by_cases isWinner : i = seat L.length r s
  · rw [if_pos isWinner]
    exact Group.mark_winner (by rw [name, isWinner, winner])
  · have notWinner : nameAt L i ≠ w.name := by
      intro same
      apply isWinner
      exact tidy.distinct i bound _ (seat_lt inside s) (same.trans winner) (by rw [same]; exact notFree)
    rw [if_neg isWinner]
    by_cases isLoser : i = seat L.length r s.other
    · rw [if_pos isLoser]
      exact Group.mark_loser (by rw [name, isLoser, loser]) differ
    · rw [if_neg isLoser]
      by_cases same : nameAt L i = l.name
      · -- Only a bye shares the name of the loser, and it is not marked.
        have isFree : nameAt L i = some "FREE" := by
          by_contra real
          exact isLoser (tidy.distinct i bound _ (seat_lt inside s.other) (same.trans loser) real)
        rw [Group.mark_loser same differ, (tidy.free i bound isFree).2]
      · rw [Group.mark_other notWinner same]
        rfl

theorem Tidy.mark (tidy : Tidy L) (inside : r < L.length / 2)
    (winner : w.name = nameAt L (seat L.length r s)) (loser : l.name = nameAt L (seat L.length r s.other))
    (notFree : w.name ≠ some "FREE") : Tidy (L.map (Group.mark w l)) := by
  refine ⟨?_, ?_⟩
  · rw [nameAt_map_mark, List.length_map]
    exact tidy.distinct
  · rw [nameAt_map_mark, List.length_map]
    intro i bound isFree
    obtain ⟨second, unmarked⟩ := tidy.free i bound isFree
    refine ⟨second, ?_⟩
    rw [tidy.statusAt_mark inside winner loser notFree bound, if_neg]
    · split
      · rfl
      · exact unmarked
    · rintro rfl
      exact notFree (winner.trans isFree)

theorem Tidy.markAll (tidy : Tidy L) (valid : ∀ p ∈ ps, p.row < L.length / 2 ∧
    nameAt L (p.winnerSeat L.length) ≠ some "FREE") : Tidy (L.map (Tourni.markAll L ps)) := by
  induction ps using List.reverseRecOn with
  | nil =>
    have same : L.map (Tourni.markAll L []) = L := List.map_id L
    rwa [same]
  | append_singleton ps p ih =>
    obtain ⟨inside, notFree⟩ := valid p (by simp)
    have before := ih fun q member => valid q (by simp [member])
    have names : nameAt (L.map (Tourni.markAll L ps)) = nameAt L := by
      funext i
      exact congrArg Prod.fst (congrFun (entryAt_congr (marked_entries L ps)) i)
    rw [markAll_append, ← List.map_map]
    apply before.mark (r := p.row) (s := p.side)
    · rwa [List.length_map]
    · rw [names, List.length_map]
      rfl
    · rw [names, List.length_map]
      rfl
    · exact notFree

/-! ### The lists of a chronicle are tidy -/

theorem added_of_free (free : "FREE" ∉ reg.names) (contained : ∀ g ∈ L, reg.Contains g) (bound : i < L.length)
    (isFree : nameAt L i = some "FREE") : reg.added L i := by
  obtain ⟨p, member, same⟩ := List.mem_map.mp (contained _ (List.getElem_mem bound))
  have here : L.getD i {} = L[i] := by
    rw [List.getD_eq_getElem?_getD, List.getElem?_eq_getElem bound, Option.getD_some]
  unfold nameAt at isFree
  rw [here] at isFree
  obtain ⟨sameName, sameSeed⟩ := Group.entry_eq_iff.mp same
  unfold Registration.added
  rw [here, ← sameSeed]
  rcases Registration.mem_padded member with ⟨j, h, rfl⟩ | rfl
  · rw [isFree] at sameName
    exact absurd (Option.some.inj sameName ▸ List.getElem_mem h) free
  · rfl

theorem tidy_of_seeding (free : "FREE" ∉ reg.names) (contained : ∀ g ∈ L, reg.Contains g)
    (seeding : Seeding L (reg.added L)) (unmarked : ∀ i < L.length, reg.added L i → statusAt L i = false) :
    Tidy L := by
  refine ⟨?_, ?_⟩
  · intro i hi j hj same real
    rcases seeding.distinct i hi j hj same with equal | ⟨isBye, -⟩
    · exact equal
    · exact absurd (seeding.free i hi isBye) real
  · intro i bound isFree
    have isBye := added_of_free free contained bound isFree
    exact ⟨(seeding.second i bound isBye).1, unmarked i bound isBye⟩

namespace Chronicle

theorem version (chronicle : Chronicle reg v document) (free : "FREE" ∉ reg.names) (done : k ≤ reg.rounds) :
    Version reg k (v k) := by
  induction k with
  | zero =>
    rw [chronicle.first]
    exact version_created (Or.inl free)
  | succ k ih =>
    obtain ⟨ps, valid, covers, next⟩ := chronicle.next k done
    rw [next]
    exact (ih (by omega)).next done valid covers

theorem load (chronicle : Chronicle reg v document) (free : "FREE" ∉ reg.names) (done : k ≤ reg.rounds) :
    Tournament.getTournament reg.gameCode (document k) = some (v k) := by
  obtain ⟨written, stored, loaded⟩ := (chronicle.version free done).sourced.stored
  obtain ⟨-, rfl⟩ := Prod.mk.inj (Option.some.inj (stored.symm.trans (chronicle.stored k done)))
  exact loaded

/-- The documents of a chronicle are a history, so an open bracket follows them as it follows any other. -/
theorem history (chronicle : Chronicle reg v document) (free : "FREE" ∉ reg.names) : History reg document := by
  refine ⟨?_, ?_, ?_⟩
  · rw [← chronicle.first]
    exact chronicle.stored 0 (Nat.zero_le _)
  · intro k below
    obtain ⟨ps, -, -, next⟩ := chronicle.next k below
    have before := (chronicle.version free below.le).winners_length
    have after := (chronicle.version free below).winners_length
    let t := (v k).play (v k).winners (k + 1) ps
    refine ⟨v k, t, chronicle.load free below.le, play_groups, ?_, ?_, ?_⟩
    · rw [play_roundList, List.length_modify]
    · have same : (v (k + 1)).winners = t.winners := by
        rw [next]
        rfl
      rw [same] at after
      rw [after, before, two_mul_pow_sub below]
    · rw [← next]
      exact chronicle.stored (k + 1) below
  · intro k done
    rw [chronicle.load free done]
    rfl

theorem tidy_winners (chronicle : Chronicle reg v document) (free : "FREE" ∉ reg.names)
    (done : k ≤ reg.rounds) : Tidy (v k).winners := by
  have version := chronicle.version free done
  apply tidy_of_seeding free version.sourced.winners version.seeding
  intro i bound isBye
  cases k with
  | zero =>
    have winners : (v 0).winners = reg.padded := by rw [chronicle.first, reg.created_eq]
    rw [winners] at bound ⊢
    have inside : reg.padded[i]? = some reg.padded[i] := List.getElem?_eq_getElem bound
    rw [statusAt_of_getElem? inside]
    exact Registration.padded_unmarked (List.getElem_mem bound)
  | succ k =>
    obtain ⟨ps, valid, covers, next⟩ := chronicle.next k done
    have before := chronicle.version free (Nat.le_of_succ_le done)
    have entries : (v (k + 1)).winners.map Group.entry =
        (standing (v k).winners ps).map (entryAt (v k).winners) := by
      rw [next]
      exact play_winners rfl
    exact absurd isBye (not_added_of_standing before.seeding valid covers entries i bound)

/-- The list of the round that a version shows last. -/
theorem tidy_current (chronicle : Chronicle reg v document) (free : "FREE" ∉ reg.names)
    (done : k ≤ reg.rounds) (current : (v k).roundList[shownRounds reg.rounds k - 1]? = some L) : Tidy L := by
  have positive := reg.rounds_pos
  by_cases unfinished : k < reg.rounds
  · rw [shownRounds_of_lt unfinished, Nat.add_sub_cancel, (chronicle.version free done).current] at current
    obtain rfl := Option.some.inj current
    exact chronicle.tidy_winners free done
  · obtain ⟨j, rfl⟩ : ∃ j, k = j + 1 := ⟨k - 1, by omega⟩
    have last : reg.rounds = j + 1 := by omega
    obtain ⟨ps, valid, covers, next⟩ := chronicle.next j done
    have before := chronicle.version free (Nat.le_of_succ_le done)
    have lists := before.lists
    have marked : (v (j + 1)).roundList[j]? = some ((v j).winners.map (Tourni.markAll (v j).winners ps)) := by
      rw [next]
      show (((v j).play (v j).winners (j + 1) ps).roundList ++ _)[j]? = _
      rw [play_roundList, List.getElem?_append_left (by rw [List.length_modify]; omega), Nat.add_sub_cancel,
        List.getElem?_modify_eq, before.current]
      rfl
    rw [last, shownRounds_self, Nat.add_sub_cancel, marked] at current
    obtain rfl := Option.some.inj current
    apply (chronicle.tidy_winners free (Nat.le_of_succ_le done)).markAll
    intro p member
    have now := valid p member
    refine ⟨now.1, fun isFree => now.2 ?_⟩
    exact added_of_free free before.sourced.winners now.winnerSeat_lt isFree

end Chronicle
end Tourni
