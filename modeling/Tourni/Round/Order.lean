import Tourni.Round.Picks

/-!
# The order of the seats left

A group whose first pick is final keeps its seat; one that comes back after a change of mind is appended.
So the seats left are sorted by the last change of their row, and by seat within one change.
-/

namespace Tourni
open Mirror

/-- Seat `i` stands before seat `j` in `winners`. -/
def Before (ps : List Pick) (n i j : Nat) : Prop :=
  lastChange ps (row n i) < lastChange ps (row n j) ∨
    (lastChange ps (row n i) = lastChange ps (row n j) ∧ i < j)

def Covers (ps : List Pick) (n : Nat) : Prop := ∀ r < n / 2, (lastPick ps r).isSome

instance (ps : List Pick) (n : Nat) : Decidable (Covers ps n) :=
  inferInstanceAs (Decidable (∀ r < n / 2, _))

/-- The seats that the last pick of their row did not go against: once every row is picked, the chosen
ones. They are listed in the order of the round list. -/
def chosen (L : List Group) (ps : List Pick) : List Nat :=
  (List.range L.length).filter fun i =>
    lastPick ps (row L.length i) ≠ some (side L.length i).other

/-- The chosen seats come in the order of the last changes of mind in their rows. -/
def InOrder (L : List Group) (ps : List Pick) : Prop :=
  (chosen L ps).Pairwise fun i j => lastChange ps (row L.length i) ≤ lastChange ps (row L.length j)

instance (L : List Group) (ps : List Pick) : Decidable (InOrder L ps) :=
  inferInstanceAs (Decidable (List.Pairwise _ _))

variable {L : List Group} {bye : Nat → Prop} {ps : List Pick} {p : Pick} {i j n : Nat}

theorem mem_chosen : i ∈ chosen L ps ↔
    i < L.length ∧ lastPick ps (row L.length i) ≠ some (side L.length i).other := by
  simp only [chosen, List.mem_filter, List.mem_range, decide_eq_true_eq]

theorem Before.irrefl (ps : List Pick) (n i : Nat) : ¬ Before ps n i i := by
  unfold Before
  omega

theorem Before.asymm (h : Before ps n i j) : ¬ Before ps n j i := by
  unfold Before at *
  omega

theorem eq_winnerSeat_of_row (valid : p.Valid L bye) (bound : i < L.length)
    (same : row L.length i = p.row) (notLoser : i ≠ p.loserSeat L.length) :
    i = p.winnerSeat L.length := by
  rw [Pick.winnerSeat, seat_eq_iff valid.1 bound]
  rw [Pick.loserSeat, Ne, seat_eq_iff valid.1 bound] at notLoser
  refine ⟨same, ?_⟩
  by_contra different
  exact notLoser ⟨same, Side.eq_other_iff.mpr different⟩

theorem standing_sorted (seeding : Seeding L bye) (valid : ∀ p ∈ ps, p.Valid L bye) :
    (standing L ps).Pairwise (Before ps L.length) := by
  induction ps using List.reverseRecOn with
  | nil =>
    apply List.pairwise_lt_range.imp
    intro i j less
    exact Or.inr ⟨rfl, less⟩
  | append_singleton ps p ih =>
    have before : ∀ q ∈ ps, q.Valid L bye := fun q hq => valid q (by simp [hq])
    have now := valid p (by simp)
    have kept := (ih before).sublist
      (Roster.expel_sublist (nameAt L) (nameAt L (p.loserSeat L.length)) (standing L ps))
    have winnerRow : row L.length (p.winnerSeat L.length) = p.row := row_seat now.1 _
    have winnerSide : side L.length (p.winnerSeat L.length) = p.side := side_seat now.1 _
    have winnerLeft := mem_standing seeding before now.winnerSeat_lt now.2
    rw [winnerRow, winnerSide] at winnerLeft
    rw [standing_append, stand, Roster.enroll]
    split
    · -- The winner was left already, so its row does not change.
      rename_i present
      have left : p.winnerSeat L.length ∈ standing L ps := by
        obtain ⟨j, member, same⟩ := List.mem_map.mp present
        have old := (Roster.mem_expel.mp member).1
        exact seeding.eq_of_name now.winnerSeat_lt (standing_lt before old) now.2 same.symm ▸ old
      have unchanged : ∀ r, lastChange (ps ++ [p]) r = lastChange ps r := by
        intro r
        rw [lastChange_append, if_neg]
        rintro ⟨rfl, against⟩
        exact winnerLeft.mp left against
      apply kept.imp
      intro i j sorted
      unfold Before at *
      rwa [unchanged, unchanged]
    · -- The winner comes back: it is appended, and its row is the last one to change.
      rename_i absent
      have gone : p.winnerSeat L.length ∉ standing L ps := fun member =>
        absent (List.mem_map.mpr ⟨_, Roster.mem_expel.mpr ⟨member, seeding.names_ne now⟩, rfl⟩)
      have against : lastPick ps p.row = some p.side.other := not_not.mp (mt winnerLeft.mpr gone)
      have changed : lastChange (ps ++ [p]) p.row = ps.length + 1 := by
        rw [lastChange_append, if_pos ⟨rfl, against⟩]
      have unchanged : ∀ j ∈ Roster.expel (nameAt L) (nameAt L (p.loserSeat L.length)) (standing L ps),
          lastChange (ps ++ [p]) (row L.length j) = lastChange ps (row L.length j) := by
        intro j member
        obtain ⟨old, name⟩ := Roster.mem_expel.mp member
        rw [lastChange_append, if_neg]
        rintro ⟨same, -⟩
        have isWinner := eq_winnerSeat_of_row now (standing_lt before old) same.symm
          (fun loser => name (congrArg (nameAt L) loser))
        exact gone (isWinner ▸ old)
      rw [List.pairwise_append]
      refine ⟨?_, List.pairwise_singleton _ _, ?_⟩
      · apply kept.imp_of_mem
        intro i j hi hj sorted
        unfold Before at *
        rwa [unchanged i hi, unchanged j hj]
      · intro j member w single
        obtain rfl := List.mem_singleton.mp single
        have := lastChange_le ps (row L.length j)
        unfold Before
        rw [unchanged j member, winnerRow, changed]
        omega

theorem standing_nodup (seeding : Seeding L bye) (valid : ∀ p ∈ ps, p.Valid L bye) :
    (standing L ps).Nodup := by
  apply (standing_sorted seeding valid).imp
  rintro i _ sorted rfl
  exact Before.irrefl ps L.length i sorted

/-! ### A decided round -/

theorem exists_lastPick {r : Nat} (picked : (lastPick ps r).isSome) :
    ∃ p ∈ ps, p.row = r ∧ lastPick ps r = some p.side := by
  induction ps using List.reverseRecOn with
  | nil => simp at picked
  | append_singleton ps p ih =>
    rw [lastPick_append] at picked ⊢
    split
    · rename_i same
      exact ⟨p, by simp, same, rfl⟩
    · rename_i other
      rw [if_neg other] at picked
      obtain ⟨q, member, row, last⟩ := ih picked
      exact ⟨q, by simp [member], row, last⟩

/-- A picked row with a bye was won by its first group. -/
theorem lastPick_against_bye (valid : ∀ p ∈ ps, p.Valid L bye)
    (bound : i < L.length) (isBye : bye i) (picked : (lastPick ps (row L.length i)).isSome) :
    ∃ p ∈ ps, p.loserSeat L.length = i ∧ lastPick ps (row L.length i) = some (side L.length i).other := by
  obtain ⟨p, member, same, last⟩ := exists_lastPick picked
  have now := valid p member
  have loser : i = p.loserSeat L.length := by
    by_contra different
    exact now.2 (eq_winnerSeat_of_row now bound same.symm different ▸ isBye)
  refine ⟨p, member, loser.symm, ?_⟩
  rw [last, loser, Pick.loserSeat, side_seat now.1, Side.other_other]

theorem Seeding.bye_row_lt (seeding : Seeding L bye) (bound : i < L.length) (isBye : bye i) :
    row L.length i < L.length / 2 := by
  have second := seeding.second i bound isBye
  unfold row
  by_contra middle
  have : L.length - 1 - i = i := by omega
  exact second.2 (by rwa [this])

theorem mem_standing_iff_chosen (seeding : Seeding L bye) (valid : ∀ p ∈ ps, p.Valid L bye)
    (covers : Covers ps L.length) : i ∈ standing L ps ↔ i ∈ chosen L ps := by
  rw [mem_chosen]
  constructor
  · intro left
    have bound := standing_lt valid left
    refine ⟨bound, ?_⟩
    by_cases isBye : bye i
    · intro against
      obtain ⟨p, member, loser, -⟩ :=
        lastPick_against_bye valid bound isBye (by rw [against]; rfl)
      exact (mem_standing_bye seeding valid bound isBye).mp left p member (loser ▸ isBye)
    · exact (mem_standing seeding valid bound isBye).mp left
  · rintro ⟨bound, notAgainst⟩
    by_cases isBye : bye i
    · obtain ⟨_, _, _, against⟩ :=
        lastPick_against_bye valid bound isBye (covers _ (seeding.bye_row_lt bound isBye))
      exact absurd against notAgainst
    · exact (mem_standing seeding valid bound isBye).mpr notAgainst

theorem chosen_sorted (L : List Group) (ps : List Pick) : (chosen L ps).Pairwise (· < ·) :=
  List.pairwise_lt_range.sublist List.filter_sublist

theorem chosen_nodup (L : List Group) (ps : List Pick) : (chosen L ps).Nodup :=
  (chosen_sorted L ps).imp fun less => Nat.ne_of_lt less

theorem standing_perm_chosen (seeding : Seeding L bye) (valid : ∀ p ∈ ps, p.Valid L bye)
    (covers : Covers ps L.length) : (standing L ps).Perm (chosen L ps) :=
  (List.perm_ext_iff_of_nodup (standing_nodup seeding valid) (chosen_nodup L ps)).mpr fun _ =>
    mem_standing_iff_chosen seeding valid covers

/-- The seats left come in the order of the round list exactly when the changes of mind do. -/
theorem standing_eq_chosen_iff (seeding : Seeding L bye) (valid : ∀ p ∈ ps, p.Valid L bye)
    (covers : Covers ps L.length) : standing L ps = chosen L ps ↔ InOrder L ps := by
  have sorted := standing_sorted seeding valid
  constructor
  · intro same
    rw [same] at sorted
    apply ((chosen_sorted L ps).and sorted).imp
    rintro i j ⟨-, earlier | ⟨equal, -⟩⟩
    · exact Nat.le_of_lt earlier
    · exact Nat.le_of_eq equal
  · intro ordered
    have chosenSorted : (chosen L ps).Pairwise (Before ps L.length) := by
      apply ((chosen_sorted L ps).and ordered).imp
      rintro i j ⟨less, le⟩
      rcases Nat.lt_or_eq_of_le le with earlier | equal
      · exact Or.inl earlier
      · exact Or.inr ⟨equal, less⟩
    exact (standing_perm_chosen seeding valid covers).eq_of_pairwise
      (fun i j _ _ h h' => absurd h' h.asymm) sorted chosenSorted

theorem chosen_length (even : 2 ∣ L.length) (covers : Covers ps L.length) :
    (chosen L ps).length = L.length / 2 := by
  have rows : ((chosen L ps).map (row L.length)).Perm (List.range (L.length / 2)) := by
    have facts : ∀ i ∈ chosen L ps, i < L.length ∧ row L.length i < L.length / 2 ∧
        lastPick ps (row L.length i) = some (side L.length i) := by
      intro i member
      rw [mem_chosen] at member
      have inside := row_lt_of_even member.1 even
      obtain ⟨s, last⟩ := Option.isSome_iff_exists.mp (covers _ inside)
      refine ⟨member.1, inside, ?_⟩
      rw [last] at member ⊢
      have notOther : s ≠ (side L.length i).other := fun same => member.2 (congrArg some same)
      rw [Ne, Side.eq_other_iff, not_not] at notOther
      rw [notOther]
    refine (List.perm_ext_iff_of_nodup ?_ List.nodup_range).mpr fun r => ?_
    · refine List.Nodup.map_on ?_ (chosen_nodup L ps)
      intro i hi j hj same
      obtain ⟨boundI, insideI, lastI⟩ := facts i hi
      obtain ⟨boundJ, insideJ, lastJ⟩ := facts j hj
      have sides : side L.length i = side L.length j := by
        rw [same, lastJ] at lastI
        exact (Option.some.inj lastI).symm
      rw [← seat_row_side boundI insideI, ← seat_row_side boundJ insideJ, same, sides]
    · rw [List.mem_map, List.mem_range]
      constructor
      · rintro ⟨i, member, rfl⟩
        exact (facts i member).2.1
      · intro inside
        obtain ⟨s, last⟩ := Option.isSome_iff_exists.mp (covers r inside)
        refine ⟨seat L.length r s, ?_, row_seat inside s⟩
        rw [mem_chosen]
        refine ⟨seat_lt inside s, ?_⟩
        rw [row_seat inside, side_seat inside, last]
        exact fun same => Side.other_ne s (Option.some.inj same).symm
  have lengths := rows.length_eq
  rwa [List.length_map, List.length_range] at lengths

theorem standing_length (seeding : Seeding L bye) (valid : ∀ p ∈ ps, p.Valid L bye) (even : 2 ∣ L.length)
    (covers : Covers ps L.length) : (standing L ps).length = L.length / 2 :=
  (standing_perm_chosen seeding valid covers).length_eq.trans (chosen_length even covers)

theorem not_bye_of_standing (seeding : Seeding L bye) (valid : ∀ p ∈ ps, p.Valid L bye)
    (covers : Covers ps L.length) (left : i ∈ standing L ps) : ¬ bye i := by
  intro isBye
  have bound := standing_lt valid left
  obtain ⟨p, member, loser, -⟩ := lastPick_against_bye valid bound isBye
    (covers _ (seeding.bye_row_lt bound isBye))
  exact (mem_standing_bye seeding valid bound isBye).mp left p member (loser ▸ isBye)

end Tourni
