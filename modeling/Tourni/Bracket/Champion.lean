import Tourni.Bracket.Knockout

/-!
# After the final

The list of the final has two groups, and `winners` holds one of them. Whatever the host picks and confirms from
then on, this stays so.
-/

namespace Tourni
open Mirror

structure Crowned (reg : Registration) (t : Tournament) : Prop where
  sourced : Sourced reg t
  lists : reg.rounds < t.roundList.length
  final : ∃ a b : Group, t.roundList[reg.rounds - 1]? = some [a, b] ∧ a.name ≠ b.name ∧
    (t.winners.map Group.name = [a.name] ∨ t.winners.map Group.name = [b.name])

variable {reg : Registration} {k : Nat} {t v : Tournament} {ps : List Pick} {a b w l : Group}

theorem Crowned.winners_length (crowned : Crowned reg t) : t.winners.length = 1 := by
  obtain ⟨a, b, -, -, won | won⟩ := crowned.final
  · simpa using congrArg List.length won
  · simpa using congrArg List.length won

theorem Crowned.sized (crowned : Crowned reg t) : Sized reg.rounds reg.rounds t := by
  refine ⟨reg.rounds_pos, Nat.le_refl _, ?_, ?_, crowned.lists⟩
  · rw [crowned.sourced.groups, reg.padded_length]
  · rw [crowned.winners_length, Nat.sub_self, Nat.pow_zero]

theorem Version.crowned (version : Version reg k v) (last : k + 1 = reg.rounds)
    (valid : ∀ p ∈ ps, p.Valid v.winners (reg.added v.winners)) (covers : Covers ps v.winners.length) :
    Crowned reg (v.play v.winners (k + 1) ps).nextRound := by
  have next := version.next (by omega) valid covers
  have two : v.winners.length = 2 := by
    rw [version.winners_length, ← last, Nat.add_sub_cancel_left, Nat.pow_one]
  obtain ⟨a, b, finalists⟩ := List.length_eq_two.mp two
  have lists := next.lists
  refine ⟨next.sourced, by omega, markAll v.winners ps a, markAll v.winners ps b, ?_, ?_, ?_⟩
  · show ((v.play v.winners (k + 1) ps).roundList ++ _)[reg.rounds - 1]? = _
    have rounds : (v.play v.winners (k + 1) ps).roundList =
        v.roundList.modify k (·.map (markAll v.winners ps)) := play_roundList
    have length := version.lists
    rw [rounds, ← last, Nat.add_sub_cancel, List.getElem?_append_left (by rw [List.length_modify]; omega),
      List.getElem?_modify_eq, version.current, finalists]
    rfl
  · rw [markAll_name, markAll_name]
    intro same
    have names : nameAt v.winners 0 = nameAt v.winners 1 := by
      rw [finalists]
      exact same
    rcases version.seeding.distinct 0 (by omega) 1 (by omega) names with equal | ⟨bye, -⟩
    · exact absurd equal (by decide)
    · exact version.seeding.not_bye_first (by omega) bye
  · have left : (v.play v.winners (k + 1) ps).nextRound.winners.map Group.name =
        (standing v.winners ps).map (nameAt v.winners) := play_winner_names rfl
    have single : (standing v.winners ps).length = 1 := by
      rw [standing_length version.seeding valid (version.even (by omega)) covers, two]
    obtain ⟨seat, alone⟩ := List.length_eq_one_iff.mp single
    have bound : seat < v.winners.length := standing_lt valid (by rw [alone]; simp)
    rw [left, alone, markAll_name, markAll_name, finalists]
    obtain rfl | rfl : seat = 0 ∨ seat = 1 := by omega
    · exact Or.inl rfl
    · exact Or.inr rfl

theorem Crowned.nextRound (crowned : Crowned reg t) : Crowned reg t.nextRound := by
  have lists := crowned.lists
  obtain ⟨a, b, final, apart, won⟩ := crowned.final
  refine ⟨crowned.sourced.nextRound, ?_, a, b, ?_, apart, won⟩
  · show reg.rounds < (t.roundList ++ _).length
    rw [List.length_append]
    omega
  · show (t.roundList ++ _)[reg.rounds - 1]? = _
    rw [List.getElem?_append_left (by omega), final]

theorem Crowned.updateWinner (crowned : Crowned reg t) (final : t.roundList[reg.rounds - 1]? = some [a, b])
    (entries : (w.entry = a.entry ∧ l.entry = b.entry) ∨ (w.entry = b.entry ∧ l.entry = a.entry))
    (winner : reg.Contains w) (loser : reg.Contains l) : Crowned reg (t.updateWinner w l reg.rounds) := by
  obtain ⟨a', b', here, apart, won⟩ := crowned.final
  obtain ⟨rfl, rfl⟩ : a' = a ∧ b' = b := by
    have same := Option.some.inj (here.symm.trans final)
    simpa using same
  refine ⟨crowned.sourced.updateWinner winner loser _, ?_, Group.mark w l a', Group.mark w l b', ?_, ?_, ?_⟩
  · rw [Tournament.updateWinner_roundList, List.length_modify]
    exact crowned.lists
  · rw [Tournament.updateWinner_roundList, List.getElem?_modify_eq, final]
    rfl
  · rwa [Group.mark_name, Group.mark_name]
  · have names : (t.updateWinner w l reg.rounds).winners.map Group.name = [w.name] := by
      have kept : (t.updateWinner w l reg.rounds).winners.map Group.name =
          Roster.enroll id w.name (Roster.expel id l.name (t.winners.map Group.name)) := by
        rw [Tournament.updateWinner_winners, ← Roster.map_expel, ← Roster.map_enroll]
        rfl
      rw [kept]
      rcases entries with ⟨sameW, sameL⟩ | ⟨sameW, sameL⟩
      · rw [(Group.entry_eq_iff.mp sameW).1, (Group.entry_eq_iff.mp sameL).1]
        rcases won with won | won <;> simp [won, Roster.expel, Roster.enroll, apart]
      · rw [(Group.entry_eq_iff.mp sameW).1, (Group.entry_eq_iff.mp sameL).1]
        rcases won with won | won <;> simp [won, Roster.expel, Roster.enroll, apart.symm]
    rw [names, Group.mark_name, Group.mark_name]
    rcases entries with ⟨same, -⟩ | ⟨same, -⟩
    · exact Or.inl (congrArg ([·]) (Group.entry_eq_iff.mp same).1)
    · exact Or.inr (congrArg ([·]) (Group.entry_eq_iff.mp same).1)

/-! ### What is stored -/

/-- The version that a host has stored last: `k` decided rounds, or the finished tournament. -/
def Stage (reg : Registration) (k : Nat) (v : Tournament) : Prop :=
  (k < reg.rounds ∧ Version reg k v) ∨ (k = reg.rounds ∧ Crowned reg v)

theorem Stage.sized (stage : Stage reg k v) : Sized reg.rounds k v := by
  rcases stage with ⟨-, version⟩ | ⟨rfl, crowned⟩
  · exact version.sized
  · exact crowned.sized

theorem Stage.sourced (stage : Stage reg k v) : Sourced reg v := by
  rcases stage with ⟨-, version⟩ | ⟨-, crowned⟩
  · exact version.sourced
  · exact crowned.sourced

/-- The tournament in memory is the version `v`, up to picks in the rows `picked` of the current round. -/
def Progress (reg : Registration) (k : Nat) (v t : Tournament) (picked : List Nat) : Prop :=
  (k < reg.rounds ∧ Version reg k v ∧ ∃ ps : List Pick, (∀ p ∈ ps, p.Valid v.winners (reg.added v.winners)) ∧
    t = v.play v.winners (k + 1) ps ∧ ∀ r, r ∈ picked ↔ ∃ p ∈ ps, p.row = r) ∨
  (k = reg.rounds ∧ Crowned reg t)

theorem Stage.progress (stage : Stage reg k v) : Progress reg k v v [] := by
  rcases stage with ⟨unfinished, version⟩ | ⟨rfl, crowned⟩
  · refine Or.inl ⟨unfinished, version, [], ?_, rfl, ?_⟩
    · intro p member
      cases member
    · intro r
      simp
  · exact Or.inr ⟨rfl, crowned⟩

end Tourni
