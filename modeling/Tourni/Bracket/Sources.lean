import Tourni.Model.AddGroups
import Tourni.Round.Bookkeeping

/-!
# Where the groups come from

Whatever a host does, every group in a tournament is one of the groups it was created with, up to its status.
So what is stored can always be loaded back.
-/

namespace Tourni

def Registration.Contains (reg : Registration) (g : Group) : Prop :=
  g.entry ∈ reg.padded.map Group.entry

/-- Every group of the tournament is one of the padded groups. -/
structure Sourced (reg : Registration) (t : Tournament) : Prop where
  code : t.gameCode = some reg.gameCode
  title : t.title.isSome
  description : t.description.isSome
  groups : t.groups = reg.padded
  winners : ∀ g ∈ t.winners, reg.Contains g
  losers : ∀ g ∈ t.losers, reg.Contains g
  roundList : ∀ gs ∈ t.roundList, ∀ g ∈ gs, reg.Contains g

variable {reg : Registration} {t : Tournament} {g h w l : Group}

theorem Registration.contains_of_mem (member : g ∈ reg.padded) : reg.Contains g :=
  List.mem_map_of_mem member

theorem Registration.contains_congr (same : g.entry = h.entry) : reg.Contains g ↔ reg.Contains h := by
  rw [Contains, Contains, same]

theorem Registration.Contains.mark (contained : reg.Contains g) (w l : Group) :
    reg.Contains (Group.mark w l g) :=
  (Registration.contains_congr (Group.mark_entry w l g)).mpr contained

theorem Registration.Contains.named (contained : reg.Contains g) : g.Named := by
  obtain ⟨p, member, same⟩ := List.mem_map.mp contained
  apply Group.named_of_entry same.symm
  rcases Registration.mem_padded member with ⟨_, _, rfl⟩ | rfl
  · exact ⟨rfl, rfl⟩
  · exact ⟨rfl, rfl⟩

theorem Sourced.storable (sourced : Sourced reg t) : Storable reg.gameCode t where
  code := sourced.code
  title := sourced.title
  description := sourced.description
  groups _ member := (Registration.contains_of_mem (sourced.groups ▸ member)).named
  winners _ member := (sourced.winners _ member).named
  losers _ member := (sourced.losers _ member).named
  roundList _ listed _ member := (sourced.roundList _ listed _ member).named

theorem created_sourced (reg : Registration) : Sourced reg reg.created := by
  rw [reg.created_eq]
  refine ⟨rfl, rfl, rfl, rfl, fun _ => Registration.contains_of_mem, ?_, ?_⟩
  · intro g member
    cases member
  intro gs listed g member
  obtain rfl := List.mem_singleton.mp listed
  exact Registration.contains_of_mem member

theorem Sourced.updateWinner (sourced : Sourced reg t) (winner : reg.Contains w) (loser : reg.Contains l)
    (r : Nat) : Sourced reg (t.updateWinner w l r) := by
  refine ⟨sourced.code, sourced.title, sourced.description, sourced.groups, ?_, ?_, ?_⟩
  · intro g member
    rw [Tournament.updateWinner_winners] at member
    rcases Roster.mem_of_mem_enroll member with rfl | old
    · exact winner
    · exact sourced.winners g (Roster.mem_expel.mp old).1
  · intro g member
    rw [Tournament.updateWinner_losers] at member
    rcases Roster.mem_of_mem_enroll (Roster.mem_expel.mp member).1 with rfl | old
    · exact loser
    · exact sourced.losers g old
  · intro gs listed g member
    rw [Tournament.updateWinner_roundList] at listed
    obtain ⟨k, here⟩ := List.mem_iff_getElem?.mp listed
    rw [List.getElem?_modify] at here
    obtain ⟨old, oldHere, rfl⟩ := Option.map_eq_some_iff.mp here
    have oldListed := List.mem_of_getElem? oldHere
    split at member
    · obtain ⟨p, oldMember, rfl⟩ := List.mem_map.mp member
      exact (sourced.roundList old oldListed p oldMember).mark w l
    · exact sourced.roundList old oldListed g member

theorem Sourced.nextRound (sourced : Sourced reg t) : Sourced reg t.nextRound := by
  refine ⟨sourced.code, sourced.title, sourced.description, sourced.groups, sourced.winners,
    sourced.losers, ?_⟩
  intro gs listed
  rcases List.mem_append.mp listed with old | new
  · exact sourced.roundList gs old
  · obtain rfl := List.mem_singleton.mp new
    exact sourced.winners

theorem Sourced.play (sourced : Sourced reg t) {L : List Group} (contained : ∀ g ∈ L, reg.Contains g)
    {bye : Nat → Prop} {r : Nat} {ps : List Pick} (valid : ∀ p ∈ ps, p.Valid L bye) :
    Sourced reg (t.play L r ps) := by
  have seated : ∀ {i b}, i < L.length → reg.Contains ((L.getD i {}).setStatus b) := by
    intro i b bound
    rw [List.getD_eq_getElem?_getD, List.getElem?_eq_getElem bound]
    exact (Registration.contains_congr (Group.setStatus_entry _ b)).mpr (contained _ (List.getElem_mem bound))
  induction ps using List.reverseRecOn with
  | nil => exact sourced
  | append_singleton ps p ih =>
    have now := valid p (by simp)
    rw [Tournament.play_append]
    exact (ih fun q member => valid q (by simp [member])).updateWinner (seated now.winnerSeat_lt)
      (seated now.loserSeat_lt) r

theorem Sourced.stored (sourced : Sourced reg t) : ∃ document,
    t.store = some (reg.gameCode, document) ∧ Tournament.getTournament reg.gameCode document = some t :=
  load_store sourced.storable

end Tourni
