import Mathlib.Logic.Basic

/-!
# Groups

`Group.swift`: the entrants of a tournament. Equality of groups in the source is equality of names,
written `==` here; `=` compares every field.
-/

namespace Tourni

/-- The source takes canonically equivalent strings for equal, so the name stands for its canonical form. -/
structure Group where
  name : Option String := none
  seed : Option Int := none
  status : Bool := false
  deriving DecidableEq, Repr, Inhabited

namespace Group

instance : BEq Group := ⟨fun lhs rhs => lhs.name == rhs.name⟩

theorem beq_iff {g h : Group} : (g == h) = true ↔ g.name = h.name := by
  show (g.name == h.name) = true ↔ _
  exact beq_iff_eq

theorem bne_iff {g h : Group} : (g != h) = true ↔ g.name ≠ h.name := by
  rw [bne, Bool.not_eq_true', ← Bool.not_eq_true, beq_iff]

/-- `getSeed` traps on a group without a seed. -/
def getSeed (g : Group) : Option Int := g.seed

def setStatus (g : Group) (status : Bool) : Group := { g with status }

@[simp] theorem setStatus_name (g : Group) (b : Bool) : (g.setStatus b).name = g.name := rfl
@[simp] theorem setStatus_seed (g : Group) (b : Bool) : (g.setStatus b).seed = g.seed := rfl
@[simp] theorem setStatus_status (g : Group) (b : Bool) : (g.setStatus b).status = b := rfl

/-- Who the group is, whatever its status. -/
def entry (g : Group) : Option String × Option Int := (g.name, g.seed)

@[simp] theorem entry_fst (g : Group) : g.entry.1 = g.name := rfl
@[simp] theorem entry_snd (g : Group) : g.entry.2 = g.seed := rfl

@[simp] theorem setStatus_entry (g : Group) (b : Bool) : (g.setStatus b).entry = g.entry := rfl

theorem entry_eq_iff {g h : Group} : g.entry = h.entry ↔ g.name = h.name ∧ g.seed = h.seed :=
  Prod.mk.injEq .. ▸ Iff.rfl

/-- The group that pads a tournament up to a power of two. -/
def free (seed : Int) : Group := { name := some "FREE", seed := some seed, status := false }

/-- What `updateWinner` does to each group of a round list. -/
def mark (winner loser group : Group) : Group :=
  if group == winner then group.setStatus true
  else if group == loser then group.setStatus false
  else group

@[simp] theorem mark_entry (winner loser group : Group) :
    (mark winner loser group).entry = group.entry := by
  unfold mark
  split
  · rfl
  · split <;> rfl

@[simp] theorem mark_name (winner loser group : Group) : (mark winner loser group).name = group.name :=
  congrArg Prod.fst (mark_entry winner loser group)

@[simp] theorem mark_seed (winner loser group : Group) : (mark winner loser group).seed = group.seed :=
  congrArg Prod.snd (mark_entry winner loser group)

theorem mark_winner {winner loser group : Group} (h : group.name = winner.name) :
    (mark winner loser group).status = true := by
  simp [mark, beq_iff.mpr h]

theorem mark_loser {winner loser group : Group} (h : group.name = loser.name)
    (differ : winner.name ≠ loser.name) : (mark winner loser group).status = false := by
  have notWinner : ¬ (group == winner) = true := fun e => differ ((beq_iff.mp e).symm.trans h)
  simp [mark, notWinner, beq_iff.mpr h]

theorem mark_other {winner loser group : Group} (notWinner : group.name ≠ winner.name)
    (notLoser : group.name ≠ loser.name) : mark winner loser group = group := by
  simp [mark, mt beq_iff.mp notWinner, mt beq_iff.mp notLoser]

end Group
end Tourni
