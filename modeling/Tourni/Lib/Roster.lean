import Mathlib.Data.List.Nodup

/-!
# Lists with a key

`expel` removes every element with a key; `enroll` appends an element unless its key is already there, and
`renew` then puts it in the place of the element with its key.
-/

namespace Roster
variable {α β κ : Type*} [DecidableEq κ] {key : α → κ} {k j : κ} {x y : α} {xs : List α}

def expel (key : α → κ) (k : κ) (xs : List α) : List α := xs.filter fun x => key x ≠ k

def enroll (key : α → κ) (x : α) (xs : List α) : List α :=
  if key x ∈ xs.map key then xs else xs ++ [x]

theorem mem_expel : x ∈ expel key k xs ↔ x ∈ xs ∧ key x ≠ k := by simp [expel]

theorem expel_sublist (key : α → κ) (k : κ) (xs : List α) : (expel key k xs).Sublist xs :=
  List.filter_sublist

theorem mem_of_mem_enroll (h : y ∈ enroll key x xs) : y = x ∨ y ∈ xs := by
  unfold enroll at h
  split at h
  · exact Or.inr h
  · rcases List.mem_append.mp h with old | new
    · exact Or.inr old
    · exact Or.inl (List.mem_singleton.mp new)

theorem mem_enroll_of_mem (h : y ∈ xs) : y ∈ enroll key x xs := by
  unfold enroll
  split
  · exact h
  · exact List.mem_append_left _ h

theorem mem_enroll_of_unique (unique : ∀ y ∈ xs, key y = key x → y = x) :
    y ∈ enroll key x xs ↔ y = x ∨ y ∈ xs := by
  refine ⟨mem_of_mem_enroll, ?_⟩
  rintro (rfl | old)
  · unfold enroll
    split
    · rename_i present
      obtain ⟨z, member, same⟩ := List.mem_map.mp present
      exact unique z member same ▸ member
    · simp
  · exact mem_enroll_of_mem old

theorem mem_keys_expel : j ∈ (expel key k xs).map key ↔ j ∈ xs.map key ∧ j ≠ k := by
  simp only [List.mem_map, mem_expel]
  constructor
  · rintro ⟨x, ⟨member, differ⟩, rfl⟩
    exact ⟨⟨x, member, rfl⟩, differ⟩
  · rintro ⟨⟨x, member, rfl⟩, differ⟩
    exact ⟨x, ⟨member, differ⟩, rfl⟩

theorem mem_keys_enroll : j ∈ (enroll key x xs).map key ↔ j = key x ∨ j ∈ xs.map key := by
  unfold enroll
  split
  · rename_i present
    refine ⟨Or.inr, ?_⟩
    rintro (rfl | old)
    · exact present
    · exact old
  · simp [or_comm]

theorem nodup_keys_expel (h : (xs.map key).Nodup) : ((expel key k xs).map key).Nodup :=
  h.sublist ((expel_sublist key k xs).map key)

theorem nodup_keys_enroll (h : (xs.map key).Nodup) : ((enroll key x xs).map key).Nodup := by
  unfold enroll
  split
  · exact h
  · rename_i absent
    rw [List.map_append, List.map_singleton]
    exact List.nodup_append.mpr ⟨h, List.nodup_singleton _, by
      intro j member i single same
      obtain rfl := List.mem_singleton.mp single
      exact absent (same ▸ member)⟩

/-! ### Renewal -/

def renew (key : α → κ) (x : α) (xs : List α) : List α :=
  match xs.findIdx? fun y => key y = key x with
  | some i => xs.set i x
  | none => xs ++ [x]

theorem keys_renew : (renew key x xs).map key = (enroll key x xs).map key := by
  unfold renew enroll
  cases found : xs.findIdx? fun y => key y = key x with
  | some i =>
    obtain ⟨bound, same, -⟩ := List.findIdx?_eq_some_iff_getElem.mp found
    have present : key xs[i] = key x := of_decide_eq_true same
    rw [if_pos (List.mem_map.mpr ⟨_, List.getElem_mem bound, present⟩)]
    have mapped : i < (xs.map key).length := by rwa [List.length_map]
    have own : key xs[i] = (xs.map key)[i] := (List.getElem_map key).symm
    show (xs.set i x).map key = xs.map key
    rw [List.map_set, ← present, own, List.set_getElem_self]
  | none =>
    have absent : key x ∉ xs.map key := by
      intro member
      obtain ⟨y, old, same⟩ := List.mem_map.mp member
      simpa [same] using List.findIdx?_eq_none_iff.mp found y old
    rw [if_neg absent]

/-! ### Lists of images -/

theorem map_expel (f : β → α) (k : κ) (ys : List β) :
    (expel (key ∘ f) k ys).map f = expel key k (ys.map f) := by
  simp only [expel, List.filter_map, Function.comp_def]

theorem map_enroll (f : β → α) (y : β) (ys : List β) :
    (enroll (key ∘ f) y ys).map f = enroll key (f y) (ys.map f) := by
  simp only [enroll, List.map_map, Function.comp_apply]
  split
  · rfl
  · rw [List.map_append, List.map_singleton]

end Roster
