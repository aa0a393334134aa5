import Tourni.Model.Tournament

/-!
# Entering the groups

`AddGroupsController.swift`: the dialog that adds a group and the button that generates the tournament. A
`Registration` is what a host can enter: names that the dialog accepts, two or more of them.
-/

namespace Tourni

structure AddGroupsController where
  tournament : Tournament := {}
  seed : Int := 1
  deriving DecidableEq, Repr

namespace AddGroupsController

/-- The handler of the "Add New Group" dialog. -/
def addGroup (c : AddGroupsController) (text : String) : AddGroupsController :=
  if text == "" || c.tournament.groups.any (·.name == some text) then c
  else { tournament := c.tournament.addGroup { name := some text, seed := some c.seed, status := false }
         seed := c.seed + 1 }

/-- `doneButtonPressed`, given the code `genCode` draws: nothing happens with fewer than two groups. -/
def doneButtonPressed (c : AddGroupsController) (gameCode : String) : Option Tournament :=
  if c.tournament.getNumGroups < 2 then none else c.tournament.generate gameCode

end AddGroupsController

/-- What the host enters for a tournament, and the code drawn for it. -/
structure Registration where
  names : List String
  title : String
  description : String
  gameCode : String
  enough : 2 ≤ names.length
  nonempty : ∀ name ∈ names, name ≠ ""
  distinct : names.Nodup

namespace Registration

def dialog (reg : Registration) : AddGroupsController :=
  reg.names.foldl AddGroupsController.addGroup
    { tournament := { title := some reg.title, description := some reg.description } }

def entered (names : List String) : List Group :=
  names.mapIdx fun i name => { name := some name, seed := some (i + 1 : Int), status := false }

def padded (reg : Registration) : List Group :=
  entered reg.names ++
    List.replicate (2 ^ Nat.clog 2 reg.names.length - reg.names.length)
      (Group.free (reg.names.length + 1))

theorem entered_append (names : List String) (name : String) :
    entered (names ++ [name]) =
      entered names ++ [{ name := some name, seed := some (names.length + 1 : Int), status := false }] := by
  simp [entered, List.mapIdx_append]

@[simp] theorem entered_length (names : List String) : (entered names).length = names.length := by
  simp [entered]

theorem mem_entered_name {names : List String} {text : String} :
    (entered names).any (·.name == some text) = true ↔ text ∈ names := by
  simp only [entered, List.any_eq_true, List.mem_mapIdx, beq_iff_eq]
  constructor
  · rintro ⟨_, ⟨i, bound, rfl⟩, same⟩
    obtain rfl := Option.some.inj same
    exact List.getElem_mem bound
  · intro member
    obtain ⟨i, bound, rfl⟩ := List.getElem_of_mem member
    exact ⟨_, ⟨i, bound, rfl⟩, rfl⟩

/-- The texts that the dialog accepts: those that are not empty and not among the names accepted before. -/
def accepted (texts : List String) : List String :=
  texts.foldl (fun names text => if text = "" ∨ text ∈ names then names else names ++ [text]) []

theorem accepted_append (texts : List String) (text : String) :
    accepted (texts ++ [text]) =
      if text = "" ∨ text ∈ accepted texts then accepted texts else accepted texts ++ [text] := by
  unfold accepted
  rw [List.foldl_append]
  rfl

theorem accepted_nonempty (texts : List String) : ∀ name ∈ accepted texts, name ≠ "" := by
  induction texts using List.reverseRecOn with
  | nil =>
    intro name member
    cases member
  | append_singleton texts text ih =>
    rw [accepted_append]
    split
    · exact ih
    · rename_i valid
      intro name member
      rcases List.mem_append.mp member with old | new
      · exact ih name old
      · obtain rfl := List.mem_singleton.mp new
        exact fun empty => valid (Or.inl empty)

theorem accepted_nodup (texts : List String) : (accepted texts).Nodup := by
  induction texts using List.reverseRecOn with
  | nil => exact List.nodup_nil
  | append_singleton texts text ih =>
    rw [accepted_append]
    split
    · exact ih
    · rename_i valid
      exact ih.append (List.nodup_singleton _)
        (List.disjoint_singleton.mpr fun member => valid (Or.inr member))

/-- Names that are all valid are all accepted. -/
theorem accepted_eq_self {names : List String} (nonempty : ∀ name ∈ names, name ≠ "")
    (distinct : names.Nodup) : accepted names = names := by
  induction names using List.reverseRecOn with
  | nil => rfl
  | append_singleton names name ih =>
    obtain ⟨before, -, apart⟩ := List.nodup_append.mp distinct
    have new : name ∉ names := fun member => apart name member name (by simp) rfl
    rw [accepted_append, ih (fun n member => nonempty n (by simp [member])) before, if_neg]
    exact not_or.mpr ⟨nonempty name (by simp), new⟩

/-- Whatever is typed into the dialog, the groups are the accepted names with the seeds `1, 2, ...`. -/
theorem foldl_addGroup (texts : List String) (t : Tournament) (fresh : t.groups = []) :
    texts.foldl AddGroupsController.addGroup { tournament := t } =
      { tournament := { t with groups := entered (accepted texts) }, seed := (accepted texts).length + 1 } := by
  induction texts using List.reverseRecOn with
  | nil => simp [entered, accepted, ← fresh]
  | append_singleton texts text ih =>
    have refused : (text == "" || (entered (accepted texts)).any (·.name == some text)) = true ↔
        text = "" ∨ text ∈ accepted texts := by
      rw [Bool.or_eq_true, beq_iff_eq, mem_entered_name]
    rw [List.foldl_append, ih, List.foldl_cons, List.foldl_nil, AddGroupsController.addGroup, accepted_append]
    by_cases valid : text = "" ∨ text ∈ accepted texts
    · rw [if_pos (refused.mpr valid), if_pos valid]
    · rw [if_neg (mt refused.mp valid), if_neg valid]
      simp [Tournament.addGroup, entered_append]

theorem dialog_eq (reg : Registration) :
    reg.dialog = {
      tournament := {
        title := some reg.title, description := some reg.description, groups := entered reg.names }
      seed := reg.names.length + 1 } := by
  rw [dialog, foldl_addGroup _ _ rfl, accepted_eq_self reg.nonempty reg.distinct]

theorem generated (reg : Registration) :
    reg.dialog.doneButtonPressed reg.gameCode = some {
      title := some reg.title
      description := some reg.description
      gameCode := some reg.gameCode
      groups := reg.padded
      winners := reg.padded
      roundList := [reg.padded] } := by
  obtain ⟨names, name, split⟩ : ∃ names name, reg.names = names ++ [name] :=
    ⟨_, _, (List.dropLast_append_getLast (List.ne_nil_of_length_pos (by have := reg.enough; omega))).symm⟩
  have last : (entered reg.names).getLast? =
      some { name := some name, seed := some (reg.names.length : Int), status := false } := by
    rw [split, entered_append, List.getLast?_concat]
    simp
  have bound := Tournament.pow_clog_lt_two_mul reg.enough
  rw [dialog_eq, AddGroupsController.doneButtonPressed,
    if_neg (by simp only [Tournament.getNumGroups, entered_length]; have := reg.enough; omega),
    Tournament.generate]
  simp only [last, Group.getSeed, Option.bind_eq_bind, Option.bind_some]
  rw [Tournament.addFree_eq _ _ _ (by simp only [entered_length]; have := reg.enough; omega)
    (by simp only [entered_length]; omega)]
  simp [padded]

def created (reg : Registration) : Tournament :=
  (reg.dialog.doneButtonPressed reg.gameCode).get (by rw [generated]; rfl)

theorem created_eq (reg : Registration) :
    reg.created = {
      title := some reg.title
      description := some reg.description
      gameCode := some reg.gameCode
      groups := reg.padded
      winners := reg.padded
      roundList := [reg.padded] } := by
  simp only [created, generated, Option.get_some]

/-! ### The padded groups -/

def rounds (reg : Registration) : Nat := Nat.clog 2 reg.names.length

theorem rounds_pos (reg : Registration) : 0 < reg.rounds := Nat.clog_pos (by decide) reg.enough

theorem names_le (reg : Registration) : reg.names.length ≤ 2 ^ reg.rounds := Nat.le_pow_clog (by decide) _

theorem pow_lt (reg : Registration) : 2 ^ reg.rounds < 2 * reg.names.length :=
  Tournament.pow_clog_lt_two_mul reg.enough

@[simp] theorem padded_length (reg : Registration) : reg.padded.length = 2 ^ reg.rounds := by
  have := reg.names_le
  simp only [padded, List.length_append, entered_length, List.length_replicate, rounds] at this ⊢
  omega

theorem padded_entered {reg : Registration} {i : Nat} (h : i < reg.names.length) :
    reg.padded[i]? = some { name := some reg.names[i], seed := some (i + 1 : Int), status := false } := by
  unfold padded
  rw [List.getElem?_append_left (by simpa using h)]
  simp [entered, h]

theorem padded_free {reg : Registration} {i : Nat} (h : reg.names.length ≤ i) (bound : i < 2 ^ reg.rounds) :
    reg.padded[i]? = some (.free (reg.names.length + 1)) := by
  unfold padded
  rw [List.getElem?_append_right (by simpa using h), List.getElem?_replicate, if_pos]
  rw [rounds] at bound
  simp only [entered_length]
  omega

theorem mem_padded {reg : Registration} {g : Group} (member : g ∈ reg.padded) :
    (∃ i, ∃ h : i < reg.names.length,
      g = { name := some reg.names[i], seed := some (i + 1 : Int), status := false }) ∨
    g = .free (reg.names.length + 1) := by
  rcases List.mem_append.mp member with member | member
  · obtain ⟨i, h, rfl⟩ := List.mem_mapIdx.mp member
    exact Or.inl ⟨i, h, rfl⟩
  · exact Or.inr (List.eq_of_mem_replicate member)

theorem padded_unmarked {reg : Registration} {g : Group} (member : g ∈ reg.padded) : g.status = false := by
  rcases mem_padded member with ⟨_, _, rfl⟩ | rfl
  · rfl
  · rfl

end Registration

/-! ### Two small tournaments -/

def three : Registration :=
  { names := ["A", "B", "C"], title := "Cup", description := "", gameCode := "abcd", enough := by decide
    nonempty := by decide, distinct := by decide }

def four : Registration :=
  { names := ["A", "B", "C", "D"], title := "Cup", description := "", gameCode := "abcd", enough := by decide
    nonempty := by decide, distinct := by decide }

end Tourni
