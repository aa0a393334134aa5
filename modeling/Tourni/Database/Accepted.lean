import Tourni.Database.Fields

/-!
# What can be loaded

`getTournament` casts every field it reads, and traps on the first cast that fails. What it accepts is stored again
without loss, so loading and storing settle after one round.
-/

namespace Tourni

/-- A number with a value in `Int`. A boolean is one. -/
def AnyObject.IsInt : AnyObject → Prop
  | .int _ | .bool _ => True
  | .double q => ∃ i : Int, -2 ^ 63 ≤ i ∧ i < 2 ^ 63 ∧ q = i
  | .string _ | .null | .other => False

/-- A number with the value 0 or 1. A boolean is one. -/
def AnyObject.IsBool : AnyObject → Prop
  | .bool _ => True
  | .int i => i = 0 ∨ i = 1
  | .double q => q = 0 ∨ q = 1
  | .string _ | .null | .other => False

/-- The dictionary has the three entries of a group. -/
def Readable (dictionary : Dictionary) : Prop :=
  ∃ name seed status, dictionary.lookup "name" = some (.string name) ∧
    dictionary.lookup "seed" = some seed ∧ seed.IsInt ∧ dictionary.lookup "status" = some status ∧ status.IsBool

section
variable {Bytes : Type}

def HasText (fields : Fields Bytes) (name : String) : Prop := ∃ text, fields.lookup name = some (.string text)

def HasGroups (fields : Fields Bytes) (name : String) : Prop :=
  ∃ list, fields.lookup name = some (.maps list) ∧ ∀ dictionary ∈ list, Readable dictionary

/-- The six fields have their types, all the way down; bytes that cannot be unarchived are taken for an empty round
list, but an object of another type is not. -/
structure WellTyped (archiver : Archiver Bytes) (fields : Fields Bytes) : Prop where
  title : HasText fields "title"
  description : HasText fields "description"
  groups : HasGroups fields "groups"
  winners : HasGroups fields "winners"
  losers : HasGroups fields "losers"
  roundList : ∃ bytes, fields.lookup "roundList" = some (.data bytes) ∧
    ∀ object, archiver.unarchive bytes = some object →
      ∃ root, object = .lists root ∧ ∀ list ∈ root, ∀ dictionary ∈ list, Readable dictionary

end

/-! ### Groups -/

theorem asInt_isSome_iff {object : AnyObject} : object.asInt.isSome ↔ object.IsInt := by
  cases object with
  | int i => exact iff_of_true rfl trivial
  | bool b => exact iff_of_true rfl trivial
  | double q =>
    show (if q.den = 1 ∧ -2 ^ 63 ≤ q.num ∧ q.num < 2 ^ 63 then some q.num else none).isSome ↔
      ∃ i : Int, -2 ^ 63 ≤ i ∧ i < 2 ^ 63 ∧ q = i
    rw [Option.isSome_ite]
    constructor
    · rintro ⟨integral, low, high⟩
      exact ⟨q.num, low, high, ((Rat.den_eq_one_iff q).mp integral).symm⟩
    · rintro ⟨i, low, high, rfl⟩
      exact ⟨Rat.den_intCast i, low, high⟩
  | string _ | null | other => exact iff_of_false Bool.false_ne_true id

theorem asBool_isSome_iff {object : AnyObject} : object.asBool.isSome ↔ object.IsBool := by
  cases object with
  | bool b => exact iff_of_true rfl trivial
  | int i =>
    unfold AnyObject.asBool AnyObject.IsBool
    by_cases zero : i = 0 <;> by_cases one : i = 1 <;> simp [zero, one]
  | double q =>
    unfold AnyObject.asBool AnyObject.IsBool
    by_cases zero : q = 0 <;> by_cases one : q = 1 <;> simp [zero, one]
  | string _ | null | other => exact iff_of_false Bool.false_ne_true id

theorem ofDictionary_isSome_iff {dictionary : Dictionary} :
    (Group.ofDictionary dictionary).isSome ↔ Readable dictionary := by
  constructor
  · intro loads
    obtain ⟨g, loaded⟩ := Option.isSome_iff_exists.mp loads
    obtain ⟨name, hasName, loaded⟩ := Option.bind_eq_some_iff.mp loaded
    obtain ⟨seed, hasSeed, loaded⟩ := Option.bind_eq_some_iff.mp loaded
    obtain ⟨status, hasStatus, -⟩ := Option.bind_eq_some_iff.mp loaded
    obtain ⟨nameObject, atName, isString⟩ := Option.bind_eq_some_iff.mp hasName
    obtain ⟨seedObject, atSeed, isInt⟩ := Option.bind_eq_some_iff.mp hasSeed
    obtain ⟨statusObject, atStatus, isBool⟩ := Option.bind_eq_some_iff.mp hasStatus
    refine ⟨name, seedObject, statusObject, ?_, atSeed, ?_, atStatus, ?_⟩
    · cases nameObject <;> cases isString
      exact atName
    · exact asInt_isSome_iff.mp (Option.isSome_of_eq_some isInt)
    · exact asBool_isSome_iff.mp (Option.isSome_of_eq_some isBool)
  · rintro ⟨name, seedObject, statusObject, atName, atSeed, isInt, atStatus, isBool⟩
    obtain ⟨seed, hasSeed⟩ := Option.isSome_iff_exists.mp (asInt_isSome_iff.mpr isInt)
    obtain ⟨status, hasStatus⟩ := Option.isSome_iff_exists.mp (asBool_isSome_iff.mpr isBool)
    simp only [Group.ofDictionary, atName, atSeed, atStatus, Option.bind_some, AnyObject.asString, hasSeed, hasStatus,
      Option.bind_eq_bind, Option.isSome_some]

theorem named_of_ofDictionary {dictionary : Dictionary} {g : Group}
    (loaded : Group.ofDictionary dictionary = some g) : g.Named := by
  obtain ⟨name, -, loaded⟩ := Option.bind_eq_some_iff.mp loaded
  obtain ⟨seed, -, loaded⟩ := Option.bind_eq_some_iff.mp loaded
  obtain ⟨status, -, loaded⟩ := Option.bind_eq_some_iff.mp loaded
  obtain rfl := Option.some.inj loaded
  exact ⟨rfl, rfl⟩

theorem mapM_isSome_iff {α β : Type*} {f : α → Option β} {xs : List α} :
    (xs.mapM f).isSome ↔ ∀ x ∈ xs, (f x).isSome := by
  induction xs with
  | nil => simp
  | cons x xs ih =>
    rw [List.mapM_cons, List.forall_mem_cons, ← ih]
    cases f x with
    | none => simp
    | some y =>
      cases xs.mapM f with
      | none => simp
      | some ys => simp

theorem forall_of_mapM {α β : Type*} {f : α → Option β} {P : β → Prop} (each : ∀ x y, f x = some y → P y)
    {xs : List α} {ys : List β} (mapped : xs.mapM f = some ys) : ∀ y ∈ ys, P y := by
  induction xs generalizing ys with
  | nil =>
    obtain rfl := Option.some.inj mapped
    intro y member
    cases member
  | cons x xs ih =>
    rw [List.mapM_cons] at mapped
    obtain ⟨y, first, rest⟩ := Option.bind_eq_some_iff.mp mapped
    obtain ⟨zs, others, whole⟩ := Option.bind_eq_some_iff.mp rest
    obtain rfl := Option.some.inj whole
    rw [List.forall_mem_cons]
    exact ⟨each x y first, ih others⟩

theorem groups_isSome_iff {dictionaries : List Dictionary} :
    (dictionaries.mapM Group.ofDictionary).isSome ↔ ∀ dictionary ∈ dictionaries, Readable dictionary := by
  rw [mapM_isSome_iff]
  exact forall₂_congr fun _ _ => ofDictionary_isSome_iff

theorem named_of_mapM {dictionaries : List Dictionary} {gs : List Group}
    (loaded : dictionaries.mapM Group.ofDictionary = some gs) : ∀ g ∈ gs, g.Named :=
  forall_of_mapM (fun _ _ => named_of_ofDictionary) loaded

/-! ### Fields -/

variable {Bytes : Type} {archiver : Archiver Bytes} {code : String} {fields : Fields Bytes} {t : Tournament}

/-! ### What is accepted -/

theorem text_isSome_iff {name : String} : (fields.get name FieldValue.asString).isSome ↔ HasText fields name := by
  unfold Fields.get HasText
  cases fields.lookup name with
  | none => simp
  | some value => cases value <;> simp [FieldValue.asString]

theorem maps_isSome_iff {name : String} :
    ((fields.get name FieldValue.asMaps).bind (·.mapM Group.ofDictionary)).isSome ↔ HasGroups fields name := by
  unfold Fields.get HasGroups
  cases fields.lookup name with
  | none => simp
  | some value =>
    cases value with
    | maps list => simp [FieldValue.asMaps, groups_isSome_iff]
    | string _ | null | data _ | other => simp [FieldValue.asMaps]

theorem loadRounds_isSome_iff {bytes : Bytes} : (loadRounds archiver bytes).isSome ↔
    ∀ object, archiver.unarchive bytes = some object →
      ∃ root, object = .lists root ∧ ∀ list ∈ root, ∀ dictionary ∈ list, Readable dictionary := by
  unfold loadRounds
  cases archiver.unarchive bytes with
  | none => simp
  | some object =>
    simp only [Option.some.injEq, forall_eq']
    cases object with
    | lists root => simp [Unarchived.asLists, mapM_isSome_iff, ofDictionary_isSome_iff]
    | other => simp [Unarchived.asLists]

theorem rounds_isSome_iff : ((fields.get "roundList" FieldValue.asData).bind (loadRounds archiver)).isSome ↔
    ∃ bytes, fields.lookup "roundList" = some (.data bytes) ∧
      ∀ object, archiver.unarchive bytes = some object →
        ∃ root, object = .lists root ∧ ∀ list ∈ root, ∀ dictionary ∈ list, Readable dictionary := by
  unfold Fields.get
  cases fields.lookup "roundList" with
  | none => simp
  | some value =>
    cases value with
    | data bytes => simp [FieldValue.asData, loadRounds_isSome_iff]
    | string _ | null | maps _ | other => simp [FieldValue.asData]

theorem getFields_isSome_iff : (Tournament.getFields archiver code fields).isSome ↔ WellTyped archiver fields := by
  constructor
  · intro loads
    obtain ⟨t, loaded⟩ := Option.isSome_iff_exists.mp loads
    obtain ⟨_, _, _, _, _, _, title, description, groups, winners, losers, roundList, -⟩ :=
      getFields_eq_some_iff.mp loaded
    exact ⟨text_isSome_iff.mp (by rw [title]; rfl), text_isSome_iff.mp (by rw [description]; rfl),
      maps_isSome_iff.mp (by rw [groups]; rfl), maps_isSome_iff.mp (by rw [winners]; rfl),
      maps_isSome_iff.mp (by rw [losers]; rfl), rounds_isSome_iff.mp (by rw [roundList]; rfl)⟩
  · rintro ⟨title, description, groups, winners, losers, roundList⟩
    obtain ⟨title, hasTitle⟩ := Option.isSome_iff_exists.mp (text_isSome_iff.mpr title)
    obtain ⟨description, hasDescription⟩ := Option.isSome_iff_exists.mp (text_isSome_iff.mpr description)
    obtain ⟨groups, hasGroups⟩ := Option.isSome_iff_exists.mp (maps_isSome_iff.mpr groups)
    obtain ⟨winners, hasWinners⟩ := Option.isSome_iff_exists.mp (maps_isSome_iff.mpr winners)
    obtain ⟨losers, hasLosers⟩ := Option.isSome_iff_exists.mp (maps_isSome_iff.mpr losers)
    obtain ⟨roundList, hasRounds⟩ := Option.isSome_iff_exists.mp (rounds_isSome_iff.mpr roundList)
    exact Option.isSome_iff_exists.mpr ⟨_, getFields_eq_some_iff.mpr ⟨title, description, groups, winners, losers,
      roundList, hasTitle, hasDescription, hasGroups, hasWinners, hasLosers, hasRounds, rfl⟩⟩

/-- Whatever was loaded has everything that storing it asks for. -/
theorem storable_of_loaded (loaded : Tournament.getFields archiver code fields = some t) : Storable code t := by
  obtain ⟨_, _, _, _, _, _, -, -, hasGroups, hasWinners, hasLosers, hasRounds, rfl⟩ :=
    getFields_eq_some_iff.mp loaded
  obtain ⟨_, -, groups⟩ := Option.bind_eq_some_iff.mp hasGroups
  obtain ⟨_, -, winners⟩ := Option.bind_eq_some_iff.mp hasWinners
  obtain ⟨_, -, losers⟩ := Option.bind_eq_some_iff.mp hasLosers
  obtain ⟨bytes, -, rounds⟩ := Option.bind_eq_some_iff.mp hasRounds
  refine ⟨rfl, rfl, rfl, named_of_mapM groups, named_of_mapM winners, named_of_mapM losers, ?_⟩
  unfold loadRounds at rounds
  cases unarchived : archiver.unarchive bytes with
  | none =>
    rw [unarchived] at rounds
    obtain rfl := Option.some.inj rounds
    intro gs member
    cases member
  | some object =>
    rw [unarchived] at rounds
    obtain ⟨root, -, rounds⟩ := Option.bind_eq_some_iff.mp rounds
    exact forall_of_mapM (fun _ _ => named_of_mapM) rounds

/-- The documents that load are the well-typed ones, and what was loaded is stored and loaded again without loss. -/
theorem loads_iff (inverts : archiver.Inverts) : WellTyped archiver fields ↔
    ∃ t again, Tournament.getFields archiver code fields = some t ∧ t.storeFields archiver = some (code, again) ∧
      Tournament.getFields archiver code again = some t := by
  have accepted : (Tournament.getFields archiver code fields).isSome ↔ WellTyped archiver fields := getFields_isSome_iff
  rw [← accepted, Option.isSome_iff_exists]
  constructor
  · rintro ⟨t, loaded⟩
    obtain ⟨again, stored, reloaded⟩ := stored_fields_load inverts (storable_of_loaded loaded)
    exact ⟨t, again, loaded, stored, reloaded⟩
  · rintro ⟨t, -, loaded, -, -⟩
    exact ⟨t, loaded⟩

/-- A document of another hand: the fields in another order, one that nothing reads, numbers of other types, and bytes
that cannot be unarchived. -/
theorem loads_iff_reordered :
    let fields : Fields Data := [("winners", .maps []), ("roundList", .data .empty), ("rank", .null),
      ("losers", .maps [[("status", .int 1), ("seed", .double 2), ("name", .string "A")]]), ("groups", .maps []),
      ("description", .string ""), ("title", .string "Cup")]
    WellTyped keyedArchiver fields ↔
      ∃ t again, Tournament.getFields keyedArchiver "abcd" fields = some t ∧
        t.storeFields keyedArchiver = some ("abcd", again) ∧
        Tournament.getFields keyedArchiver "abcd" again = some t :=
  loads_iff keyedArchiver_inverts

end Tourni
