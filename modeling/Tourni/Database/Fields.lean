import Tourni.Model.Store

/-!
# The fields of a document

What `store` hands to `setData` and `getTournament` reads back, field by field. The bytes of the round list
are written and read by an archiver; `Document` is the case of an archiver that keeps what it was given.
-/

namespace Tourni

/-- The object in an archive; `other` is one that is no list of lists of dictionaries, nil among them. -/
inductive Unarchived where
  | lists (root : List (List Dictionary))
  | other

def Unarchived.asLists : Unarchived → Option (List (List Dictionary))
  | .lists root => some root
  | .other => none

/-- `NSKeyedArchiver` and `NSKeyedUnarchiver`; `none` is a thrown error, and `empty` is `Data()`. -/
structure Archiver (Bytes : Type) where
  empty : Bytes
  archivedData : List (List Dictionary) → Option Bytes
  unarchive : Bytes → Option Unarchived

/-- Unarchiving inverts archiving. -/
def Archiver.Inverts {Bytes : Type} (archiver : Archiver Bytes) : Prop :=
  ∀ root, ∃ bytes, archiver.archivedData root = some bytes ∧ archiver.unarchive bytes = some (.lists root)

/-- The value of a field; `other` is one of a type that no cast here takes. -/
inductive FieldValue (Bytes : Type) where
  | string (s : String)
  | null
  | maps (list : List Dictionary)
  | data (bytes : Bytes)
  | other

namespace FieldValue
variable {Bytes : Type}

def ofString : Option String → FieldValue Bytes
  | some s => .string s
  | none => .null

def asString : FieldValue Bytes → Option String
  | .string s => some s
  | _ => none

def asMaps : FieldValue Bytes → Option (List Dictionary)
  | .maps list => some list
  | _ => none

def asData : FieldValue Bytes → Option Bytes
  | .data bytes => some bytes
  | _ => none

@[simp] theorem asString_ofString (s : Option String) : asString (ofString s : FieldValue Bytes) = s := by
  cases s <;> rfl

end FieldValue

abbrev Fields (Bytes : Type) := List (String × FieldValue Bytes)

/-- The map that `store` puts together. -/
def Fields.of {Bytes : Type} (title : Option String) (groups : List Dictionary) (description : Option String)
    (winners losers : List Dictionary) (roundList : Bytes) : Fields Bytes := [
  ("title", .ofString title),
  ("groups", .maps groups),
  ("description", .ofString description),
  ("winners", .maps winners),
  ("losers", .maps losers),
  ("roundList", .data roundList)]

/-- `document.get(name) as! ...`: a missing field or a failing cast traps. -/
def Fields.get {Bytes α : Type} (fields : Fields Bytes) (name : String)
    (cast : FieldValue Bytes → Option α) : Option α := (fields.lookup name).bind cast

namespace Tournament
variable {Bytes : Type}

/-- `store`, given the archiver: the game code, and the fields put under it. -/
def storeFields (archiver : Archiver Bytes) (t : Tournament) : Option (String × Fields Bytes) := do
  let groupsDicList := t.groupstoDictionaryList
  let winnersDicList := t.winnerstoDictionaryList
  let losersDicList := t.loserstoDictionaryList
  let roundDicList := t.roundList.foldl (fun list groupList => list ++ [groupList.map Group.toDictionary]) []
  -- An error of the archiver is caught, and leaves `Data()`.
  let tempRoundDicList := (archiver.archivedData roundDicList).getD archiver.empty
  let code ← t.gameCode
  some (code, .of t.title groupsDicList t.description winnersDicList losersDicList tempRoundDicList)

/-- A loop of `getTournament` over a list of dictionaries. -/
def appendGroups (groups : List Group) (dictionaries : List Dictionary) : Option (List Group) :=
  dictionaries.foldlM (fun groups dictionary => (Group.ofDictionary dictionary).map (groups ++ [·])) groups

/-- `getTournament`, given the archiver: what the listener makes of the fields under the code `gc`. -/
def getFields (archiver : Archiver Bytes) (gc : String) (fields : Fields Bytes) : Option Tournament := do
  let name ← fields.get "title" FieldValue.asString
  let description ← fields.get "description" FieldValue.asString
  let groupsMapList ← fields.get "groups" FieldValue.asMaps
  let winnersMapList ← fields.get "winners" FieldValue.asMaps
  let losersMapList ← fields.get "losers" FieldValue.asMaps
  let tempRoundDictList ← fields.get "roundList" FieldValue.asData
  let tournament : Tournament := { title := some name, description := some description, gameCode := some gc }
  let groups ← appendGroups tournament.groups groupsMapList
  let winners ← appendGroups tournament.winners winnersMapList
  let losers ← appendGroups tournament.losers losersMapList
  -- An error of the unarchiver is caught, and leaves the round list empty.
  let roundList ← match archiver.unarchive tempRoundDictList with
    | some roundDictList => do
      let roundDictList ← roundDictList.asLists
      roundDictList.foldlM (fun lists dictionaryList => (appendGroups [] dictionaryList).map (lists ++ [·]))
        tournament.roundList
    | none => some tournament.roundList
  some { tournament with groups, winners, losers, roundList }

end Tournament

/-! ### The loops -/

theorem foldl_append {α β : Type*} (f : α → β) (xs : List α) (ys : List β) :
    xs.foldl (fun ys x => ys ++ [f x]) ys = ys ++ xs.map f := by
  induction xs generalizing ys with
  | nil => simp
  | cons x xs ih => simp [ih]

theorem foldlM_append {α β : Type*} (f : α → Option β) (xs : List α) (ys : List β) :
    xs.foldlM (fun ys x => (f x).map (ys ++ [·])) ys = (xs.mapM f).map (ys ++ ·) := by
  induction xs generalizing ys with
  | nil => simp
  | cons x xs ih =>
    rw [List.foldlM_cons, List.mapM_cons]
    cases f x with
    | none => rfl
    | some y =>
      simp only [Option.map_some, Option.bind_eq_bind, Option.bind_some, ih]
      cases xs.mapM f <;> simp

theorem appendGroups_nil (dictionaries : List Dictionary) :
    Tournament.appendGroups [] dictionaries = dictionaries.mapM Group.ofDictionary := by
  unfold Tournament.appendGroups
  rw [foldlM_append]
  cases dictionaries.mapM Group.ofDictionary <;> rfl

theorem roundLists_eq (root : List (List Dictionary)) :
    root.foldlM (fun lists dictionaryList => (Tournament.appendGroups [] dictionaryList).map (lists ++ [·])) [] =
      root.mapM (·.mapM Group.ofDictionary) := by
  simp only [appendGroups_nil]
  rw [foldlM_append]
  cases root.mapM (·.mapM Group.ofDictionary) <;> rfl

/-! ### Field by field -/

variable {Bytes : Type} {archiver : Archiver Bytes} {code : String} {t : Tournament}

/-- The loop of `getTournament` over the unarchived round list. -/
def loadRounds (archiver : Archiver Bytes) (bytes : Bytes) : Option (List (List Group)) :=
  match archiver.unarchive bytes with
  | some object => object.asLists.bind (·.mapM (·.mapM Group.ofDictionary))
  | none => some []

/-- The document loads when each of its fields does. -/
theorem getFields_eq_some_iff {fields : Fields Bytes} : Tournament.getFields archiver code fields = some t ↔
    ∃ title description groups winners losers roundList,
      fields.get "title" FieldValue.asString = some title ∧
      fields.get "description" FieldValue.asString = some description ∧
      (fields.get "groups" FieldValue.asMaps).bind (·.mapM Group.ofDictionary) = some groups ∧
      (fields.get "winners" FieldValue.asMaps).bind (·.mapM Group.ofDictionary) = some winners ∧
      (fields.get "losers" FieldValue.asMaps).bind (·.mapM Group.ofDictionary) = some losers ∧
      (fields.get "roundList" FieldValue.asData).bind (loadRounds archiver) = some roundList ∧
      t = { title := some title, description := some description, gameCode := some code, groups, winners, losers,
            roundList } := by
  constructor
  · intro loaded
    obtain ⟨title, hasTitle, loaded⟩ := Option.bind_eq_some_iff.mp loaded
    obtain ⟨description, hasDescription, loaded⟩ := Option.bind_eq_some_iff.mp loaded
    obtain ⟨gs, hasGroups, loaded⟩ := Option.bind_eq_some_iff.mp loaded
    obtain ⟨ws, hasWinners, loaded⟩ := Option.bind_eq_some_iff.mp loaded
    obtain ⟨ls, hasLosers, loaded⟩ := Option.bind_eq_some_iff.mp loaded
    obtain ⟨bytes, hasRounds, loaded⟩ := Option.bind_eq_some_iff.mp loaded
    obtain ⟨groups, loadedGroups, loaded⟩ := Option.bind_eq_some_iff.mp loaded
    obtain ⟨winners, loadedWinners, loaded⟩ := Option.bind_eq_some_iff.mp loaded
    obtain ⟨losers, loadedLosers, loaded⟩ := Option.bind_eq_some_iff.mp loaded
    rw [appendGroups_nil] at loadedGroups loadedWinners loadedLosers
    obtain ⟨roundList, loadedRounds, same⟩ : ∃ roundList, loadRounds archiver bytes = some roundList ∧
        t = { title := some title, description := some description, gameCode := some code, groups, winners, losers,
              roundList } := by
      unfold loadRounds
      cases unarchived : archiver.unarchive bytes with
      | none =>
        rw [unarchived] at loaded
        exact ⟨[], rfl, (Option.some.inj loaded).symm⟩
      | some object =>
        rw [unarchived] at loaded
        obtain ⟨root, isLists, loaded⟩ := Option.bind_eq_some_iff.mp loaded
        obtain ⟨roundList, loadedRounds, loaded⟩ := Option.bind_eq_some_iff.mp loaded
        refine ⟨roundList, ?_, (Option.some.inj loaded).symm⟩
        exact Option.bind_eq_some_iff.mpr ⟨root, isLists, (roundLists_eq root).symm.trans loadedRounds⟩
    exact ⟨title, description, groups, winners, losers, roundList, hasTitle, hasDescription,
      Option.bind_eq_some_iff.mpr ⟨gs, hasGroups, loadedGroups⟩,
      Option.bind_eq_some_iff.mpr ⟨ws, hasWinners, loadedWinners⟩,
      Option.bind_eq_some_iff.mpr ⟨ls, hasLosers, loadedLosers⟩,
      Option.bind_eq_some_iff.mpr ⟨bytes, hasRounds, loadedRounds⟩, same⟩
  · rintro ⟨title, description, groups, winners, losers, roundList, hasTitle, hasDescription, hasGroups, hasWinners,
      hasLosers, hasRounds, rfl⟩
    obtain ⟨gs, hasGroups, loadedGroups⟩ := Option.bind_eq_some_iff.mp hasGroups
    obtain ⟨ws, hasWinners, loadedWinners⟩ := Option.bind_eq_some_iff.mp hasWinners
    obtain ⟨ls, hasLosers, loadedLosers⟩ := Option.bind_eq_some_iff.mp hasLosers
    obtain ⟨bytes, hasRounds, loadedRounds⟩ := Option.bind_eq_some_iff.mp hasRounds
    unfold Tournament.getFields
    simp only [hasTitle, hasDescription, hasGroups, hasWinners, hasLosers, hasRounds, Option.bind_eq_bind,
      Option.bind_some, appendGroups_nil, loadedGroups, loadedWinners, loadedLosers]
    unfold loadRounds at loadedRounds
    cases unarchived : archiver.unarchive bytes with
    | none =>
      rw [unarchived] at loadedRounds
      obtain rfl := Option.some.inj loadedRounds
      rfl
    | some object =>
      rw [unarchived] at loadedRounds
      obtain ⟨root, isLists, loadedRounds⟩ := Option.bind_eq_some_iff.mp loadedRounds
      have rounds := (roundLists_eq root).trans loadedRounds
      simp only [appendGroups_nil] at rounds
      simp only [isLists, rounds, Option.bind_some]

/-! ### The round trip -/

/-- The fields that are written of a storable tournament load as the same tournament. -/
theorem stored_fields_load (inverts : archiver.Inverts) (storable : Storable code t) :
    ∃ fields, t.storeFields archiver = some (code, fields) ∧ Tournament.getFields archiver code fields = some t := by
  obtain ⟨bytes, archived, unarchived⟩ := inverts (t.roundList.map (·.map Group.toDictionary))
  obtain ⟨title, hasTitle⟩ := Option.isSome_iff_exists.mp storable.title
  obtain ⟨description, hasDescription⟩ := Option.isSome_iff_exists.mp storable.description
  have rounds : loadRounds archiver bytes = some t.roundList := by
    unfold loadRounds
    rw [unarchived]
    exact mapM_some_of_map fun gs member => groups_roundtrip (storable.roundList gs member)
  refine ⟨.of t.title t.groupstoDictionaryList t.description t.winnerstoDictionaryList t.loserstoDictionaryList bytes,
    ?_, ?_⟩
  · unfold Tournament.storeFields
    simp only [foldl_append, List.nil_append, archived, Option.getD_some, storable.code]
    rfl
  · refine getFields_eq_some_iff.mpr ⟨title, description, t.groups, t.winners, t.losers, t.roundList, ?_, ?_,
      groups_roundtrip storable.groups, groups_roundtrip storable.winners, groups_roundtrip storable.losers, rounds, ?_⟩
    · exact (FieldValue.asString_ofString t.title).trans hasTitle
    · exact (FieldValue.asString_ofString t.description).trans hasDescription
    · rw [← hasTitle, ← hasDescription, ← storable.code]

/-- The document that `store` writes of a tournament loads without a failing cast, and gives every field of
the tournament back. -/
theorem loading_undoes_storing (inverts : archiver.Inverts) (storable : Storable code t) :
    ∃ fields, t.storeFields archiver = some (code, fields) ∧
      Tournament.getFields archiver code fields = some t :=
  stored_fields_load inverts storable

/-! ### The documents of the other modules -/

/-- Bytes that are the archived lists themselves. -/
def keyedArchiver : Archiver Data where
  empty := .empty
  archivedData root := some (.archived root)
  unarchive
    | .empty => none
    | .archived root => some (.lists root)

theorem keyedArchiver_inverts : keyedArchiver.Inverts := fun root => ⟨.archived root, rfl, rfl⟩

def Document.fields (document : Document) : Fields Data :=
  .of document.title document.groups document.description document.winners document.losers document.roundList

theorem storeFields_keyed (t : Tournament) :
    t.storeFields keyedArchiver = t.store.map fun stored => (stored.1, stored.2.fields) := by
  unfold Tournament.storeFields Tournament.store
  cases t.gameCode with
  | none => rfl
  | some code =>
    simp only [foldl_append, List.nil_append]
    rfl

theorem getFields_keyed (code : String) (document : Document) :
    Tournament.getFields keyedArchiver code document.fields = Tournament.getTournament code document := by
  have text : ∀ name value, document.fields.lookup name = some (.ofString value) →
      document.fields.get name FieldValue.asString = value := by
    intro name value here
    rw [Fields.get, here]
    exact FieldValue.asString_ofString value
  have maps : ∀ name list, document.fields.lookup name = some (.maps list) →
      (document.fields.get name FieldValue.asMaps).bind (·.mapM Group.ofDictionary) =
        list.mapM Group.ofDictionary := by
    intro name list here
    rw [Fields.get, here]
    rfl
  have rounds : (document.fields.get "roundList" FieldValue.asData).bind (loadRounds keyedArchiver) =
      Tournament.roundLists document.roundList := by
    show loadRounds keyedArchiver document.roundList = _
    cases document.roundList <;> rfl
  ext t
  rw [getFields_eq_some_iff, text "title" _ rfl, text "description" _ rfl, maps "groups" _ rfl, maps "winners" _ rfl,
    maps "losers" _ rfl, rounds]
  simp only [Tournament.getTournament, Option.bind_eq_bind, Option.bind_eq_some_iff, Option.some.injEq]
  constructor
  · rintro ⟨title, description, groups, winners, losers, roundList, hasTitle, hasDescription, hasGroups, hasWinners,
      hasLosers, hasRounds, rfl⟩
    exact ⟨title, hasTitle, description, hasDescription, groups, hasGroups, winners, hasWinners, losers, hasLosers,
      roundList, hasRounds, rfl⟩
  · rintro ⟨title, hasTitle, description, hasDescription, groups, hasGroups, winners, hasWinners, losers, hasLosers,
      roundList, hasRounds, rfl⟩
    exact ⟨title, description, groups, winners, losers, roundList, hasTitle, hasDescription, hasGroups, hasWinners,
      hasLosers, hasRounds, rfl⟩

/-- A list of three groups, one of them decided, and no losers. -/
theorem loading_undoes_storing_three :
    let t : Tournament := {
      title := some "Cup", description := some "", gameCode := some "abcd"
      groups := [.free 1, .free 2], winners := [.free 2]
      roundList := [[.free 1, (Group.free 2).setStatus true], [], [.free 2]] }
    ∃ fields, t.storeFields keyedArchiver = some ("abcd", fields) ∧
      Tournament.getFields keyedArchiver "abcd" fields = some t := by
  refine loading_undoes_storing keyedArchiver_inverts ⟨rfl, rfl, rfl, ?_, ?_, ?_, ?_⟩
  · decide
  · decide
  · decide
  · decide

end Tourni
