import Tourni.Model.Tournament

/-!
# Documents

`store` and `getTournament` of `Tournament.swift`. Firestore returns the map it was given, archiving is
inverted by unarchiving, and strings, integers and booleans survive bridging to `AnyObject` and back. A cast of a
number goes by its value, whatever type it was stored with.
-/

namespace Tourni

/-- A bridged value. A `double` is finite and not negative zero, `null` is what a nil optional becomes, and `other` is a
value that no cast here takes. -/
inductive AnyObject where
  | string (s : String)
  | int (i : Int)
  | double (q : ℚ)
  | bool (b : Bool)
  | null
  | other
  deriving DecidableEq, Repr

namespace AnyObject

def ofString : Option String → AnyObject
  | some s => .string s
  | none => .null

def ofInt : Option Int → AnyObject
  | some i => .int i
  | none => .null

def asString : AnyObject → Option String
  | .string s => some s
  | _ => none

/-- A number is cast when its value is an `Int`; a boolean is the number 0 or 1. -/
def asInt : AnyObject → Option Int
  | .int i => some i
  | .double q => if q.den = 1 ∧ -2 ^ 63 ≤ q.num ∧ q.num < 2 ^ 63 then some q.num else none
  | .bool b => some b.toInt
  | _ => none

/-- A number is cast when its value is 0 or 1. -/
def asBool : AnyObject → Option Bool
  | .bool b => some b
  | .int i => if i = 0 then some false else if i = 1 then some true else none
  | .double q => if q = 0 then some false else if q = 1 then some true else none
  | _ => none

end AnyObject

abbrev Dictionary := List (String × AnyObject)

def Group.toDictionary (g : Group) : Dictionary :=
  [("name", .ofString g.name), ("seed", .ofInt g.seed), ("status", .bool g.status)]

/-- The group `getTournament` builds from a dictionary; a missing key or a failing cast traps. -/
def Group.ofDictionary (dictionary : Dictionary) : Option Group := do
  let name ← (dictionary.lookup "name").bind AnyObject.asString
  let seed ← (dictionary.lookup "seed").bind AnyObject.asInt
  let status ← (dictionary.lookup "status").bind AnyObject.asBool
  some { name := some name, seed := some seed, status }

/-- The bytes written by `NSKeyedArchiver`; `empty` is `Data()`. -/
inductive Data where
  | empty
  | archived (root : List (List Dictionary))
  deriving DecidableEq, Repr, Inhabited

structure Document where
  title : Option String
  groups : List Dictionary
  description : Option String
  winners : List Dictionary
  losers : List Dictionary
  roundList : Data
  deriving DecidableEq, Repr, Inhabited

namespace Tournament

def groupstoDictionaryList (t : Tournament) : List Dictionary := t.groups.map Group.toDictionary

def winnerstoDictionaryList (t : Tournament) : List Dictionary := t.winners.map Group.toDictionary

def loserstoDictionaryList (t : Tournament) : List Dictionary := t.losers.map Group.toDictionary

/-- `store`: the game code the document is put under, and the document. -/
def store (t : Tournament) : Option (String × Document) := do
  let code ← t.gameCode
  some (code, {
    title := t.title
    groups := t.groupstoDictionaryList
    description := t.description
    winners := t.winnerstoDictionaryList
    losers := t.loserstoDictionaryList
    roundList := .archived (t.roundList.map (·.map Group.toDictionary)) })

/-- The loop of `getTournament` over the unarchived lists; the error of `Data()` is caught. -/
def roundLists : Data → Option (List (List Group))
  | .empty => some []
  | .archived root => root.mapM (·.mapM Group.ofDictionary)

/-- `getTournament`: what the listener makes of a document under the code `gc`. -/
def getTournament (gc : String) (document : Document) : Option Tournament := do
  let title ← document.title
  let description ← document.description
  let groups ← document.groups.mapM Group.ofDictionary
  let winners ← document.winners.mapM Group.ofDictionary
  let losers ← document.losers.mapM Group.ofDictionary
  let roundList ← roundLists document.roundList
  some { title := some title, description := some description, gameCode := some gc, groups, winners,
         losers, roundList }

end Tournament

/-! ### What can be loaded back -/

/-- A group whose dictionary can be read back. -/
def Group.Named (g : Group) : Prop := g.name.isSome ∧ g.seed.isSome

instance (g : Group) : Decidable g.Named := inferInstanceAs (Decidable (_ ∧ _))

/-- A tournament whose document can be read back under `code`. -/
structure Storable (code : String) (t : Tournament) : Prop where
  code : t.gameCode = some code
  title : t.title.isSome
  description : t.description.isSome
  groups : ∀ g ∈ t.groups, g.Named
  winners : ∀ g ∈ t.winners, g.Named
  losers : ∀ g ∈ t.losers, g.Named
  roundList : ∀ gs ∈ t.roundList, ∀ g ∈ gs, g.Named

theorem Group.named_of_entry {g h : Group} (same : g.entry = h.entry) (named : h.Named) : g.Named := by
  obtain ⟨name, seed⟩ := Group.entry_eq_iff.mp same
  rwa [Group.Named, name, seed]

theorem ofDictionary_toDictionary {g : Group} (named : g.Named) :
    Group.ofDictionary g.toDictionary = some g := by
  obtain ⟨name, seed, status⟩ := g
  obtain ⟨name, rfl⟩ := Option.isSome_iff_exists.mp named.1
  obtain ⟨seed, rfl⟩ := Option.isSome_iff_exists.mp named.2
  rfl

theorem mapM_some_of_map {α β : Type*} {f : α → Option β} {g : β → α} {xs : List β}
    (inverse : ∀ x ∈ xs, f (g x) = some x) : (xs.map g).mapM f = some xs := by
  induction xs with
  | nil => rfl
  | cons x xs ih =>
    rw [List.map_cons, List.mapM_cons, inverse x (by simp), ih fun y member => inverse y (by simp [member])]
    rfl

theorem groups_roundtrip {gs : List Group} (named : ∀ g ∈ gs, g.Named) :
    (gs.map Group.toDictionary).mapM Group.ofDictionary = some gs :=
  mapM_some_of_map fun g member => ofDictionary_toDictionary (named g member)

/-- Loading the stored document of a storable tournament gives the tournament back. -/
theorem load_store {code : String} {t : Tournament} (storable : Storable code t) :
    ∃ document, t.store = some (code, document) ∧ Tournament.getTournament code document = some t := by
  obtain ⟨title, description, groups, gameCode, winners, losers, roundList⟩ := t
  obtain ⟨sameCode, hasTitle, hasDescription, hgroups, hwinners, hlosers, hrounds⟩ := storable
  obtain ⟨title, rfl⟩ := Option.isSome_iff_exists.mp hasTitle
  obtain ⟨description, rfl⟩ := Option.isSome_iff_exists.mp hasDescription
  dsimp only at sameCode hgroups hwinners hlosers hrounds
  subst sameCode
  refine ⟨_, rfl, ?_⟩
  have rounds : (roundList.map (·.map Group.toDictionary)).mapM (·.mapM Group.ofDictionary) =
      some roundList := mapM_some_of_map fun gs member => groups_roundtrip (hrounds gs member)
  simp only [Tournament.getTournament, Tournament.groupstoDictionaryList,
    Tournament.winnerstoDictionaryList, Tournament.loserstoDictionaryList, Tournament.roundLists,
    groups_roundtrip hgroups, groups_roundtrip hwinners, groups_roundtrip hlosers, rounds]
  rfl

/-! ### What was loaded -/

theorem toDictionary_of_ofDictionary {g h : Group} (loaded : Group.ofDictionary g.toDictionary = some h) :
    h = g := by
  obtain ⟨name, seed, status⟩ := g
  cases name with
  | none => cases loaded
  | some name =>
    cases seed with
    | none => cases loaded
    | some seed => exact (Option.some.inj loaded).symm

theorem map_of_mapM_some {α β : Type*} {f : α → Option β} {g : β → α} {xs ys : List β}
    (inverse : ∀ x y, f (g x) = some y → y = x) (loaded : (xs.map g).mapM f = some ys) : ys = xs := by
  induction xs generalizing ys with
  | nil => exact (Option.some.inj loaded).symm
  | cons x xs ih =>
    rw [List.map_cons, List.mapM_cons] at loaded
    obtain ⟨y, first, rest⟩ := Option.bind_eq_some_iff.mp loaded
    obtain ⟨zs, others, whole⟩ := Option.bind_eq_some_iff.mp rest
    rw [← Option.some.inj whole, inverse x y first, ih others]

theorem loaded_eq {code : String} {document : Document} {t v : Tournament}
    (stored : t.store = some (code, document)) (loaded : Tournament.getTournament code document = some v) :
    v = t := by
  obtain ⟨sameCode, coded, written⟩ := Option.bind_eq_some_iff.mp stored
  obtain ⟨rfl, rfl⟩ := Prod.mk.inj (Option.some.inj written)
  obtain ⟨title, hasTitle, loaded⟩ := Option.bind_eq_some_iff.mp loaded
  obtain ⟨description, hasDescription, loaded⟩ := Option.bind_eq_some_iff.mp loaded
  obtain ⟨groups, hgroups, loaded⟩ := Option.bind_eq_some_iff.mp loaded
  obtain ⟨winners, hwinners, loaded⟩ := Option.bind_eq_some_iff.mp loaded
  obtain ⟨losers, hlosers, loaded⟩ := Option.bind_eq_some_iff.mp loaded
  obtain ⟨roundList, hrounds, loaded⟩ := Option.bind_eq_some_iff.mp loaded
  have same : ∀ g h, Group.ofDictionary (Group.toDictionary g) = some h → h = g := fun _ _ =>
    toDictionary_of_ofDictionary
  have lists : ∀ gs hs : List Group, (gs.map Group.toDictionary).mapM Group.ofDictionary = some hs → hs = gs :=
    fun _ _ => map_of_mapM_some same
  dsimp only at hasTitle hasDescription hgroups hwinners hlosers hrounds
  rw [← Option.some.inj loaded, lists _ _ hgroups, lists _ _ hwinners, lists _ _ hlosers,
    map_of_mapM_some lists hrounds, ← hasTitle, ← hasDescription, ← coded]

end Tourni
