import Tourni.Model.Store

/-!
# The phone and the database

The operations of `Tournament.swift` on the game codes stored on the phone and on the documents in Firestore,
where `setData` replaces the document under a code and `delete` removes it.
-/

namespace Tourni

inductive Key where
  | hosted
  | joined
  deriving DecidableEq, Repr

/-- The lists of game codes stored on a phone. A list that was never stored reads as an empty one. -/
abbrev UserDefaults := Key → List String

namespace UserDefaults
variable (defaults : UserDefaults) (key other : Key) (code : String)

def append : UserDefaults := Function.update defaults key (defaults key ++ [code])

def remove : UserDefaults := Function.update defaults key ((defaults key).filter (· != code))

variable {defaults key other code}

@[simp] theorem append_same : defaults.append key code key = defaults key ++ [code] :=
  Function.update_self ..

theorem append_other (differ : other ≠ key) : defaults.append key code other = defaults other :=
  Function.update_of_ne differ ..

@[simp] theorem remove_same : defaults.remove key code key = (defaults key).filter (· != code) :=
  Function.update_self ..

theorem remove_other (differ : other ≠ key) : defaults.remove key code other = defaults other :=
  Function.update_of_ne differ ..

theorem remove_absent (absent : code ∉ defaults key) : defaults.remove key code = defaults := by
  refine (congrArg _ (List.filter_eq_self.mpr ?_)).trans (Function.update_eq_self key defaults)
  rintro x member
  rw [bne_iff_ne]
  rintro rfl
  exact absent member

end UserDefaults

inductive Write where
  | setData (code : String) (document : Document)
  | delete (code : String)
  deriving DecidableEq, Repr

def Write.code : Write → String
  | .setData code _ => code
  | .delete code => code

abbrev Firestore := String → Option Document

def Firestore.apply (db : Firestore) : Write → Firestore
  | .setData code document => Function.update db code (some document)
  | .delete code => Function.update db code none

theorem Firestore.apply_other {db : Firestore} {w : Write} {code : String} (differ : code ≠ w.code) :
    db.apply w code = db code := by
  cases w <;> exact Function.update_of_ne differ ..

namespace Tournament

/-- Tournaments are compared by their codes; `=` compares every field. -/
instance : BEq Tournament := ⟨fun lhs rhs => lhs.gameCode == rhs.gameCode⟩

theorem beq_iff {t u : Tournament} : (t == u) = true ↔ t.gameCode = u.gameCode := by
  show (t.gameCode == u.gameCode) = true ↔ _
  exact beq_iff_eq

def join (gameCode : String) (defaults : UserDefaults) : UserDefaults := defaults.append .joined gameCode

def dbDelete (t : Tournament) : Option Write := t.gameCode.map Write.delete

def deleteHosted (t : Tournament) (defaults : UserDefaults) : Option (UserDefaults × Option Write) := do
  let code ← t.gameCode
  if (defaults .hosted).contains code then
    let write ← t.dbDelete
    some (defaults.remove .hosted code, some write)
  else some (defaults, none)

def deleteJoined (t : Tournament) (defaults : UserDefaults) : Option UserDefaults := do
  let code ← t.gameCode
  some (if (defaults .joined).contains code then defaults.remove .joined code else defaults)

/-- Either deletion takes the code off its list, and only `deleteHosted` touches the database. -/
theorem deleteHosted_eq {t : Tournament} {code : String} {defaults : UserDefaults}
    (coded : t.gameCode = some code) :
    t.deleteHosted defaults = some (defaults.remove .hosted code,
      if code ∈ defaults .hosted then some (.delete code) else none) := by
  simp only [deleteHosted, dbDelete, coded, Option.bind_eq_bind, Option.bind_some, Option.map_some,
    List.contains_iff_mem]
  by_cases present : code ∈ defaults .hosted
  · rw [if_pos present, if_pos present]
  · rw [if_neg present, if_neg present, UserDefaults.remove_absent present]

theorem deleteJoined_eq {t : Tournament} {code : String} {defaults : UserDefaults}
    (coded : t.gameCode = some code) : t.deleteJoined defaults = some (defaults.remove .joined code) := by
  simp only [deleteJoined, coded, Option.bind_eq_bind, Option.bind_some, List.contains_iff_mem]
  by_cases present : code ∈ defaults .joined
  · rw [if_pos present]
  · rw [if_neg present, UserDefaults.remove_absent present]

theorem getTournament_code {gc : String} {document : Document} {t : Tournament}
    (loaded : getTournament gc document = some t) : t.gameCode = some gc := by
  simp only [getTournament, Option.bind_eq_bind, Option.bind_eq_some_iff] at loaded
  obtain ⟨_, -, _, -, _, -, _, -, _, -, _, -, same⟩ := loaded
  obtain rfl := Option.some.inj same
  rfl

end Tournament
end Tourni
