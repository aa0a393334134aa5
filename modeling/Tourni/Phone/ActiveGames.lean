import Tourni.Lib.Roster
import Tourni.Lib.Transition
import Tourni.Model.AddGroups
import Tourni.Model.Phone

/-!
# The list of active games

`ActiveGamesController.swift` with the listeners of `gethostedTournaments` and `getjoinedTournaments`. Each
appearance registers new listeners and removes none, so any set of listeners can fill a list at any time.
-/

namespace Tourni

/-- The listeners that one appearance registers for one of the lists, on the codes stored at that moment. -/
structure Listeners where
  codes : List String
  tournamentList : List Tournament := []
  /-- Ghost history: the codes of the documents delivered to them. -/
  heard : List String := []
  deriving Inhabited

/-- The listeners on the codes stored under a key. -/
def getTournaments (key : Key) (defaults : UserDefaults) : Listeners := { codes := defaults key }

def gethostedTournaments (defaults : UserDefaults) : Listeners := getTournaments .hosted defaults

def getjoinedTournaments (defaults : UserDefaults) : Listeners := getTournaments .joined defaults

/-- The closure, given what `getTournament` completes with. -/
def Listeners.hear (l : Listeners) (gameCode : String) (t : Tournament) : Listeners :=
  { l with
    tournamentList := match l.tournamentList.findIdx? (· == t) with
      | some row => l.tournamentList.set row t
      | none => l.tournamentList ++ [t]
    heard := gameCode :: l.heard }

structure ActiveGames where
  defaults : UserDefaults
  appeared : Bool := false
  tournamentList : Key → List Tournament := fun _ => []
  listeners : Key → List Listeners := fun _ => []
  /-- Ghost history: the appearance whose listeners filled the list since the view was last left. -/
  filledBy : Key → Option Nat := fun _ => none

inductive ActiveGamesEvent where
  | viewDidAppear
  | viewDidDisappear
  | generate (gameCode : String)
  | join (gameCode : String)
  | delete (key : Key) (row : Nat)
  | snapshot (key : Key) (appearance : Nat) (gameCode : String) (document : Document)
  deriving DecidableEq, Repr

namespace ActiveGames

def viewDidAppear (s : ActiveGames) : Option ActiveGames :=
  if s.appeared then none
  else some { s with
    appeared := true
    listeners := fun
      | .hosted => s.listeners .hosted ++ [gethostedTournaments s.defaults]
      | .joined => s.listeners .joined ++ [getjoinedTournaments s.defaults] }

def viewDidDisappear (s : ActiveGames) : Option ActiveGames :=
  if s.appeared then
    some { s with appeared := false, tournamentList := fun _ => [], filledBy := fun _ => none }
  else none

/-- Other views append a code while this one is away: `generate` a hosted one and `join` a joined one. -/
def append (s : ActiveGames) (key : Key) (gameCode : String) : Option ActiveGames :=
  if s.appeared then none else some { s with defaults := s.defaults.append key gameCode }

def deleteCode (t : Tournament) (defaults : UserDefaults) : Key → Option UserDefaults
  | .hosted => (t.deleteHosted defaults).map Prod.fst
  | .joined => t.deleteJoined defaults

/-- `commit editingStyle`. -/
def delete (s : ActiveGames) (key : Key) (row : Nat) : Option ActiveGames :=
  if s.appeared then do
    let t ← (s.tournamentList key)[row]?
    let defaults ← deleteCode t s.defaults key
    some { s with
      defaults := defaults
      tournamentList := Function.update s.tournamentList key ((s.tournamentList key).eraseIdx row) }
  else none

/-- A document reaches the listener on its code. The completion fills the list, whether or not the view is on
screen. -/
def snapshot (s : ActiveGames) (key : Key) (appearance : Nat) (gameCode : String) (document : Document) :
    Option ActiveGames := do
  let l ← (s.listeners key)[appearance]?
  if gameCode ∈ l.codes then
    let t ← Tournament.getTournament gameCode document
    let l := l.hear gameCode t
    some { s with
      tournamentList := Function.update s.tournamentList key l.tournamentList
      listeners := Function.update s.listeners key ((s.listeners key).set appearance l)
      filledBy := Function.update s.filledBy key (some appearance) }
  else none

def step (s : ActiveGames) : ActiveGamesEvent → Option ActiveGames
  | .viewDidAppear => s.viewDidAppear
  | .viewDidDisappear => s.viewDidDisappear
  | .generate gameCode => s.append .hosted gameCode
  | .join gameCode => s.append .joined gameCode
  | .delete key row => s.delete key row
  | .snapshot key appearance gameCode document => s.snapshot key appearance gameCode document

/-- A list with these codes holds no tournament twice, only tournaments whose code is stored, and every
tournament whose code is stored and whose document was delivered to a listener of the current appearance. -/
structure Coherent (codes : List (Option String)) (stored : List String) (listeners : List Listeners) :
    Prop where
  once : codes.Nodup
  onlyStored : ∀ x ∈ codes, ∃ code ∈ stored, x = some code
  complete : ∀ current, listeners.getLast? = some current →
    ∀ code ∈ current.heard, code ∈ stored → some code ∈ codes

def codes (s : ActiveGames) (key : Key) : List (Option String) := (s.tournamentList key).map (·.gameCode)

/-- Both lists are coherent while the view is on screen. -/
def ShowsStored (s : ActiveGames) : Prop :=
  s.appeared = true → ∀ key, Coherent (s.codes key) (s.defaults key) (s.listeners key)

/-- Listeners that fill a list on screen have heard stored codes only, and all those that the listeners of the
current appearance have heard. When the view appears, this is asked of the listeners that filled it last. -/
def FilledByCurrent (s : ActiveGames) (e : ActiveGamesEvent) : Prop :=
  ∀ t, s.step e = some t → match e with
    | .viewDidAppear => ∀ key i l, s.filledBy key = some i → (s.listeners key)[i]? = some l →
      ∀ code ∈ l.heard, code ∈ s.defaults key
    | .snapshot key i gameCode _ => s.appeared = true → ∀ l, (s.listeners key)[i]? = some l →
      (∀ code ∈ gameCode :: l.heard, code ∈ s.defaults key) ∧
      ∀ current, (s.listeners key).getLast? = some current →
        ∀ code ∈ current.heard, code ∈ s.defaults key → code ∈ gameCode :: l.heard
    | _ => True

end ActiveGames

/-! ### Accumulated lists -/

/-- The captured list holds one tournament for each code that was heard. -/
structure Listeners.Faithful (l : Listeners) : Prop where
  once : (l.tournamentList.map (·.gameCode)).Nodup
  heard : ∀ x, x ∈ l.tournamentList.map (·.gameCode) ↔ ∃ code ∈ l.heard, x = some code

variable {l : Listeners} {t : Tournament} {gameCode : String} {stored : List String}

theorem Listeners.hear_codes (l : Listeners) (gameCode : String) (t : Tournament) :
    (l.hear gameCode t).tournamentList.map (·.gameCode) =
      (Roster.enroll (·.gameCode) t l.tournamentList).map (·.gameCode) := by
  have compared : (fun u : Tournament => u == t) = fun u => decide (u.gameCode = t.gameCode) := by
    funext u
    rw [Bool.eq_iff_iff, Tournament.beq_iff, decide_eq_true_iff]
  have renewed : (l.hear gameCode t).tournamentList = Roster.renew (·.gameCode) t l.tournamentList := by
    unfold Roster.renew
    rw [← compared]
    rfl
  rw [renewed, Roster.keys_renew]

theorem Listeners.Faithful.hear (faithful : l.Faithful) (coded : t.gameCode = some gameCode) :
    (l.hear gameCode t).Faithful := by
  constructor
  · rw [hear_codes]
    exact Roster.nodup_keys_enroll faithful.once
  · intro x
    rw [hear_codes, Roster.mem_keys_enroll, faithful.heard, coded]
    simp [Listeners.hear]

theorem Listeners.Faithful.onlyStored_iff (faithful : l.Faithful) :
    (∀ x ∈ l.tournamentList.map (·.gameCode), ∃ code ∈ stored, x = some code) ↔
      ∀ code ∈ l.heard, code ∈ stored := by
  constructor
  · intro only code heard
    obtain ⟨_, member, same⟩ := only (some code) ((faithful.heard _).mpr ⟨code, heard, rfl⟩)
    exact Option.some.inj same ▸ member
  · intro only x member
    obtain ⟨code, heard, same⟩ := (faithful.heard x).mp member
    exact ⟨code, only code heard, same⟩

theorem Listeners.Faithful.mem_iff {code : String} (faithful : l.Faithful) :
    some code ∈ l.tournamentList.map (·.gameCode) ↔ code ∈ l.heard := by
  simp [faithful.heard]

namespace ActiveGames
variable {listeners : List Listeners} {s u : ActiveGames} {key : Key} {row i : Nat} {document : Document}

/-- A list filled by faithful listeners is coherent when they have heard what is stored and what the current
ones have heard. -/
theorem coherent_filled_iff (faithful : l.Faithful) :
    Coherent (l.tournamentList.map (·.gameCode)) stored listeners ↔
      (∀ code ∈ l.heard, code ∈ stored) ∧
      ∀ current, listeners.getLast? = some current →
        ∀ code ∈ current.heard, code ∈ stored → code ∈ l.heard := by
  constructor
  · rintro ⟨-, only, complete⟩
    exact ⟨faithful.onlyStored_iff.mp only, fun current latest code heard isStored =>
      faithful.mem_iff.mp (complete current latest code heard isStored)⟩
  · rintro ⟨only, complete⟩
    exact ⟨faithful.once, faithful.onlyStored_iff.mpr only, fun current latest code heard isStored =>
      faithful.mem_iff.mpr (complete current latest code heard isStored)⟩

theorem Coherent.erase {codes : List (Option String)} (coherent : Coherent codes stored listeners)
    (deleted : codes[row]? = some (some gameCode)) :
    Coherent (codes.eraseIdx row) (stored.filter (· != gameCode)) listeners := by
  obtain ⟨bound, same⟩ := List.getElem?_eq_some_iff.mp deleted
  have erased : ∀ x, x ∈ codes.eraseIdx row ↔ x ≠ some gameCode ∧ x ∈ codes := by
    intro x
    rw [← coherent.once.erase_getElem row bound, coherent.once.mem_erase_iff, same]
  refine ⟨coherent.once.sublist (List.eraseIdx_sublist ..), ?_, ?_⟩
  · intro x member
    obtain ⟨other, old⟩ := (erased x).mp member
    obtain ⟨code, isStored, rfl⟩ := coherent.onlyStored x old
    exact ⟨code, by simpa [isStored] using other, rfl⟩
  · intro current latest code heard isStored
    obtain ⟨old, other⟩ := List.mem_filter.mp isStored
    exact (erased _).mpr ⟨by simpa using other, coherent.complete current latest code heard old⟩

/-! ### What a step does -/

theorem deleteCode_inv {defaults after : UserDefaults} (h : deleteCode t defaults key = some after) :
    ∃ code, t.gameCode = some code ∧ after = defaults.remove key code := by
  cases coded : t.gameCode with
  | none => cases key <;> simp [deleteCode, Tournament.deleteHosted, Tournament.deleteJoined, coded] at h
  | some code =>
    refine ⟨code, rfl, ?_⟩
    cases key with
    | hosted =>
      rw [deleteCode, Tournament.deleteHosted_eq coded] at h
      exact (Option.some.inj h).symm
    | joined =>
      rw [deleteCode, Tournament.deleteJoined_eq coded] at h
      exact (Option.some.inj h).symm

theorem viewDidAppear_inv (h : s.viewDidAppear = some u) :
    s.appeared = false ∧ u = { s with
      appeared := true
      listeners := fun key => s.listeners key ++ [getTournaments key s.defaults] } := by
  unfold viewDidAppear at h
  split at h
  · cases h
  · rename_i gone
    obtain rfl := Option.some.inj h
    refine ⟨Bool.eq_false_of_not_eq_true gone, ?_⟩
    congr 1
    funext key
    cases key <;> rfl

theorem delete_inv (h : s.delete key row = some u) :
    s.appeared = true ∧ ∃ t code, (s.tournamentList key)[row]? = some t ∧ t.gameCode = some code ∧
      u = { s with
        defaults := s.defaults.remove key code
        tournamentList := Function.update s.tournamentList key ((s.tournamentList key).eraseIdx row) } := by
  unfold delete at h
  split at h
  · rename_i appeared
    obtain ⟨t, present, h⟩ := Option.bind_eq_some_iff.mp h
    obtain ⟨defaults, deleted, h⟩ := Option.bind_eq_some_iff.mp h
    obtain ⟨code, coded, rfl⟩ := deleteCode_inv deleted
    exact ⟨appeared, t, code, present, coded, (Option.some.inj h).symm⟩
  · cases h

theorem snapshot_inv (h : s.snapshot key i gameCode document = some u) :
    ∃ l t, (s.listeners key)[i]? = some l ∧ t.gameCode = some gameCode ∧
      u = { s with
        tournamentList := Function.update s.tournamentList key (l.hear gameCode t).tournamentList
        listeners := Function.update s.listeners key ((s.listeners key).set i (l.hear gameCode t))
        filledBy := Function.update s.filledBy key (some i) } := by
  obtain ⟨l, registered, h⟩ := Option.bind_eq_some_iff.mp h
  split at h
  · obtain ⟨t, loaded, h⟩ := Option.bind_eq_some_iff.mp h
    exact ⟨l, t, registered, Tournament.getTournament_code loaded, (Option.some.inj h).symm⟩
  · cases h

/-! ### The invariant -/

/-- Every captured list is faithful, and what a list holds while the view is away was filled in meanwhile. -/
structure Valid (s : ActiveGames) : Prop where
  faithful : ∀ key, ∀ l ∈ s.listeners key, l.Faithful
  once : ∀ key, (s.codes key).Nodup
  away : s.appeared = false → ∀ key, (s.filledBy key = none ∧ s.tournamentList key = []) ∨
    ∃ i l, s.filledBy key = some i ∧ (s.listeners key)[i]? = some l ∧ s.tournamentList key = l.tournamentList

theorem valid_start (defaults : UserDefaults) : Valid { defaults } :=
  ⟨by simp, fun _ => List.nodup_nil, fun _ _ => Or.inl ⟨rfl, rfl⟩⟩

theorem Valid.viewDidAppear (valid : s.Valid) (h : s.viewDidAppear = some u) : u.Valid := by
  obtain ⟨-, rfl⟩ := viewDidAppear_inv h
  refine ⟨fun k l member => ?_, valid.once, fun gone => by cases gone⟩
  rcases List.mem_append.mp member with old | new
  · exact valid.faithful k l old
  · obtain rfl := List.mem_singleton.mp new
    exact ⟨List.nodup_nil, by simp [getTournaments]⟩

theorem Valid.viewDidDisappear (valid : s.Valid) (h : s.viewDidDisappear = some u) : u.Valid := by
  unfold ActiveGames.viewDidDisappear at h
  split at h
  · obtain rfl := Option.some.inj h
    exact ⟨valid.faithful, fun _ => List.nodup_nil, fun _ _ => Or.inl ⟨rfl, rfl⟩⟩
  · cases h

theorem Valid.append {k : Key} (valid : s.Valid) (h : s.append k gameCode = some u) : u.Valid := by
  unfold ActiveGames.append at h
  split at h
  · cases h
  · obtain rfl := Option.some.inj h
    exact ⟨valid.faithful, valid.once, valid.away⟩

theorem Valid.delete (valid : s.Valid) (h : s.delete key row = some u) : u.Valid := by
  obtain ⟨appeared, t, code, present, coded, rfl⟩ := delete_inv h
  refine ⟨valid.faithful, fun k => ?_, fun gone => by rw [appeared] at gone; cases gone⟩
  by_cases same : k = key
  · subst same
    simp only [codes, Function.update_self]
    exact (valid.once k).sublist ((List.eraseIdx_sublist ..).map _)
  · simp only [codes, Function.update_of_ne same]
    exact valid.once k

theorem Valid.snapshot (valid : s.Valid) (h : s.snapshot key i gameCode document = some u) : u.Valid := by
  obtain ⟨l, t, registered, coded, rfl⟩ := snapshot_inv h
  obtain ⟨bound, at_i⟩ := List.getElem?_eq_some_iff.mp registered
  have faithful : (l.hear gameCode t).Faithful :=
    (valid.faithful key l (List.mem_of_getElem? registered)).hear coded
  refine ⟨fun k m member => ?_, fun k => ?_, fun gone k => ?_⟩ <;> by_cases same : k = key
  · subst same
    simp only [Function.update_self] at member
    rcases List.mem_or_eq_of_mem_set member with old | rfl
    · exact valid.faithful k m old
    · exact faithful
  · simp only [Function.update_of_ne same] at member
    exact valid.faithful k m member
  · subst same
    simp only [codes, Function.update_self]
    exact faithful.once
  · simp only [codes, Function.update_of_ne same]
    exact valid.once k
  · subst same
    simp only [Function.update_self]
    exact Or.inr ⟨i, _, rfl, by simp [bound], rfl⟩
  · simp only [Function.update_of_ne same]
    exact valid.away gone k

theorem Valid.step {e : ActiveGamesEvent} (valid : s.Valid) (stepped : s.step e = some u) : u.Valid := by
  cases e with
  | viewDidAppear => exact valid.viewDidAppear stepped
  | viewDidDisappear => exact valid.viewDidDisappear stepped
  | generate code => exact valid.append stepped
  | join code => exact valid.append stepped
  | delete key row => exact valid.delete stepped
  | snapshot key i code document => exact valid.snapshot stepped

/-! ### When the lists stay coherent -/

theorem Valid.appear_iff (valid : s.Valid) (gone : s.appeared = false) (key : Key) :
    Coherent (s.codes key) (s.defaults key) (s.listeners key ++ [getTournaments key s.defaults]) ↔
      ∀ i l, s.filledBy key = some i → (s.listeners key)[i]? = some l →
        ∀ code ∈ l.heard, code ∈ s.defaults key := by
  have silent : ∀ current, (s.listeners key ++ [getTournaments key s.defaults]).getLast? = some current →
      current.heard = [] := by
    intro current latest
    rw [List.getLast?_concat] at latest
    obtain rfl := Option.some.inj latest
    rfl
  rcases valid.away gone key with ⟨unfilled, empty⟩ | ⟨i, l, filled, registered, same⟩
  · unfold ActiveGames.codes
    rw [empty, unfilled]
    refine iff_of_true ⟨List.nodup_nil, by simp, fun current latest code heard => ?_⟩ (by simp)
    rw [silent current latest] at heard
    cases heard
  · unfold ActiveGames.codes
    rw [same, coherent_filled_iff (valid.faithful key l (List.mem_of_getElem? registered))]
    constructor
    · rintro ⟨only, -⟩ j m filled' registered'
      obtain rfl := Option.some.inj (filled.symm.trans filled')
      obtain rfl := Option.some.inj (registered.symm.trans registered')
      exact only
    · refine fun only => ⟨only i l filled registered, fun current latest code heard => ?_⟩
      rw [silent current latest] at heard
      cases heard

/-- A delivery changes what is asked of the current listeners only when it is made to them. -/
theorem current_set {P : Listeners → Prop} {m : Listeners} (registered : listeners[i]? = some l)
    (own : P l) (ownAfter : P m) :
    (∀ current, (listeners.set i m).getLast? = some current → P current) ↔
      ∀ current, listeners.getLast? = some current → P current := by
  simp only [List.getLast?_eq_getElem?, List.length_set]
  by_cases latest : i = listeners.length - 1
  · subst latest
    obtain ⟨bound, -⟩ := List.getElem?_eq_some_iff.mp registered
    rw [List.getElem?_set_self bound, registered]
    simp [own, ownAfter]
  · rw [List.getElem?_set_ne latest]

theorem Valid.snapshot_iff (valid : s.Valid) (registered : (s.listeners key)[i]? = some l)
    (coded : t.gameCode = some gameCode) :
    Coherent ((l.hear gameCode t).tournamentList.map (·.gameCode)) (s.defaults key)
        ((s.listeners key).set i (l.hear gameCode t)) ↔
      (∀ code ∈ gameCode :: l.heard, code ∈ s.defaults key) ∧
      ∀ current, (s.listeners key).getLast? = some current →
        ∀ code ∈ current.heard, code ∈ s.defaults key → code ∈ gameCode :: l.heard := by
  have faithful : (l.hear gameCode t).Faithful :=
    (valid.faithful key l (List.mem_of_getElem? registered)).hear coded
  rw [coherent_filled_iff faithful]
  refine and_congr_right fun _ => ?_
  exact current_set (P := fun current => ∀ code ∈ current.heard, code ∈ s.defaults key →
    code ∈ gameCode :: l.heard) registered (fun code heard _ => List.mem_cons_of_mem _ heard)
    fun code heard _ => heard

theorem ShowsStored.delete (shows : s.ShowsStored) (h : s.delete key row = some u) :
    u.ShowsStored := by
  obtain ⟨appeared, t, code, present, coded, rfl⟩ := delete_inv h
  intro _ k
  have before := shows appeared k
  by_cases same : k = key
  · subst same
    simp only [codes, Function.update_self, UserDefaults.remove_same, ← List.eraseIdx_map]
    exact before.erase (by simp [codes, present, coded])
  · simp only [codes, Function.update_of_ne same, UserDefaults.remove_other same]
    exact before

theorem viewDidDisappear_away (h : s.viewDidDisappear = some u) : u.ShowsStored := by
  unfold viewDidDisappear at h
  split at h
  · obtain rfl := Option.some.inj h
    intro appeared
    cases appeared
  · cases h

theorem append_away (h : s.append key gameCode = some u) : u.ShowsStored := by
  unfold append at h
  split at h
  · cases h
  · rename_i gone
    obtain rfl := Option.some.inj h
    exact fun appeared => absurd appeared gone

theorem Valid.shows_iff {e : ActiveGamesEvent} (valid : s.Valid) (shows : s.ShowsStored) :
    (∀ u, s.step e = some u → u.ShowsStored) ↔ s.FilledByCurrent e := by
  refine forall_congr' fun u => forall_congr' fun stepped => ?_
  cases e with
  | viewDidAppear =>
    obtain ⟨gone, rfl⟩ := viewDidAppear_inv stepped
    exact (forall_prop_of_true rfl).trans (forall_congr' fun key => valid.appear_iff gone key)
  | viewDidDisappear => exact iff_of_true (viewDidDisappear_away stepped) trivial
  | generate code => exact iff_of_true (append_away stepped) trivial
  | join code => exact iff_of_true (append_away stepped) trivial
  | delete key row => exact iff_of_true (shows.delete stepped) trivial
  | snapshot key i code document =>
    obtain ⟨l, t, registered, coded, rfl⟩ := snapshot_inv stepped
    refine forall_congr' fun appeared => ?_
    have filled := valid.snapshot_iff registered coded
    constructor
    · intro after m registered'
      obtain rfl := Option.some.inj (registered.symm.trans registered')
      have := after key
      simp only [codes, Function.update_self] at this
      exact filled.mp this
    · intro asked k
      by_cases same : k = key
      · subst same
        simp only [codes, Function.update_self]
        exact filled.mpr (asked l registered)
      · simp only [codes, Function.update_of_ne same]
        exact shows appeared k

/-- From any stored codes, the lists are coherent whenever the view is on screen exactly when every list on
screen was filled by listeners that have heard all it should hold and nothing else. -/
theorem lists_coherent_iff (defaults : UserDefaults) (es : List ActiveGamesEvent) :
    Transition.Along step ShowsStored { defaults } es ↔
      Transition.Meets step FilledByCurrent { defaults } es := by
  have shows : ShowsStored { defaults } := fun appeared => by cases appeared
  apply Transition.along_iff _ _ (valid_start defaults) shows
  · intro s e u valid stepped
    exact valid.step stepped
  · intro s e valid shows
    exact valid.shows_iff shows

/-- A deleted row comes back with the next document that reaches a listener beside it. -/
theorem deleted_row_returns :
    ∃ document s, three.created.store = some ("abcd", document) ∧
      Transition.run step { defaults := fun _ => [] } [.join "abcd", .join "efgh", .viewDidAppear,
        .snapshot .joined 0 "abcd" document, .snapshot .joined 0 "efgh" document, .delete .joined 0,
        .snapshot .joined 0 "efgh" document] = some s ∧
      s.appeared = true ∧ s.defaults .joined = ["efgh"] ∧ s.codes .joined = [some "abcd", some "efgh"] ∧
      ¬ s.ShowsStored := by
  refine ⟨_, _, rfl, rfl, rfl, rfl, rfl, fun shows => ?_⟩
  obtain ⟨code, isStored, same⟩ := (shows rfl .joined).onlyStored (some "abcd") (by decide)
  obtain rfl := Option.some.inj same
  exact absurd isStored (by decide)

end ActiveGames
end Tourni
