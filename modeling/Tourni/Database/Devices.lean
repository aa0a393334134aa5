import Tourni.Lib.Transition
import Tourni.Model.AddGroups
import Tourni.Model.BracketController
import Tourni.Model.Phone

/-!
# Devices that share the database

Any number of devices create, join, advance and delete tournaments, in any order. A code is drawn from four
random letters and nothing checks that it is unused, so a run keeps its hosts apart exactly when no creation
draws a code that some device hosts.
-/

namespace Tourni

inductive DeviceEvent where
  | generate (dialog : AddGroupsController) (draw : Nat → Fin 36)
  | join (gameCode : String)
  | nextRound (screen : BracketController)
  | deleteHosted (t : Tournament)
  | deleteJoined (t : Tournament)

namespace DeviceEvent

def creates : DeviceEvent → Bool
  | .generate .. => true
  | _ => false

/-- What a device stores on the phone, and what it writes to the database. -/
def act (defaults : UserDefaults) : DeviceEvent → Option (UserDefaults × Option Write)
  | .generate dialog draw => do
    let gameCode := genCode 4 draw
    let t ← dialog.doneButtonPressed gameCode
    let (code, document) ← t.store
    some (defaults.append .hosted gameCode, some (.setData code document))
  | .join gameCode => some (Tournament.join gameCode defaults, none)
  -- The screen was opened from the hosted list, and shows what was loaded under its code.
  | .nextRound screen =>
    if screen.gameCode ∈ defaults .hosted ∧ screen.tournament.gameCode = some screen.gameCode then do
      let (_, code, document) ← screen.nextRound
      some (defaults, some (.setData code document))
    else none
  | .deleteHosted t => t.deleteHosted defaults
  | .deleteJoined t => do
    let defaults ← t.deleteJoined defaults
    some (defaults, none)

end DeviceEvent

variable {δ : Type*} [DecidableEq δ]

structure World (δ : Type*) where
  defaults : δ → UserDefaults
  db : Firestore
  /-- Ghost history: the device that last created a tournament under the code. -/
  creator : String → Option δ

namespace World

def start : World δ := { defaults := fun _ _ => [], db := fun _ => none, creator := fun _ => none }

def step (s : World δ) (e : δ × DeviceEvent) : Option (World δ) :=
  (e.2.act (s.defaults e.1)).map fun (defaults, write) =>
    let s := { s with defaults := Function.update s.defaults e.1 defaults }
    match write with
    | none => s
    | some w =>
      { s with
        db := s.db.apply w
        creator := if e.2.creates then Function.update s.creator w.code (some e.1) else s.creator }

/-- Whatever the event writes or deletes is in the database only if its own device created it, and a creation
replaces nothing. -/
def Isolated (s : World δ) (e : δ × DeviceEvent) : Prop :=
  ∀ defaults write, e.2.act (s.defaults e.1) = some (defaults, write) →
    ∀ w, write = some w → s.db w.code ≠ none → e.2.creates = false ∧ s.creator w.code = some e.1

/-- A creation that goes through draws a code that no device hosts. -/
def FreshCode (s : World δ) (e : δ × DeviceEvent) : Prop :=
  ∀ dialog draw, e.2 = .generate dialog draw → (e.2.act (s.defaults e.1)).isSome →
    ∀ d, genCode 4 draw ∉ s.defaults d .hosted

/-- A device hosts the codes of the documents it created. -/
structure Owned (s : World δ) : Prop where
  hosted : ∀ d code, code ∈ s.defaults d .hosted ↔ s.db code ≠ none ∧ s.creator code = some d
  created : ∀ code, s.db code ≠ none → s.creator code ≠ none

end World

/-! ### What a device can do -/

inductive DeviceEvent.Acts (defaults : UserDefaults) : DeviceEvent → UserDefaults → Option Write → Prop
  | creation (dialog : AddGroupsController) (draw : Nat → Fin 36) (document : Document) :
    Acts defaults (.generate dialog draw) (defaults.append .hosted (genCode 4 draw))
      (some (.setData (genCode 4 draw) document))
  | advance (screen : BracketController) (code : String) (document : Document)
    (hosted : code ∈ defaults .hosted) : Acts defaults (.nextRound screen) defaults (some (.setData code document))
  | deletion (t : Tournament) (code : String) (hosted : code ∈ defaults .hosted) :
    Acts defaults (.deleteHosted t) (defaults.remove .hosted code) (some (.delete code))
  | unrelated (e : DeviceEvent) (after : UserDefaults) (quiet : e.creates = false)
    (same : after .hosted = defaults .hosted) : Acts defaults e after none

variable {defaults after : UserDefaults} {e : DeviceEvent} {write : Option Write}

theorem store_code {t : Tournament} {code : String} {document : Document}
    (stored : t.store = some (code, document)) : t.gameCode = some code := by
  obtain ⟨gameCode, coded, same⟩ := Option.bind_eq_some_iff.mp stored
  obtain ⟨rfl, -⟩ := Prod.mk.inj (Option.some.inj same)
  exact coded

theorem addFree_gameCode (nextSeed : Int) (fuel : Nat) (t : Tournament) :
    (Tournament.addFree nextSeed fuel t).gameCode = t.gameCode := by
  induction fuel generalizing t with
  | zero => rfl
  | succ fuel ih =>
    rw [Tournament.addFree]
    split
    · rfl
    · exact ih _

theorem generate_gameCode {t u : Tournament} {gameCode : String} (h : t.generate gameCode = some u) :
    u.gameCode = some gameCode := by
  obtain ⟨last, -, h⟩ := Option.bind_eq_some_iff.mp h
  obtain ⟨seed, -, h⟩ := Option.bind_eq_some_iff.mp h
  obtain rfl := Option.some.inj h
  exact addFree_gameCode _ _ _

theorem doneButtonPressed_gameCode {dialog : AddGroupsController} {t : Tournament} {gameCode : String}
    (h : dialog.doneButtonPressed gameCode = some t) : t.gameCode = some gameCode := by
  unfold AddGroupsController.doneButtonPressed at h
  split at h
  · cases h
  · exact generate_gameCode h

theorem DeviceEvent.act_inv (h : e.act defaults = some (after, write)) : e.Acts defaults after write := by
  cases e with
  | generate dialog draw =>
    obtain ⟨t, pressed, h⟩ := Option.bind_eq_some_iff.mp h
    obtain ⟨⟨code, document⟩, stored, h⟩ := Option.bind_eq_some_iff.mp h
    have same : code = genCode 4 draw :=
      Option.some.inj ((store_code stored).symm.trans (doneButtonPressed_gameCode pressed))
    subst same
    obtain ⟨rfl, rfl⟩ := Prod.mk.inj (Option.some.inj h)
    exact .creation dialog draw document
  | join gameCode =>
    obtain ⟨rfl, rfl⟩ := Prod.mk.inj (Option.some.inj h)
    exact .unrelated _ _ rfl (UserDefaults.append_other (by decide))
  | nextRound screen =>
    rw [act] at h
    split at h
    · rename_i shown
      obtain ⟨⟨_, code, document⟩, advanced, h⟩ := Option.bind_eq_some_iff.mp h
      obtain ⟨rfl, rfl⟩ := Prod.mk.inj (Option.some.inj h)
      obtain ⟨⟨written, content⟩, stored, same⟩ := Option.bind_eq_some_iff.mp advanced
      obtain ⟨-, same⟩ := Prod.mk.inj (Option.some.inj same)
      obtain ⟨rfl, rfl⟩ := Prod.mk.inj same
      have coded : screen.tournament.nextRound.gameCode = some written := store_code stored
      have under : screen.gameCode = written := Option.some.inj (shown.2.symm.trans coded)
      exact .advance screen written content (under ▸ shown.1)
    · cases h
  | deleteHosted t =>
    cases coded : t.gameCode with
    | none => simp [act, Tournament.deleteHosted, coded] at h
    | some code =>
      rw [act, Tournament.deleteHosted_eq coded] at h
      obtain ⟨rfl, rfl⟩ := Prod.mk.inj (Option.some.inj h)
      by_cases present : code ∈ defaults .hosted
      · rw [if_pos present]
        exact .deletion t code present
      · rw [if_neg present]
        exact .unrelated _ _ rfl (by rw [UserDefaults.remove_absent present])
  | deleteJoined t =>
    obtain ⟨remaining, deleted, h⟩ := Option.bind_eq_some_iff.mp h
    obtain ⟨rfl, rfl⟩ := Prod.mk.inj (Option.some.inj h)
    obtain ⟨code, coded, -⟩ := Option.bind_eq_some_iff.mp deleted
    rw [Tournament.deleteJoined_eq coded] at deleted
    obtain rfl := Option.some.inj deleted
    exact .unrelated _ _ rfl (UserDefaults.remove_other (by decide))

theorem DeviceEvent.Acts.hosted_other {code : String} (acts : e.Acts defaults after write)
    (apart : ∀ w, write = some w → code ≠ w.code) : code ∈ after .hosted ↔ code ∈ defaults .hosted := by
  cases acts with
  | creation dialog draw document =>
    have differ : code ≠ genCode 4 draw := apart _ rfl
    simp [differ]
  | advance => exact Iff.rfl
  | deletion t removed hosted =>
    have differ : code ≠ removed := apart _ rfl
    simp [differ]
  | unrelated _ _ quiet same => rw [same]

/-! ### Keeping the hosts apart -/

namespace World
variable {s t : World δ} {actor d : δ} {code : String}

theorem step_inv (stepped : s.step (actor, e) = some t) :
    ∃ after write, e.act (s.defaults actor) = some (after, write) ∧
      t.defaults = Function.update s.defaults actor after ∧
      (∀ code, (∀ w, write = some w → code ≠ w.code) →
        t.db code = s.db code ∧ t.creator code = s.creator code) ∧
      ∀ w, write = some w → t.db = s.db.apply w ∧
        t.creator = if e.creates then Function.update s.creator w.code (some actor) else s.creator := by
  obtain ⟨⟨after, write⟩, acted, rfl⟩ := Option.map_eq_some_iff.mp stepped
  refine ⟨after, write, acted, ?_⟩
  cases write with
  | none => exact ⟨rfl, fun _ _ => ⟨rfl, rfl⟩, fun w none => by cases none⟩
  | some w =>
    refine ⟨rfl, fun code apart => ⟨Firestore.apply_other (apart w rfl), ?_⟩, ?_⟩
    · dsimp only
      split
      · exact Function.update_of_ne (apart w rfl) ..
      · rfl
    · rintro _ ⟨⟩
      exact ⟨rfl, rfl⟩

theorem hosted_update {after : UserDefaults} :
    code ∈ Function.update s.defaults actor after d .hosted ↔
      if d = actor then code ∈ after .hosted else code ∈ s.defaults d .hosted := by
  by_cases mine : d = actor
  · subst mine
    rw [Function.update_self, if_pos rfl]
  · rw [Function.update_of_ne mine, if_neg mine]

theorem Owned.step (owned : s.Owned) (fresh : s.FreshCode (actor, e)) (stepped : s.step (actor, e) = some t) :
    t.Owned := by
  obtain ⟨after, write, acted, defaults, others, written⟩ := step_inv stepped
  have acts := DeviceEvent.act_inv acted
  suffices kept : ∀ code, (∀ d, code ∈ t.defaults d .hosted ↔ t.db code ≠ none ∧ t.creator code = some d) ∧
      (t.db code ≠ none → t.creator code ≠ none) from
    ⟨fun d code => (kept code).1 d, fun code => (kept code).2⟩
  intro code
  simp only [defaults, hosted_update]
  by_cases apart : ∀ w, write = some w → code ≠ w.code
  · obtain ⟨db, creator⟩ := others code apart
    rw [db, creator]
    refine ⟨fun d => ?_, owned.created code⟩
    rw [acts.hosted_other apart, ← owned.hosted d code]
    split
    · rename_i mine
      rw [mine]
    · rfl
  · push Not at apart
    obtain ⟨w, only, rfl⟩ := apart
    obtain ⟨db, creator⟩ := written w only
    rw [db, creator]
    cases acts with
    | creation dialog draw document =>
      obtain rfl := Option.some.inj only
      have unused := fresh dialog draw rfl (by rw [acted]; rfl)
      simp only [Firestore.apply, DeviceEvent.creates, Write.code, Function.update_self]
      refine ⟨fun d => ?_, by simp⟩
      by_cases mine : d = actor
      · simp [mine]
      · simp [mine, unused d, Ne.symm mine]
    | advance screen code document hosted =>
      obtain rfl := Option.some.inj only
      obtain ⟨present, creator⟩ := (owned.hosted actor code).mp hosted
      simp only [Firestore.apply, DeviceEvent.creates, Write.code, Bool.false_eq_true, Function.update_self]
      refine ⟨fun d => ?_, by simp [creator]⟩
      rw [owned.hosted d code]
      by_cases mine : d = actor
      · simp [mine, creator, hosted]
      · simp [mine, present]
    | deletion t code hosted =>
      obtain rfl := Option.some.inj only
      obtain ⟨present, creator⟩ := (owned.hosted actor code).mp hosted
      simp only [Firestore.apply, Write.code, Function.update_self]
      refine ⟨fun d => ?_, by simp⟩
      by_cases mine : d = actor
      · simp [mine]
      · simp [mine, owned.hosted d code, creator, Ne.symm mine]
    | unrelated _ _ quiet same => cases only

omit [DecidableEq δ] in
/-- Where hosting means that, an event is isolated exactly when it draws no hosted code. -/
theorem Owned.isolated_iff {e : δ × DeviceEvent} (owned : s.Owned) : s.Isolated e ↔ s.FreshCode e := by
  obtain ⟨actor, e⟩ := e
  constructor
  · rintro isolated dialog draw rfl goes d hosted
    obtain ⟨⟨after, write⟩, acted⟩ := Option.isSome_iff_exists.mp goes
    have present := ((owned.hosted d _).mp hosted).1
    cases DeviceEvent.act_inv acted with
    | creation _ _ document => cases (isolated _ _ acted _ rfl present).1
    | unrelated _ _ quiet same => cases quiet
  · intro fresh after write acted w only present
    cases DeviceEvent.act_inv acted with
    | creation dialog draw document =>
      obtain rfl := Option.some.inj only
      obtain ⟨d, creator⟩ := Option.ne_none_iff_exists'.mp (owned.created _ present)
      have hosted := (owned.hosted d _).mpr ⟨present, creator⟩
      exact absurd hosted (fresh dialog draw rfl (by rw [acted]; rfl) d)
    | advance screen code document hosted =>
      obtain rfl := Option.some.inj only
      exact ⟨rfl, ((owned.hosted actor code).mp hosted).2⟩
    | deletion t code hosted =>
      obtain rfl := Option.some.inj only
      exact ⟨rfl, ((owned.hosted actor code).mp hosted).2⟩
    | unrelated _ _ quiet same => cases only

omit [DecidableEq δ] in
theorem owned_start : (start : World δ).Owned :=
  ⟨fun d code => by simp [start], fun code present => absurd rfl present⟩

/-- In every run, the tournaments of different hosts stay apart exactly when no creation draws a code that a
device hosts at that moment. -/
theorem hosts_apart_iff_codes_fresh (es : List (δ × DeviceEvent)) :
    Transition.Meets step Isolated (start : World δ) es ↔
      Transition.Meets step FreshCode (start : World δ) es :=
  Transition.meets_iff (fun _ _ _ owned fresh stepped => owned.step fresh stepped)
    (fun _ _ owned => owned.isolated_iff) owned_start

/-- Two devices draw the same code: the second tournament replaces the first, and the first device can delete
the tournament of the second. -/
theorem equal_draws_collide :
    ∃ s t u : World Bool,
      step start (false, .generate three.dialog fun _ => 0) = some s ∧
      step s (true, .generate four.dialog fun _ => 0) = some t ∧
      step t (false, .deleteHosted { gameCode := some "aaaa" }) = some u ∧
      s.db "aaaa" ≠ none ∧ t.db "aaaa" ≠ s.db "aaaa" ∧ u.db "aaaa" = none ∧
      "aaaa" ∈ u.defaults true .hosted ∧
      ¬ Transition.Meets step Isolated (start : World Bool)
        [(false, .generate three.dialog fun _ => 0), (true, .generate four.dialog fun _ => 0)] ∧
      ¬ t.Isolated (false, .deleteHosted { gameCode := some "aaaa" }) := by
  refine ⟨_, _, _, rfl, rfl, rfl, ?_⟩
  refine ⟨by decide, by decide, by decide, by decide, fun met => ?_, fun isolated => ?_⟩
  · cases ((met.2 _ rfl).1 _ _ rfl _ rfl (by decide)).1
  · cases (isolated _ _ rfl _ rfl (by decide)).2

end World
end Tourni
