import Tourni.Database.Devices
import Tourni.Phone.Selection

/-!
# Phones that share the database

Any number of phones, each with its list and its open brackets. As long as each of them is used properly, what they
store and write is what some devices do that share the database, so creations that draw unused codes keep their
tournaments apart.
-/

namespace Tourni

variable {δ : Type*} [DecidableEq δ]

structure Phones (δ : Type*) where
  phone : δ → Phone
  db : Firestore
  /-- Ghost history: the phone that last created a tournament under the code. -/
  creator : String → Option δ
  /-- Ghost history: everything written so far, the last write first. -/
  writes : List Write

namespace Phones

def start : Phones δ := {
  phone := fun _ => Phone.start, db := fun _ => none, creator := fun _ => none, writes := [] }

def step (s : Phones δ) (e : δ × PhoneEvent) : Option (Phones δ) :=
  ((s.phone e.1).act e.2).map fun (p, write) =>
    let s := { s with phone := Function.update s.phone e.1 p }
    match write with
    | none => s
    | some w =>
      { s with
        db := s.db.apply w
        creator := if e.2.creates then Function.update s.creator w.code (some e.1) else s.creator
        writes := w :: s.writes }

def Proper (s : Phones δ) (e : δ × PhoneEvent) : Prop := (s.phone e.1).Proper e.2

/-- What the phone writes or deletes is in the database only if the phone created it, and a creation replaces
nothing. -/
def Undisturbed (s : Phones δ) (e : δ × PhoneEvent) : Prop :=
  ∀ p w, (s.phone e.1).act e.2 = some (p, some w) → s.db w.code ≠ none →
    e.2.creates = false ∧ s.creator w.code = some e.1

/-- A creation that goes through draws a code that no phone hosts. -/
def FreshDraw (s : Phones δ) (e : δ × PhoneEvent) : Prop :=
  ∀ dialog draw, e.2 = .generate dialog draw → ((s.phone e.1).act e.2).isSome →
    ∀ d, genCode 4 draw ∉ (s.phone d).games.defaults .hosted

/-- The devices behind the phones. -/
def world (s : Phones δ) : World δ :=
  { defaults := fun d => (s.phone d).games.defaults, db := s.db, creator := s.creator }

def Sound (s : Phones δ) : Prop := ∀ d, (s.phone d).Sound

end Phones

/-- What the device behind the phone does. -/
def Phone.deviceEvent (p : Phone) : PhoneEvent → Option DeviceEvent
  | .generate dialog draw => some (.generate dialog draw)
  | .games (.join gameCode) => some (.join gameCode)
  | .games (.delete .hosted row) => (p.games.tournamentList .hosted)[row]?.map .deleteHosted
  | .games (.delete .joined row) => (p.games.tournamentList .joined)[row]?.map .deleteJoined
  | .bracket .yes => p.brackets.head?.map fun top => .nextRound top.controller
  | _ => none

variable {p q : Phone} {e : PhoneEvent} {write : Option Write} {device : DeviceEvent}

/-! ### One phone -/

namespace Phone

theorem deviceEvent_creates (behind : p.deviceEvent e = some device) : device.creates = e.creates := by
  unfold deviceEvent at behind
  split at behind
  case h_1 => obtain rfl := Option.some.inj behind; rfl
  case h_2 => obtain rfl := Option.some.inj behind; rfl
  case h_6 => cases behind
  all_goals
    obtain ⟨_, -, rfl⟩ := Option.map_eq_some_iff.mp behind
    rfl

theorem deviceEvent_generate {dialog : AddGroupsController} {draw : Nat → Fin 36}
    (behind : p.deviceEvent e = some device) :
    device = .generate dialog draw ↔ e = .generate dialog draw := by
  unfold deviceEvent at behind
  split at behind
  case h_1 => obtain rfl := Option.some.inj behind; simp
  case h_2 => obtain rfl := Option.some.inj behind; simp
  case h_6 => cases behind
  all_goals
    obtain ⟨_, -, rfl⟩ := Option.map_eq_some_iff.mp behind
    simp

/-- The phone stores and writes what the device behind it does. -/
def Device (p : Phone) (e : PhoneEvent) (q : Phone) (write : Option Write) : Prop :=
  (p.deviceEvent e = none ∧ q.games.defaults = p.games.defaults ∧ write = none) ∨
  ∃ device, p.deviceEvent e = some device ∧ device.act p.games.defaults = some (q.games.defaults, write)

theorem list_device {event : ActiveGamesEvent} (h : p.list event = some (q, write)) :
    p.Device (.games event) q write := by
  have refused : ∀ gameCode, event ≠ .generate gameCode := by
    rintro gameCode rfl
    obtain ⟨_, -, h⟩ := Option.bind_eq_some_iff.mp h
    cases h
  obtain ⟨games, host, stepped, rfl, -, rfl⟩ := list_inv h
  cases event with
  | viewDidAppear =>
    obtain ⟨-, rfl⟩ := ActiveGames.viewDidAppear_inv stepped
    exact Or.inl ⟨rfl, rfl, rfl⟩
  | viewDidDisappear => exact Or.inl ⟨rfl, ActiveGames.viewDidDisappear_inv stepped, rfl⟩
  | generate gameCode => exact absurd rfl (refused gameCode)
  | join gameCode =>
    refine Or.inr ⟨_, rfl, ?_⟩
    rw [DeviceEvent.act, Tournament.join, (ActiveGames.append_inv stepped).2]
    rfl
  | delete key row =>
    obtain ⟨-, t, code, present, coded, rfl⟩ := ActiveGames.delete_inv stepped
    right
    cases key with
    | hosted =>
      have behind : p.deviceEvent (.games (.delete .hosted row)) = some (.deleteHosted t) := by
        rw [deviceEvent, present, Option.map_some]
      refine ⟨_, behind, ?_⟩
      simp only [DeviceEvent.act, deletes, present, Tournament.deleteHosted_eq coded, Option.bind_eq_bind,
        Option.bind_some]
    | joined =>
      have behind : p.deviceEvent (.games (.delete .joined row)) = some (.deleteJoined t) := by
        rw [deviceEvent, present, Option.map_some]
      refine ⟨_, behind, ?_⟩
      simp only [DeviceEvent.act, deletes, Tournament.deleteJoined_eq coded, Option.bind_eq_bind, Option.bind_some]
  | snapshot key i gameCode document =>
    obtain ⟨_, _, -, -, rfl⟩ := ActiveGames.snapshot_inv stepped
    exact Or.inl ⟨rfl, rfl, rfl⟩

/-- A round is confirmed on the bracket of a hosted tournament. -/
theorem Sound.yes_device {top : Screen} {under : List Screen} {controller : BracketController} {code : String}
    {document : Document} (sound : p.Sound) (opened : p.brackets = top :: under)
    (advanced : top.controller.nextRound = some (controller, code, document)) (up : top.prompt = true) :
    (DeviceEvent.nextRound top.controller).act p.games.defaults =
      some (p.games.defaults, some (.setData code document)) := by
  have member : top ∈ p.brackets := by rw [opened]; exact List.mem_cons_self
  have still := sound.brackets top member
  have hosted := sound.hostsOwn top member (still.prompt up)
  rw [DeviceEvent.act, if_pos ⟨hosted, (still.written advanced).1⟩, advanced]
  rfl

theorem Sound.act_device (sound : p.Sound) (acted : p.act e = some (q, write)) :
    p.Device e q write := by
  cases e with
  | generate dialog draw =>
    obtain ⟨t, document, games, pressed, stored, stepped, rfl, rfl⟩ := generate_inv acted
    refine Or.inr ⟨_, rfl, ?_⟩
    rw [DeviceEvent.act, pressed, Option.bind_eq_bind, Option.bind_some, stored, Option.bind_eq_bind, Option.bind_some,
      (ActiveGames.append_inv stepped).2]
  | games event => exact list_device acted
  | bracket event =>
    obtain ⟨top, under, after, opened, stepped, -, rfl, writes⟩ := bracket_inv acted
    rcases writes with ⟨other, rfl⟩ | ⟨rfl, controller, code, document, advanced, up, rfl⟩
    · refine Or.inl ⟨?_, rfl, rfl⟩
      cases event with
      | yes => exact absurd rfl other
      | _ => rfl
    · have behind : p.deviceEvent (.bracket .yes) = some (.nextRound top.controller) := by
        rw [deviceEvent, opened]
        rfl
      exact Or.inr ⟨_, behind, sound.yes_device opened advanced up⟩
  | didSelectRowAt key row =>
    obtain ⟨_, selected, same⟩ := Option.map_eq_some_iff.mp acted
    obtain ⟨rfl, rfl⟩ := Prod.mk.inj same
    obtain ⟨-, _, _, -, -, rfl⟩ := didSelectRowAt_inv selected
    exact Or.inl ⟨rfl, rfl, rfl⟩
  | hear view document =>
    obtain ⟨_, heard, same⟩ := Option.map_eq_some_iff.mp acted
    obtain ⟨rfl, rfl⟩ := Prod.mk.inj same
    obtain ⟨_, _, -, -, rfl⟩ := hear_inv heard
    exact Or.inl ⟨rfl, rfl, rfl⟩
  | back =>
    obtain ⟨_, back, same⟩ := Option.map_eq_some_iff.mp acted
    obtain ⟨rfl, rfl⟩ := Prod.mk.inj same
    obtain ⟨-, _, _, -, rfl⟩ := back_inv back
    exact Or.inl ⟨rfl, rfl, rfl⟩

end Phone

/-! ### All phones -/

namespace Phones
variable {s t : Phones δ} {actor : δ}

theorem step_inv (stepped : s.step (actor, e) = some t) :
    ∃ p write, (s.phone actor).act e = some (p, write) ∧ t.phone = Function.update s.phone actor p ∧
      ((write = none ∧ t.db = s.db ∧ t.writes = s.writes) ∨
        ∃ w, write = some w ∧ t.db = s.db.apply w ∧ t.writes = w :: s.writes) := by
  obtain ⟨⟨p, write⟩, acted, rfl⟩ := Option.map_eq_some_iff.mp stepped
  refine ⟨p, write, acted, ?_⟩
  cases write with
  | none => exact ⟨rfl, Or.inl ⟨rfl, rfl, rfl⟩⟩
  | some w => exact ⟨rfl, Or.inr ⟨w, rfl, rfl, rfl⟩⟩

theorem Sound.step {e : δ × PhoneEvent} (sound : s.Sound) (proper : s.Proper e) (stepped : s.step e = some t) :
    t.Sound := by
  obtain ⟨actor, e⟩ := e
  obtain ⟨p, _, acted, phones, -⟩ := step_inv stepped
  intro d
  rw [phones]
  by_cases mine : d = actor
  · subst mine
    rw [Function.update_self]
    exact (sound d).act proper acted
  · rw [Function.update_of_ne mine]
    exact sound d

omit [DecidableEq δ] in
theorem start_sound : (start : Phones δ).Sound := fun _ => Phone.start_sound

theorem update_defaults (p : Phone) :
    (fun d => (Function.update s.phone actor p d).games.defaults) =
      Function.update s.world.defaults actor p.games.defaults := by
  funext d
  by_cases mine : d = actor
  · subst mine
    rw [Function.update_self, Function.update_self]
  · rw [Function.update_of_ne mine, Function.update_of_ne mine]
    rfl

/-- A step of the phones is one of the devices, or none. -/
theorem Sound.step_world (sound : s.Sound) (stepped : s.step (actor, e) = some t) :
    ((s.phone actor).deviceEvent e = none ∧ t.world = s.world) ∨
    ∃ device, (s.phone actor).deviceEvent e = some device ∧ s.world.step (actor, device) = some t.world := by
  obtain ⟨⟨p, write⟩, acted, rfl⟩ := Option.map_eq_some_iff.mp stepped
  have moved : (fun d => (Function.update s.phone actor p d).games.defaults) =
      Function.update s.world.defaults actor p.games.defaults := update_defaults p
  rcases (sound actor).act_device acted with ⟨quiet, same, rfl⟩ | ⟨device, behind, does⟩
  · rw [same] at moved
    have unmoved := moved.trans (Function.update_eq_self actor s.world.defaults)
    exact Or.inl ⟨quiet, congrArg (World.mk · s.db s.creator) unmoved⟩
  · refine Or.inr ⟨device, behind, ?_⟩
    have does : device.act (s.world.defaults actor) = some (p.games.defaults, write) := does
    rw [World.step, does, Option.map_some, Phone.deviceEvent_creates behind]
    cases write with
    | none => exact congrArg (fun defaults => some (World.mk defaults s.db s.creator)) moved.symm
    | some w => exact congrArg (fun defaults => some (World.mk defaults (s.db.apply w) _)) moved.symm

/-- In every run of phones that are used properly, what they store and what is in the database is what some devices
make of it. -/
theorem phones_simulated (es : List (δ × PhoneEvent)) (proper : Transition.Meets step Proper (start : Phones δ) es)
    (ran : Transition.run step start es = some t) :
    ∃ devices, Transition.run World.step (World.start : World δ) devices = some t.world := by
  have matched : ∀ (s : Phones δ) e t (a : World δ), (s.Sound ∧ a = s.world) → s.Proper e → s.step e = some t →
      ∃ devices b, Transition.run World.step a devices = some b ∧ t.Sound ∧ b = t.world := by
    rintro s ⟨actor, e⟩ t _ ⟨sound, rfl⟩ proper stepped
    have still := sound.step proper stepped
    rcases sound.step_world stepped with ⟨-, same⟩ | ⟨device, -, does⟩
    · exact ⟨[], s.world, rfl, still, same.symm⟩
    · exact ⟨[(actor, device)], t.world, (Transition.run_singleton ..).trans does, still, rfl⟩
  obtain ⟨devices, _, played, -, rfl⟩ := Transition.run_simulated matched ⟨start_sound, rfl⟩ proper ran
  exact ⟨devices, played⟩

/-! ### Keeping the tournaments apart -/

omit [DecidableEq δ] in
/-- Where the phones are sound, they draw unused codes when the devices do, and disturb what the devices disturb. -/
theorem Sound.conditions {p : Phone} {write : Option Write} {device : DeviceEvent} (sound : s.Sound)
    (acted : (s.phone actor).act e = some (p, write)) (behind : (s.phone actor).deviceEvent e = some device) :
    (s.Undisturbed (actor, e) ↔ s.world.Isolated (actor, device)) ∧
      (s.FreshDraw (actor, e) ↔ s.world.FreshCode (actor, device)) := by
  have does : device.act (s.world.defaults actor) = some (p.games.defaults, write) := by
    rcases (sound actor).act_device acted with ⟨quiet, -⟩ | ⟨other, behind', does⟩
    · rw [behind] at quiet
      cases quiet
    · obtain rfl := Option.some.inj (behind.symm.trans behind')
      exact does
  constructor
  · constructor
    · rintro undisturbed _ _ does' w rfl present
      obtain ⟨-, rfl⟩ := Prod.mk.inj (Option.some.inj (does.symm.trans does'))
      rw [Phone.deviceEvent_creates behind]
      exact undisturbed p w acted present
    · rintro isolated q w acted' present
      obtain ⟨-, rfl⟩ := Prod.mk.inj (Option.some.inj (acted.symm.trans acted'))
      rw [← Phone.deviceEvent_creates behind]
      exact isolated _ _ does w rfl present
  · refine forall_congr' fun dialog => forall_congr' fun draw => ?_
    refine imp_congr (Phone.deviceEvent_generate behind).symm (imp_congr ?_ Iff.rfl)
    simp [acted, does]

omit [DecidableEq δ] in
theorem Sound.undisturbed_iff {e : δ × PhoneEvent} (sound : s.Sound) (owned : s.world.Owned) :
    s.Undisturbed e ↔ s.FreshDraw e := by
  obtain ⟨actor, e⟩ := e
  cases acted : (s.phone actor).act e with
  | none =>
    refine iff_of_true (fun p w other => ?_) (fun dialog draw _ goes => ?_)
    · rw [acted] at other
      cases other
    · rw [acted] at goes
      cases goes
  | some after =>
    obtain ⟨p, write⟩ := after
    cases behind : (s.phone actor).deviceEvent e with
    | none =>
      refine iff_of_true (fun q w other => ?_) (fun dialog draw same _ => ?_)
      · rcases (sound actor).act_device other with ⟨-, -, none⟩ | ⟨_, some, -⟩
        · cases none
        · rw [behind] at some
          cases some
      · obtain rfl : e = .generate dialog draw := same
        cases behind
    | some device =>
      obtain ⟨disturbs, draws⟩ := sound.conditions acted behind
      rw [disturbs, draws]
      exact owned.isolated_iff

/-- In every run of phones that are used properly, no phone writes or deletes a tournament that another one created
exactly when no creation draws a code that a phone hosts at that moment. -/
theorem phones_apart_iff (es : List (δ × PhoneEvent)) (proper : Transition.Meets step Proper (start : Phones δ) es) :
    Transition.Meets step Undisturbed (start : Phones δ) es ↔
      Transition.Meets step FreshDraw (start : Phones δ) es := by
  have keep : ∀ (s : Phones δ) e t, (s.Sound ∧ s.world.Owned) → (s.Proper e ∧ s.FreshDraw e) → s.step e = some t →
      t.Sound ∧ t.world.Owned := by
    rintro s ⟨actor, e⟩ t ⟨sound, owned⟩ ⟨proper, fresh⟩ stepped
    refine ⟨sound.step proper stepped, ?_⟩
    rcases sound.step_world stepped with ⟨-, same⟩ | ⟨device, behind, does⟩
    · exact same ▸ owned
    · obtain ⟨p, write, acted, -⟩ := step_inv stepped
      exact owned.step ((sound.conditions acted behind).2.mp fresh) does
  have both : Transition.Meets step (fun s e => s.Proper e ∧ s.Undisturbed e) (start : Phones δ) es ↔
      Transition.Meets step (fun s e => s.Proper e ∧ s.FreshDraw e) (start : Phones δ) es :=
    Transition.meets_iff keep (fun _ _ inv => and_congr_right fun _ => inv.1.undisturbed_iff inv.2)
      ⟨start_sound, World.owned_start⟩
  rw [Transition.meets_and, Transition.meets_and] at both
  simpa only [proper, true_and] using both

/-- One phone creates a tournament and opens its bracket, and another phone joins it. -/
def hostAndGuest : List (Bool × PhoneEvent) := [
  (false, .generate three.dialog Phone.nines),
  (true, .games (.join "9999")),
  (false, .games .viewDidAppear),
  (false, .games (.snapshot .hosted 0 "9999" (threeDocument 0))),
  (false, .didSelectRowAt .hosted 0)]

theorem hostAndGuest_proper : Transition.Meets step Proper start hostAndGuest := by
  refine ⟨trivial, ?_⟩
  rintro _ ⟨⟩
  refine ⟨⟨fun _ _ => trivial, by simp⟩, ?_⟩
  rintro _ ⟨⟩
  refine ⟨⟨ActiveGames.filled_unfilled fun _ => rfl, by simp⟩, ?_⟩
  rintro _ ⟨⟩
  refine ⟨⟨ActiveGames.filled_current rfl ?_, by simp⟩, ?_⟩
  · rintro _ ⟨⟩
    decide
  rintro _ ⟨⟩
  exact ⟨rfl, fun _ _ => trivial⟩

theorem phones_simulated_two :
    ∃ t : Phones Bool, Transition.run step start hostAndGuest = some t ∧ (t.phone false).brackets.length = 1 ∧
      ∃ devices, Transition.run World.step World.start devices = some t.world :=
  ⟨_, rfl, rfl, phones_simulated hostAndGuest hostAndGuest_proper rfl⟩

theorem phones_apart_iff_two :
    (Transition.run step (start : Phones Bool) hostAndGuest).isSome ∧
      (Transition.Meets step Undisturbed start hostAndGuest ↔ Transition.Meets step FreshDraw start hostAndGuest) :=
  ⟨rfl, phones_apart_iff hostAndGuest hostAndGuest_proper⟩

end Phones
end Tourni
