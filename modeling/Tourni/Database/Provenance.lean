import Tourni.Bracket.Consistent
import Tourni.Database.Phones
import Tourni.Phone.HostTab

/-!
# Where the documents come from

Phones that share the database, when their listeners deliver documents that were stored under their codes, and
codes are never drawn twice. Whatever the phones do, all documents under a code are of the registration that the
code was drawn for, so every phone can load them.
-/

namespace Tourni

/-- The code belongs to a registration. -/
def Backed (regs : String → Option Registration) (code : String) (reg : Registration) : Prop :=
  regs code = some reg ∧ reg.gameCode = code

/-- The document loads under the code, with the groups of its registration. -/
def Genuine (regs : String → Option Registration) (code : String) (document : Document) : Prop :=
  ∃ reg t, Backed regs code reg ∧ Tournament.getTournament code document = some t ∧ Sourced reg t

/-- What a phone hosts, and the brackets that can write, belong to registrations. -/
structure Phone.Backs (regs : String → Option Registration) (p : Phone) : Prop where
  hosted : ∀ code ∈ p.games.defaults .hosted, ∃ reg, Backed regs code reg
  brackets : ∀ s ∈ p.brackets, s.controller.host = true →
    ∃ reg, Backed regs s.controller.gameCode reg ∧ Consistent reg s

namespace Phones
variable {δ : Type*}

/-- The document was stored under the code at some time. -/
def Published (s : Phones δ) (code : String) (document : Document) : Prop := Write.setData code document ∈ s.writes

/-- A listener delivers what was stored under its code. -/
def Delivers (s : Phones δ) (e : δ × PhoneEvent) : Prop :=
  match e.2 with
  | .games (.snapshot _ _ gameCode document) => s.Published gameCode document
  | .hear view document => ∀ b ∈ (s.phone e.1).brackets[view]?, s.Published b.controller.gameCode document
  | _ => True

/-- A creation starts from a dialog of the host tab, and draws a code that nothing was ever written under. -/
def NewCode (s : Phones δ) (e : δ × PhoneEvent) : Prop :=
  match e.2 with
  | .generate dialog draw => Dialog dialog ∧ ∀ w ∈ s.writes, w.code ≠ genCode 4 draw
  | _ => True

/-- All that was ever written under a code is of one registration, and so are the brackets that can write there. -/
structure Archived (s : Phones δ) (regs : String → Option Registration) : Prop where
  sound : s.Sound
  genuine : ∀ code document, s.Published code document → Genuine regs code document
  db : ∀ code document, s.db code = some document → s.Published code document
  written : ∀ d code, code ∈ (s.phone d).games.defaults .hosted → ∃ document, s.Published code document
  backs : ∀ d, (s.phone d).Backs regs

end Phones

variable {regs later : String → Option Registration} {reg : Registration} {s t : Screen} {p q : Phone} {e : PhoneEvent}
  {write : Option Write} {code : String} {document : Document}

/-! ### A bracket of the host -/

/-- A document of the registration leaves the bracket consistent, wherever it was stored. -/
theorem Consistent.deliver {v : Tournament} (consistent : Consistent reg s)
    (loaded : Tournament.getTournament reg.gameCode document = some v) (sourced : Sourced reg v)
    (heard : s.deliver document = some t) : Consistent reg t := by
  obtain ⟨c, delivered, rfl⟩ := Screen.deliver_inv heard
  let archive : Screen := { s with stored := s.stored ++ [document], seen := 0 }
  have before : Consistent reg archive := by
    refine ⟨consistent.code, consistent.host, consistent.arr, fun other member => ?_, consistent.shownSourced,
      consistent.cells, fun notYet => ?_, consistent.running⟩
    · rcases List.mem_append.mp member with old | new
      · exact consistent.documents other old
      · obtain rfl := List.mem_singleton.mp new
        exact ⟨v, loaded, sourced⟩
    · obtain ⟨arr, rows, shown, currRound, prompt, visibleCells, picked⟩ := consistent.blank notYet
      exact ⟨arr, rows, shown, currRound, prompt, visibleCells, picked⟩
  have snapshot : archive.snapshot s.stored.length = some { archive.reloadData with
      controller := c
      picked := []
      seen := s.stored.length + 1 } := by
    have delivered : archive.controller.deliver document = some c := delivered
    have here : archive.stored[s.stored.length]? = some document := List.getElem?_concat_length
    rw [Screen.snapshot_eq_deliver, if_pos (Nat.zero_le _), here, Option.bind_some, Screen.deliver, delivered]
    rfl
  have after := before.snapshot snapshot
  refine ⟨after.code, after.host, after.arr, consistent.documents, after.shownSourced, after.cells, fun notYet => ?_,
    after.running⟩
  obtain ⟨arr, rows, shown, currRound, prompt, visibleCells, picked⟩ := after.blank notYet
  exact ⟨arr, rows, shown, currRound, prompt, visibleCells, picked⟩

/-! ### One phone -/

theorem DeviceEvent.Acts.hosted_before {device : DeviceEvent} {defaults after : UserDefaults}
    (acts : device.Acts defaults after write) (quiet : device.creates = false) (hosted : code ∈ after .hosted) :
    code ∈ defaults .hosted := by
  cases acts with
  | creation => cases quiet
  | advance => exact hosted
  | deletion t removed =>
    rw [UserDefaults.remove_same] at hosted
    exact (List.mem_filter.mp hosted).1
  | unrelated _ _ _ same => exact same ▸ hosted

namespace Phone

/-- Only a creation brings a code on the phone. -/
theorem Sound.hosted_before (sound : p.Sound) (acted : p.act e = some (q, write)) (quiet : e.creates = false)
    (hosted : code ∈ q.games.defaults .hosted) : code ∈ p.games.defaults .hosted := by
  rcases sound.act_device acted with ⟨-, same, -⟩ | ⟨device, behind, does⟩
  · exact same ▸ hosted
  · exact (DeviceEvent.act_inv does).hosted_before ((deviceEvent_creates behind).trans quiet) hosted

/-- Registrations that agree on the hosted codes back the same phone. -/
theorem Backs.congr (backs : p.Backs regs) (own : p.HostsOwn)
    (agree : ∀ code ∈ p.games.defaults .hosted, later code = regs code) : p.Backs later := by
  constructor
  · intro code hosted
    obtain ⟨reg, here, coded⟩ := backs.hosted code hosted
    exact ⟨reg, (agree code hosted).trans here, coded⟩
  · intro s opened powers
    obtain ⟨reg, ⟨here, coded⟩, consistent⟩ := backs.brackets s opened powers
    exact ⟨reg, ⟨(agree _ (own s opened powers)).trans here, coded⟩, consistent⟩

/-- A bracket is replaced by one of the same code and host that is consistent if it was. -/
theorem Backs.set_bracket {heard after : Screen} {view : Nat} (backs : p.Backs regs)
    (opened : p.brackets[view]? = some heard) (same : heard.Same after)
    (keeps : ∀ reg, Backed regs heard.controller.gameCode reg → Consistent reg heard → Consistent reg after) :
    Backs regs { p with brackets := p.brackets.set view after } := by
  refine ⟨backs.hosted, fun s there powers => ?_⟩
  rcases List.mem_or_eq_of_mem_set there with old | rfl
  · exact backs.brackets s old powers
  · obtain ⟨host, code⟩ := same
    obtain ⟨reg, backed, consistent⟩ :=
      backs.brackets heard (List.mem_of_getElem? opened) (host.symm.trans powers)
    exact ⟨reg, code ▸ backed, keeps reg backed consistent⟩

/-- What happens on a phone, a creation apart, keeps it backed as long as the documents it hears are genuine. -/
theorem Backs.act (backs : p.Backs regs) (sound : p.Sound) (proper : p.Proper e) (quiet : e.creates = false)
    (hears : ∀ view document, e = .hear view document → ∀ b ∈ p.brackets[view]?,
      Genuine regs b.controller.gameCode document) (acted : p.act e = some (q, write)) : q.Backs regs := by
  have still := sound.act proper acted
  have hosted : ∀ code ∈ q.games.defaults .hosted, ∃ reg, Backed regs code reg :=
    fun code hosted => backs.hosted code (sound.hosted_before acted quiet hosted)
  cases e with
  | generate dialog draw => cases quiet
  | games event =>
    obtain ⟨_, _, -, rfl, -, -⟩ := list_inv acted
    exact ⟨hosted, backs.brackets⟩
  | didSelectRowAt key row =>
    obtain ⟨_, selected, same⟩ := Option.map_eq_some_iff.mp acted
    obtain ⟨rfl, -⟩ := Prod.mk.inj same
    obtain ⟨-, t, gameCode, -, -, rfl⟩ := didSelectRowAt_inv selected
    refine ⟨hosted, fun s there powers => ?_⟩
    rcases List.mem_cons.mp there with rfl | old
    · obtain ⟨reg, backed⟩ := hosted gameCode (still.hostsOwn _ there powers)
      refine ⟨reg, backed, ?_⟩
      have powers : p.raised key = true := powers
      rw [powers, ← backed.2]
      exact opened_consistent (by simp)
    · exact backs.brackets s old powers
  | bracket event =>
    obtain ⟨top, under, after, opened, stepped, own, rfl, -⟩ := bracket_inv acted
    have first : p.brackets[0]? = some top := by rw [opened]; rfl
    have same := ((sound.brackets top (List.mem_of_getElem? first)).step stepped own).2
    have set : p.brackets.set 0 after = after :: under := by rw [opened]; rfl
    exact set ▸ backs.set_bracket first same fun reg _ consistent => consistent.step stepped
  | hear view document =>
    obtain ⟨_, heard, same⟩ := Option.map_eq_some_iff.mp acted
    obtain ⟨rfl, -⟩ := Prod.mk.inj same
    obtain ⟨before, after, opened, delivered, rfl⟩ := hear_inv heard
    have same := ((sound.brackets before (List.mem_of_getElem? opened)).deliver delivered).2
    refine backs.set_bracket opened same fun reg backed consistent => ?_
    obtain ⟨reg', v, backed', loaded, sourced⟩ := hears view document rfl before opened
    obtain rfl : reg = reg' := Option.some.inj (backed.1.symm.trans backed'.1)
    rw [← backed.2] at loaded
    exact consistent.deliver loaded sourced delivered
  | back =>
    obtain ⟨_, back, same⟩ := Option.map_eq_some_iff.mp acted
    obtain ⟨rfl, -⟩ := Prod.mk.inj same
    obtain ⟨-, top, under, opened, rfl⟩ := back_inv back
    exact ⟨hosted, fun s there => backs.brackets s (opened ▸ List.mem_cons_of_mem top there)⟩

/-- A document that a phone writes, a creation apart, is genuine. -/
theorem Backs.writes (backs : p.Backs regs) (sound : p.Sound) (quiet : e.creates = false)
    (acted : p.act e = some (q, some (.setData code document))) : Genuine regs code document := by
  cases e with
  | generate dialog draw => cases quiet
  | games event =>
    obtain ⟨_, _, -, -, -, same⟩ := list_inv acted
    obtain ⟨_, -, deletion⟩ := deletes_inv same.symm
    cases deletion
  | bracket event =>
    obtain ⟨top, under, _, opened, -, -, -, ⟨-, none⟩ | ⟨-, _, _, _, advanced, up, same⟩⟩ :=
      bracket_inv acted
    · cases none
    · obtain ⟨rfl, rfl⟩ := Write.setData.inj (Option.some.inj same)
      have member : top ∈ p.brackets := by rw [opened]; exact List.mem_cons_self
      obtain ⟨reg, backed, consistent⟩ := backs.brackets top member ((sound.brackets top member).prompt up)
      have sourced := (consistent.running (consistent.initialized_of_prompt up)).sourced.nextRound
      obtain ⟨written, stored, loaded⟩ := sourced.stored
      have same := (BracketController.nextRound_store advanced).symm.trans stored
      obtain ⟨rfl, rfl⟩ := Prod.mk.inj (Option.some.inj same)
      have coded := ((sound.brackets top member).written advanced).2
      exact ⟨reg, _, coded ▸ backed, loaded, sourced⟩
  | didSelectRowAt key row =>
    obtain ⟨_, -, same⟩ := Option.map_eq_some_iff.mp acted
    cases (Prod.mk.inj same).2
  | hear view document =>
    obtain ⟨_, -, same⟩ := Option.map_eq_some_iff.mp acted
    cases (Prod.mk.inj same).2
  | back =>
    obtain ⟨_, -, same⟩ := Option.map_eq_some_iff.mp acted
    cases (Prod.mk.inj same).2

end Phone

/-! ### All phones -/

/-- The done button on a dialog of the host tab creates the tournament of a registration. -/
theorem Dialog.created {c : AddGroupsController} {u : Tournament} {draw : Nat → Fin 36} (dialog : Dialog c)
    (pressed : c.doneButtonPressed (genCode 4 draw) = some u) :
    ∃ reg : Registration, reg.gameCode = genCode 4 draw ∧ u = reg.created := by
  have enough : ¬ c.tournament.getNumGroups < 2 := by
    intro few
    rw [AddGroupsController.doneButtonPressed, if_pos few] at pressed
    cases pressed
  obtain ⟨reg, -, coded, rfl⟩ := dialog.registration enough draw
  have generated : reg.dialog.doneButtonPressed reg.gameCode = some reg.created := by
    rw [reg.generated, reg.created_eq]
  rw [coded] at generated
  exact ⟨reg, coded, Option.some.inj (pressed.symm.trans generated)⟩

theorem Genuine.congr (genuine : Genuine regs code document) (agree : later code = regs code) :
    Genuine later code document := by
  obtain ⟨reg, t, ⟨here, coded⟩, loaded, sourced⟩ := genuine
  exact ⟨reg, t, ⟨agree.trans here, coded⟩, loaded, sourced⟩

namespace Phones
variable {δ : Type*} [DecidableEq δ] {s t : Phones δ} {actor : δ}

omit [DecidableEq δ] in
theorem start_archived : (start : Phones δ).Archived fun _ => none := by
  refine ⟨start_sound, ?_, ?_, ?_, fun d => ⟨?_, ?_⟩⟩
  · intro code document published
    cases published
  · intro code document stored
    cases stored
  · intro d code hosted
    cases hosted
  · intro code hosted
    cases hosted
  · intro b opened
    cases opened

omit [DecidableEq δ] in
/-- What is in the database was published at some time. -/
theorem Archived.db_step {w : Write} (archived : s.Archived regs) (stored : s.db.apply w code = some document)
    (writes : t.writes = w :: s.writes) : t.Published code document := by
  unfold Published
  rw [writes]
  by_cases same : code = w.code
  · cases w with
    | setData written content =>
      obtain rfl : code = written := same
      rw [Firestore.apply, Function.update_self] at stored
      obtain rfl := Option.some.inj stored
      exact List.mem_cons_self
    | delete removed =>
      obtain rfl : code = removed := same
      rw [Firestore.apply, Function.update_self] at stored
      cases stored
  · rw [Firestore.apply_other same] at stored
    exact List.mem_cons_of_mem _ (archived.db code document stored)

theorem Archived.step_quiet {e : PhoneEvent} (archived : s.Archived regs) (proper : s.Proper (actor, e))
    (delivers : s.Delivers (actor, e)) (quiet : e.creates = false) (stepped : s.step (actor, e) = some t) :
    t.Archived regs := by
  have still := archived.sound.step proper stepped
  obtain ⟨p, write, acted, phones, wrote⟩ := step_inv stepped
  have hears : ∀ view document, e = .hear view document → ∀ b ∈ (s.phone actor).brackets[view]?,
      Genuine regs b.controller.gameCode document := by
    rintro view document rfl b opened
    exact archived.genuine _ _ (delivers b opened)
  have more : s.writes ⊆ t.writes := by
    rcases wrote with ⟨-, -, same⟩ | ⟨w, -, -, more⟩
    · exact same ▸ List.Subset.refl _
    · exact more ▸ List.subset_cons_self ..
  refine ⟨still, ?_, ?_, ?_, ?_⟩
  · intro code document published
    unfold Published at published
    rcases wrote with ⟨-, -, same⟩ | ⟨w, rfl, -, more⟩
    · rw [same] at published
      exact archived.genuine code document published
    · rw [more] at published
      rcases List.mem_cons.mp published with rfl | old
      · exact (archived.backs actor).writes (archived.sound actor) quiet acted
      · exact archived.genuine code document old
  · intro code document stored
    rcases wrote with ⟨-, same, -⟩ | ⟨w, -, applied, writes⟩
    · rw [same] at stored
      exact more (archived.db code document stored)
    · rw [applied] at stored
      exact archived.db_step stored writes
  · intro d code hosted
    have before : code ∈ (s.phone d).games.defaults .hosted := by
      rw [phones] at hosted
      by_cases mine : d = actor
      · subst mine
        rw [Function.update_self] at hosted
        exact (archived.sound d).hosted_before acted quiet hosted
      · rwa [Function.update_of_ne mine] at hosted
    obtain ⟨document, published⟩ := archived.written d code before
    exact ⟨document, more published⟩
  · intro d
    rw [phones]
    by_cases mine : d = actor
    · subst mine
      rw [Function.update_self]
      exact (archived.backs d).act (archived.sound d) proper quiet hears acted
    · rw [Function.update_of_ne mine]
      exact archived.backs d

/-- A creation starts the documents of its code. -/
theorem Archived.step_create {dialog : AddGroupsController} {draw : Nat → Fin 36} (archived : s.Archived regs)
    (proper : s.Proper (actor, .generate dialog draw)) (new : s.NewCode (actor, .generate dialog draw))
    (stepped : s.step (actor, .generate dialog draw) = some t) : ∃ later, t.Archived later := by
  have still := archived.sound.step proper stepped
  obtain ⟨_, _, acted, phones, wrote⟩ := step_inv stepped
  obtain ⟨u, document, games, pressed, stored, appended, rfl, rfl⟩ := Phone.generate_inv acted
  obtain ⟨fromTab, unused⟩ := new
  obtain ⟨reg, coded, rfl⟩ := fromTab.created pressed
  obtain ⟨content, stored', loaded⟩ := (created_sourced reg).stored
  obtain rfl : document = content := (Prod.mk.inj (Option.some.inj (stored.symm.trans stored'))).2
  obtain ⟨none, -⟩ | ⟨_, same, applied, writes⟩ := wrote
  · cases none
  obtain rfl := Option.some.inj same
  have latest : t.Published (genCode 4 draw) document := by
    unfold Published
    rw [writes]
    exact List.mem_cons_self
  have more : ∀ code content, s.Published code content → t.Published code content := by
    intro code content old
    unfold Published
    rw [writes]
    exact List.mem_cons_of_mem _ old
  let later := Function.update regs (genCode 4 draw) (some reg)
  have agree : ∀ code document, s.Published code document → later code = regs code := by
    intro code document published
    exact Function.update_of_ne (unused _ published) ..
  have hosted : ∀ d, ∀ code ∈ (s.phone d).games.defaults .hosted, later code = regs code := by
    intro d code hosted
    obtain ⟨document, published⟩ := archived.written d code hosted
    exact agree code document published
  have backs : ∀ d, (s.phone d).Backs later := fun d =>
    (archived.backs d).congr (archived.sound d).hostsOwn (hosted d)
  have backed : Backed later (genCode 4 draw) reg := ⟨Function.update_self .., coded⟩
  have codes : games.defaults .hosted = (s.phone actor).games.defaults .hosted ++ [genCode 4 draw] := by
    rw [(ActiveGames.append_inv appended).2, UserDefaults.append_same]
  refine ⟨later, still, ?_, ?_, ?_, ?_⟩
  · intro code content published
    unfold Published at published
    rw [writes] at published
    rcases List.mem_cons.mp published with first | old
    · obtain ⟨rfl, rfl⟩ := Write.setData.inj first
      exact ⟨reg, reg.created, backed, coded ▸ loaded, created_sourced reg⟩
    · exact (archived.genuine code content old).congr (agree code content old)
  · intro code content stored
    rw [applied] at stored
    exact archived.db_step stored writes
  · intro d code here
    rw [phones] at here
    by_cases mine : d = actor
    · subst mine
      rw [Function.update_self] at here
      have here : code ∈ games.defaults .hosted := here
      rw [codes] at here
      rcases List.mem_append.mp here with old | last
      · obtain ⟨content, published⟩ := archived.written d code old
        exact ⟨content, more _ _ published⟩
      · obtain rfl := List.mem_singleton.mp last
        exact ⟨document, latest⟩
    · rw [Function.update_of_ne mine] at here
      obtain ⟨content, published⟩ := archived.written d code here
      exact ⟨content, more _ _ published⟩
  · intro d
    rw [phones]
    by_cases mine : d = actor
    · subst mine
      rw [Function.update_self]
      refine ⟨fun code here => ?_, (backs d).brackets⟩
      have here : code ∈ games.defaults .hosted := here
      rw [codes] at here
      rcases List.mem_append.mp here with old | last
      · exact (backs d).hosted code old
      · obtain rfl := List.mem_singleton.mp last
        exact ⟨reg, backed⟩
    · rw [Function.update_of_ne mine]
      exact backs d

/-- What the phones do is proper, they hear what was stored, and draw codes that are new. -/
def Honest (s : Phones δ) (e : δ × PhoneEvent) : Prop := s.Proper e ∧ s.Delivers e ∧ s.NewCode e

theorem Archived.step {e : δ × PhoneEvent} (archived : s.Archived regs) (honest : s.Honest e)
    (stepped : s.step e = some t) : ∃ later, t.Archived later := by
  obtain ⟨actor, e⟩ := e
  obtain ⟨proper, delivers, new⟩ := honest
  cases e with
  | generate dialog draw => exact archived.step_create proper new stepped
  | _ => exact ⟨regs, archived.step_quiet proper delivers rfl stepped⟩

/-- In every run of phones that share the database, all the documents that were ever stored under a code, those in
the database among them, load under it, and are of the one registration that the code was drawn for. -/
theorem documents_genuine (es : List (δ × PhoneEvent)) (honest : Transition.Meets step Honest (start : Phones δ) es)
    (ran : Transition.run step start es = some s) :
    (∀ code document, s.db code = some document → s.Published code document) ∧
      ∃ regs : String → Option Registration,
        ∀ code document, s.Published code document → Genuine regs code document := by
  have keep : ∀ (s : Phones δ) e t, (∃ regs, s.Archived regs) → s.Honest e → s.step e = some t →
      ∃ later, t.Archived later := by
    rintro s e t ⟨regs, archived⟩ honest stepped
    exact archived.step honest stepped
  obtain ⟨regs, archived⟩ := Transition.run_invariant keep ⟨_, start_archived⟩ honest ran
  exact ⟨archived.db, regs, archived.genuine⟩

/-- One phone creates a tournament, and another one joins it, hears its document and opens it. -/
def cupJoined : List (Bool × PhoneEvent) := [
  (false, .generate cup.dialog Phone.nines),
  (true, .games (.join "9999")),
  (true, .games .viewDidAppear),
  (true, .games (.snapshot .joined 0 "9999" ((cup.created.store.map Prod.snd).getD default))),
  (true, .didSelectRowAt .joined 0)]

theorem documents_genuine_cup :
    ∃ s : Phones Bool, Transition.run step start cupJoined = some s ∧ (s.phone true).brackets.length = 1 ∧
      (∀ code document, s.db code = some document → s.Published code document) ∧
      ∃ regs : String → Option Registration,
        ∀ code document, s.Published code document → Genuine regs code document := by
  have honest : Transition.Meets step Honest (start : Phones Bool) cupJoined := by
    refine ⟨⟨trivial, trivial, ⟨"Cup", "Spring", ["C", "D"], by decide, by decide, rfl⟩, by simp [start]⟩, ?_⟩
    rintro _ ⟨⟩
    refine ⟨⟨⟨fun _ _ => trivial, by simp⟩, trivial, trivial⟩, ?_⟩
    rintro _ ⟨⟩
    refine ⟨⟨⟨ActiveGames.filled_unfilled fun _ => rfl, by simp⟩, trivial, trivial⟩, ?_⟩
    rintro _ ⟨⟩
    refine ⟨⟨⟨ActiveGames.filled_current rfl ?_, by simp⟩, List.mem_cons_self, trivial⟩, ?_⟩
    · rintro _ ⟨⟩
      decide
    rintro _ ⟨⟩
    exact ⟨⟨rfl, trivial, trivial⟩, fun _ _ => trivial⟩
  exact ⟨_, rfl, rfl, documents_genuine cupJoined honest rfl⟩

end Phones
end Tourni
