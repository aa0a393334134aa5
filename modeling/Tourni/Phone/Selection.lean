import Tourni.Bracket.Copies
import Tourni.Database.Devices
import Tourni.Phone.ActiveGames

/-!
# From the list to a bracket

A row of `ActiveGamesController.swift` opens a bracket over the list. A hosted row raises the host flag, which stays
up until the list has left the screen, and `prepare` hands the flag to whatever bracket it opens. Documents may
reach any listener at any time.
-/

namespace Tourni

/-- The tab of the active games; the views over the list have the top one first. -/
structure Phone where
  games : ActiveGames
  selectedTournament : Tournament := {}
  host : Bool := false
  brackets : List Screen := []

/-- `games` has the events of the list itself; its `generate` is the one of the dialog. -/
inductive PhoneEvent where
  | generate (dialog : AddGroupsController) (draw : Nat → Fin 36)
  | games (e : ActiveGamesEvent)
  | didSelectRowAt (key : Key) (row : Nat)
  | bracket (e : ScreenEvent)
  | hear (view : Nat) (document : Document)
  | back

namespace PhoneEvent

def creates : PhoneEvent → Bool
  | .generate .. => true
  | _ => false

end PhoneEvent

namespace Phone

def start : Phone := { games := { defaults := fun _ => [] } }

/-- The done button of the dialog stores the code on the phone and writes the tournament. -/
def generate (p : Phone) (dialog : AddGroupsController) (draw : Nat → Fin 36) : Option (Phone × Option Write) := do
  let gameCode := genCode 4 draw
  let t ← dialog.doneButtonPressed gameCode
  let (code, document) ← t.store
  let games ← p.games.step (.generate gameCode)
  some ({ p with games }, some (.setData code document))

/-- What an event of the list writes: only deleting a hosted row does. -/
def deletes (p : Phone) : ActiveGamesEvent → Option Write
  | .delete .hosted row => do
    let t ← (p.games.tournamentList .hosted)[row]?
    let (_, write) ← t.deleteHosted p.games.defaults
    write
  | _ => none

/-- The list appears when no bracket is over it, and puts the flag down when it has disappeared. -/
def list (p : Phone) (e : ActiveGamesEvent) : Option (Phone × Option Write) := do
  let games ← p.games.step e
  match e with
  | .viewDidAppear => if p.brackets.isEmpty then some ({ p with games }, none) else none
  | .viewDidDisappear => some ({ p with games, host := false }, none)
  | .generate _ => none
  | _ => some ({ p with games }, p.deletes e)

def prepare (p : Phone) : Option Phone := do
  let gameCode ← p.selectedTournament.gameCode
  some { p with brackets := Screen.opened gameCode p.host [] :: p.brackets }

/-- The flag after a row of a section is selected. -/
def raised (p : Phone) : Key → Bool
  | .joined => p.host
  | .hosted => true

/-- Section 0 has the joined tournaments and section 1 the hosted ones. -/
def didSelectRowAt (p : Phone) (key : Key) (row : Nat) : Option Phone :=
  if p.games.appeared then do
    let selectedTournament ← (p.games.tournamentList key)[row]?
    { p with selectedTournament, host := p.raised key }.prepare
  else none

/-- Only the bracket on top takes events, and the answer Yes writes its tournament. -/
def bracket (p : Phone) (e : ScreenEvent) : Option (Phone × Option Write) :=
  match p.brackets with
  | [] => none
  | top :: under => match e with
    | .snapshot _ => none
    | .reopen => none
    | .yes => do
      let after ← top.yes
      let (_, code, document) ← top.controller.nextRound
      some ({ p with brackets := after :: under }, some (.setData code document))
    | e => do
      let after ← top.step e
      some ({ p with brackets := after :: under }, none)

def hear (p : Phone) (view : Nat) (document : Document) : Option Phone := do
  let heard ← p.brackets[view]?
  let after ← heard.deliver document
  some { p with brackets := p.brackets.set view after }

/-- The button is there once the list is gone, and the prompt is modal. -/
def back (p : Phone) : Option Phone :=
  match p.brackets with
  | [] => none
  | top :: under => if p.games.appeared || top.prompt then none else some { p with brackets := under }

/-- What happens on the phone, and what it writes to the database. -/
def act (p : Phone) : PhoneEvent → Option (Phone × Option Write)
  | .generate dialog draw => p.generate dialog draw
  | .games e => p.list e
  | .didSelectRowAt key row => (p.didSelectRowAt key row).map ((·, none))
  | .bracket e => p.bracket e
  | .hear view document => (p.hear view document).map ((·, none))
  | .back => p.back.map ((·, none))

def step (p : Phone) (e : PhoneEvent) : Option Phone := (p.act e).map Prod.fst

/-- Rows are selected and deleted while no bracket is over them. The lists on screen are filled by listeners that have
heard only codes still stored, and all of those that the current ones have heard; on appearing, only by listeners that
have heard codes still stored. -/
def Proper (p : Phone) : PhoneEvent → Prop
  | .didSelectRowAt .. => p.brackets = []
  | .games e => p.games.FilledByCurrent e ∧ ∀ key row, e = .delete key row → p.brackets = []
  | _ => True

/-- The open brackets that can write are those of tournaments hosted on this phone. -/
def HostsOwn (p : Phone) : Prop :=
  ∀ s ∈ p.brackets, s.controller.host = true → s.controller.gameCode ∈ p.games.defaults .hosted

end Phone

/-- A prompt is up on the screen of a host only, and the tournament is the one of the code. -/
structure Screen.Sound (s : Screen) : Prop where
  arranged : ∃ m, s.controller.bracketViewArr = tables m
  prompt : s.prompt = true → s.controller.host = true
  coded : s.controller.tournament.gameCode = none ∨ s.controller.tournament.gameCode = some s.controller.gameCode

/-- The flag is up while the list is being covered. -/
structure Phone.Sound (p : Phone) : Prop where
  valid : p.games.Valid
  shows : p.games.ShowsStored
  flag : p.host = true → p.games.appeared = true ∧ p.brackets ≠ []
  brackets : ∀ s ∈ p.brackets, s.Sound
  hostsOwn : p.HostsOwn

variable {s t : Screen} {p q : Phone} {e : PhoneEvent} {write : Option Write} {code : String} {document : Document}

/-! ### A bracket -/

theorem BracketController.nextRound_store {c d : BracketController}
    (advanced : c.nextRound = some (d, code, document)) : c.tournament.nextRound.store = some (code, document) := by
  obtain ⟨⟨written, content⟩, stored, same⟩ := Option.bind_eq_some_iff.mp advanced
  obtain ⟨-, same⟩ := Prod.mk.inj (Option.some.inj same)
  obtain ⟨rfl, rfl⟩ := Prod.mk.inj same
  exact stored

namespace Screen

/-- A bracket stays that of its code, and of a host or not. -/
def Same (s t : Screen) : Prop :=
  t.controller.host = s.controller.host ∧ t.controller.gameCode = s.controller.gameCode

theorem opened_sound (gameCode : String) (host : Bool) (stored : List Document) : (opened gameCode host stored).Sound :=
  ⟨⟨0, rfl⟩, fun up => (by cases up), Or.inl rfl⟩

theorem Sound.picks {side : Mirror.Side} {table : UITableView} {row : Nat} {cell : MatchUpHost} (sound : s.Sound)
    (picks : s.Picks side table row cell t) : t.Sound ∧ s.Same t := by
  obtain ⟨_, _, _, -, -, -, after⟩ := BracketController.updateWinner_inv picks.controller
  have host : t.controller.host = s.controller.host := by rw [after]; rfl
  have code : t.controller.gameCode = s.controller.gameCode := by rw [after]; rfl
  have arr : t.controller.bracketViewArr = s.controller.bracketViewArr := by rw [after]; rfl
  have coded : t.controller.tournament.gameCode = s.controller.tournament.gameCode := by
    rw [picks.tournament]
    rfl
  refine ⟨⟨arr ▸ sound.arranged, fun _ => host.trans picks.host, ?_⟩, host, code⟩
  rw [coded, code]
  exact sound.coded

theorem Sound.step {e : ScreenEvent} (sound : s.Sound) (stepped : s.step e = some t)
    (own : ∀ version, e ≠ .snapshot version) : t.Sound ∧ s.Same t := by
  cases e with
  | display table row reuse =>
    obtain ⟨_, _, _, _, -, -, -, -, rfl⟩ := display_inv stepped
    exact ⟨⟨sound.arranged, sound.prompt, sound.coded⟩, rfl, rfl⟩
  | endDisplay table row =>
    obtain ⟨_, -, rfl⟩ := endDisplay_inv stepped
    exact ⟨⟨sound.arranged, sound.prompt, sound.coded⟩, rfl, rfl⟩
  | tap side table row =>
    obtain ⟨_, -, -, ⟨-, rfl⟩ | ⟨-, picks⟩⟩ := tap_inv stepped
    · exact ⟨sound, rfl, rfl⟩
    · exact sound.picks picks
  | yes =>
    obtain ⟨up, _, _, -, rfl⟩ := yes_inv stepped
    exact ⟨⟨sound.arranged, fun _ => sound.prompt up, sound.coded⟩, rfl, rfl⟩
  | no =>
    obtain ⟨up, _, -, rfl⟩ := no_inv stepped
    exact ⟨⟨sound.arranged, fun _ => sound.prompt up, sound.coded⟩, rfl, rfl⟩
  | snapshot version => exact absurd rfl (own version)
  | reopen =>
    obtain ⟨-, rfl⟩ := reopen_inv stepped
    exact ⟨opened_sound _ _ _, rfl, rfl⟩

theorem Sound.deliver (sound : s.Sound) (heard : s.deliver document = some t) : t.Sound ∧ s.Same t := by
  obtain ⟨c, delivered, after⟩ := Option.bind_eq_some_iff.mp heard
  obtain ⟨v, loaded, snapshot⟩ := Option.bind_eq_some_iff.mp delivered
  obtain ⟨m, arr⟩ := sound.arranged
  obtain ⟨-, rfl⟩ := BracketController.snapshot_inv arr snapshot
  obtain rfl := Option.some.inj after
  exact ⟨⟨⟨_, rfl⟩, sound.prompt, Or.inr (Tournament.getTournament_code loaded)⟩, rfl, rfl⟩

/-- What is written when a round is confirmed goes under the code of the bracket. -/
theorem Sound.written {controller : BracketController} (sound : s.Sound)
    (advanced : s.controller.nextRound = some (controller, code, document)) :
    s.controller.tournament.gameCode = some s.controller.gameCode ∧ code = s.controller.gameCode := by
  have coded : s.controller.tournament.nextRound.gameCode = some code :=
    store_code (BracketController.nextRound_store advanced)
  have coded : s.controller.tournament.gameCode = some code := coded
  rcases sound.coded with none | own
  · rw [none] at coded
    cases coded
  · exact ⟨own, Option.some.inj (coded.symm.trans own)⟩

end Screen

/-! ### The list -/

namespace ActiveGames
variable {a b : ActiveGames} {event : ActiveGamesEvent}

theorem append_inv {key : Key} {gameCode : String} (h : a.append key gameCode = some b) :
    a.appeared = false ∧ b.defaults = a.defaults.append key gameCode := by
  unfold append at h
  split at h
  · cases h
  · rename_i away
    obtain rfl := Option.some.inj h
    exact ⟨Bool.eq_false_of_not_eq_true away, rfl⟩

theorem viewDidDisappear_inv (h : a.viewDidDisappear = some b) : b.defaults = a.defaults := by
  unfold viewDidDisappear at h
  split at h
  · obtain rfl := Option.some.inj h
    rfl
  · cases h

/-- Only deleting takes a code off the phone. -/
theorem step_hosted (stepped : a.step event = some b) (keeps : ∀ key row, event ≠ .delete key row)
    (hosted : code ∈ a.defaults .hosted) : code ∈ b.defaults .hosted := by
  cases event with
  | viewDidAppear =>
    obtain ⟨-, rfl⟩ := viewDidAppear_inv stepped
    exact hosted
  | viewDidDisappear => exact viewDidDisappear_inv stepped ▸ hosted
  | generate gameCode =>
    rw [(append_inv stepped).2, UserDefaults.append_same]
    exact List.mem_append_left _ hosted
  | join gameCode =>
    rw [(append_inv stepped).2, UserDefaults.append_other (by decide)]
    exact hosted
  | delete key row => exact absurd rfl (keeps key row)
  | snapshot key i gameCode document =>
    obtain ⟨_, _, -, -, rfl⟩ := snapshot_inv stepped
    exact hosted

theorem step_appeared (stepped : a.step event = some b) (stays : event ≠ .viewDidDisappear)
    (appeared : a.appeared = true) : b.appeared = true := by
  have absent : ∀ key gameCode, a.append key gameCode ≠ some b := by
    intro key gameCode appended
    have away := (append_inv appended).1
    rw [appeared] at away
    cases away
  cases event with
  | viewDidAppear =>
    obtain ⟨gone, -⟩ := viewDidAppear_inv stepped
    rw [appeared] at gone
    cases gone
  | viewDidDisappear => exact absurd rfl stays
  | generate gameCode => exact absurd stepped (absent _ _)
  | join gameCode => exact absurd stepped (absent _ _)
  | delete key row =>
    obtain ⟨-, _, _, -, -, rfl⟩ := delete_inv stepped
    exact appeared
  | snapshot key i gameCode document =>
    obtain ⟨_, _, -, -, rfl⟩ := snapshot_inv stepped
    exact appeared

theorem filled_unfilled (unfilled : ∀ key, a.filledBy key = none) : a.FilledByCurrent .viewDidAppear := by
  intro _ _ key i _ filled
  rw [unfilled key] at filled
  cases filled

/-- The listeners of the current appearance may fill the list with stored codes. -/
theorem filled_current {key : Key} {i : Nat} {gameCode : String}
    (current : (a.listeners key).getLast? = (a.listeners key)[i]?)
    (stored : ∀ l, (a.listeners key)[i]? = some l → ∀ code ∈ gameCode :: l.heard, code ∈ a.defaults key) :
    a.FilledByCurrent (.snapshot key i gameCode document) := by
  intro _ _ _ l registered
  refine ⟨stored l registered, fun latest last code heard _ => ?_⟩
  rw [current, registered] at last
  obtain rfl := Option.some.inj last
  exact List.mem_cons_of_mem _ heard

end ActiveGames

/-! ### The events of a phone -/

namespace Phone
variable {event : ActiveGamesEvent} {key : Key} {row view : Nat} {dialog : AddGroupsController} {draw : Nat → Fin 36}

theorem list_inv (h : p.list event = some (q, write)) :
    ∃ games host, p.games.step event = some games ∧ q = { p with games, host } ∧
      (host = true → p.host = true ∧ event ≠ .viewDidDisappear) ∧ write = p.deletes event := by
  obtain ⟨games, stepped, h⟩ := Option.bind_eq_some_iff.mp h
  refine ⟨games, q.host, stepped, ?_⟩
  cases event with
  | viewDidAppear =>
    dsimp only at h
    split at h
    · obtain ⟨rfl, rfl⟩ := Prod.mk.inj (Option.some.inj h)
      exact ⟨rfl, fun up => ⟨up, by simp⟩, rfl⟩
    · cases h
  | viewDidDisappear =>
    obtain ⟨rfl, rfl⟩ := Prod.mk.inj (Option.some.inj h)
    exact ⟨rfl, fun up => (by cases up), rfl⟩
  | generate gameCode => cases h
  | join gameCode =>
    obtain ⟨rfl, rfl⟩ := Prod.mk.inj (Option.some.inj h)
    exact ⟨rfl, fun up => ⟨up, by simp⟩, rfl⟩
  | delete key row =>
    obtain ⟨rfl, rfl⟩ := Prod.mk.inj (Option.some.inj h)
    exact ⟨rfl, fun up => ⟨up, by simp⟩, rfl⟩
  | snapshot key i gameCode document =>
    obtain ⟨rfl, rfl⟩ := Prod.mk.inj (Option.some.inj h)
    exact ⟨rfl, fun up => ⟨up, by simp⟩, rfl⟩

theorem deletes_inv {w : Write} (h : p.deletes event = some w) :
    ∃ code, code ∈ p.games.defaults .hosted ∧ w = .delete code := by
  unfold deletes at h
  split at h
  · obtain ⟨t, -, h⟩ := Option.bind_eq_some_iff.mp h
    obtain ⟨⟨_, write⟩, deleted, rfl⟩ := Option.bind_eq_some_iff.mp h
    cases coded : t.gameCode with
    | none => simp [Tournament.deleteHosted, coded] at deleted
    | some code =>
      rw [Tournament.deleteHosted_eq coded] at deleted
      have writes := (Prod.mk.inj (Option.some.inj deleted)).2
      split at writes
      · rename_i hosted
        exact ⟨code, hosted, (Option.some.inj writes).symm⟩
      · cases writes
  · cases h

theorem generate_inv (h : p.generate dialog draw = some (q, write)) :
    ∃ t document games, dialog.doneButtonPressed (genCode 4 draw) = some t ∧ t.store = some (genCode 4 draw, document) ∧
      p.games.step (.generate (genCode 4 draw)) = some games ∧ q = { p with games } ∧
      write = some (.setData (genCode 4 draw) document) := by
  obtain ⟨t, pressed, h⟩ := Option.bind_eq_some_iff.mp h
  obtain ⟨⟨code, document⟩, stored, h⟩ := Option.bind_eq_some_iff.mp h
  obtain ⟨games, stepped, h⟩ := Option.bind_eq_some_iff.mp h
  obtain ⟨rfl, rfl⟩ := Prod.mk.inj (Option.some.inj h)
  obtain rfl : code = genCode 4 draw :=
    Option.some.inj ((store_code stored).symm.trans (doneButtonPressed_gameCode pressed))
  exact ⟨t, document, games, pressed, stored, stepped, rfl, rfl⟩

theorem didSelectRowAt_inv (h : p.didSelectRowAt key row = some q) :
    p.games.appeared = true ∧ ∃ t gameCode, (p.games.tournamentList key)[row]? = some t ∧ t.gameCode = some gameCode ∧
      q = { p with
        selectedTournament := t
        host := p.raised key
        brackets := Screen.opened gameCode (p.raised key) [] :: p.brackets } := by
  unfold didSelectRowAt at h
  split at h
  · rename_i appeared
    obtain ⟨t, selected, h⟩ := Option.bind_eq_some_iff.mp h
    obtain ⟨gameCode, coded, h⟩ := Option.bind_eq_some_iff.mp h
    exact ⟨appeared, t, gameCode, selected, coded, (Option.some.inj h).symm⟩
  · cases h

/-- An event of the top bracket writes when it is the answer Yes. -/
theorem bracket_inv {se : ScreenEvent} (h : p.bracket se = some (q, write)) :
    ∃ top under after, p.brackets = top :: under ∧ top.step se = some after ∧ (∀ version, se ≠ .snapshot version) ∧
      q = { p with brackets := after :: under } ∧
      ((se ≠ .yes ∧ write = none) ∨ se = .yes ∧ ∃ controller code document,
        top.controller.nextRound = some (controller, code, document) ∧ top.prompt = true ∧
        write = some (.setData code document)) := by
  unfold bracket at h
  split at h
  · cases h
  · rename_i top under opened
    cases se with
    | snapshot version => cases h
    | reopen => cases h
    | yes =>
      obtain ⟨after, yes, h⟩ := Option.bind_eq_some_iff.mp h
      obtain ⟨⟨controller, code, document⟩, advanced, h⟩ := Option.bind_eq_some_iff.mp h
      obtain ⟨rfl, rfl⟩ := Prod.mk.inj (Option.some.inj h)
      exact ⟨top, under, after, opened, yes, by simp, rfl,
        Or.inr ⟨rfl, controller, code, document, advanced, (Screen.yes_inv yes).1, rfl⟩⟩
    | _ =>
      obtain ⟨after, stepped, h⟩ := Option.bind_eq_some_iff.mp h
      obtain ⟨rfl, rfl⟩ := Prod.mk.inj (Option.some.inj h)
      exact ⟨top, under, after, opened, stepped, by simp, rfl, Or.inl ⟨by simp, rfl⟩⟩

theorem hear_inv (h : p.hear view document = some q) :
    ∃ heard after, p.brackets[view]? = some heard ∧ heard.deliver document = some after ∧
      q = { p with brackets := p.brackets.set view after } := by
  obtain ⟨heard, opened, h⟩ := Option.bind_eq_some_iff.mp h
  obtain ⟨after, delivered, h⟩ := Option.bind_eq_some_iff.mp h
  exact ⟨heard, after, opened, delivered, (Option.some.inj h).symm⟩

theorem back_inv (h : p.back = some q) :
    p.games.appeared = false ∧ ∃ top under, p.brackets = top :: under ∧ q = { p with brackets := under } := by
  unfold back at h
  split at h
  · cases h
  · rename_i top under opened
    split at h
    · cases h
    · rename_i away
      rw [Bool.or_eq_true, not_or] at away
      exact ⟨by simpa using away.1, top, under, opened, (Option.some.inj h).symm⟩

/-! ### Staying within one's own tournaments -/

/-- Replacing a bracket by one of the same code and host keeps what can write. -/
theorem Sound.set_bracket {heard after : Screen} (sound : p.Sound) (opened : p.brackets[view]? = some heard)
    (still : after.Sound) (same : heard.Same after) : Sound { p with brackets := p.brackets.set view after } := by
  obtain ⟨bound, here⟩ := List.getElem?_eq_some_iff.mp opened
  have member : heard ∈ p.brackets := List.mem_of_getElem? opened
  refine ⟨sound.valid, sound.shows, fun up => ?_, fun s there => ?_, fun s there powers => ?_⟩
  · obtain ⟨appeared, covered⟩ := sound.flag up
    refine ⟨appeared, fun empty => covered ?_⟩
    simpa using congrArg List.length empty
  · rcases List.mem_or_eq_of_mem_set there with old | rfl
    · exact sound.brackets s old
    · exact still
  · rcases List.mem_or_eq_of_mem_set there with old | rfl
    · exact sound.hostsOwn s old powers
    · obtain ⟨host, code⟩ := same
      rw [code]
      exact sound.hostsOwn heard member (host.symm.trans powers)

theorem Sound.games {games : ActiveGames} {host : Bool} (sound : p.Sound) (stepped : p.games.step event = some games)
    (flag : host = true → p.host = true ∧ event ≠ .viewDidDisappear) (filled : p.games.FilledByCurrent event)
    (apart : ∀ key row, event = .delete key row → p.brackets = []) : Sound { p with games, host } := by
  refine ⟨sound.valid.step stepped, (sound.valid.shows_iff sound.shows).mpr filled _ stepped, fun up => ?_,
    sound.brackets, fun s there powers => ?_⟩
  · obtain ⟨up, stays⟩ := flag up
    obtain ⟨appeared, covered⟩ := sound.flag up
    exact ⟨ActiveGames.step_appeared stepped stays appeared, covered⟩
  · apply ActiveGames.step_hosted stepped _ (sound.hostsOwn s there powers)
    rintro key row rfl
    have there : s ∈ p.brackets := there
    rw [apart key row rfl] at there
    cases there

/-- On a list that no bracket covers the flag is down, so a joined row opens the bracket of a viewer. -/
theorem Sound.didSelectRowAt (sound : p.Sound) (uncovered : p.brackets = [])
    (h : p.didSelectRowAt key row = some q) : q.Sound := by
  obtain ⟨appeared, t, gameCode, selected, coded, rfl⟩ := didSelectRowAt_inv h
  have down : p.host = false := by
    by_contra up
    exact (sound.flag (by simpa using up)).2 uncovered
  refine ⟨sound.valid, sound.shows, fun _ => ⟨appeared, List.cons_ne_nil _ _⟩, fun s there => ?_,
    fun s there powers => ?_⟩
  · rcases List.mem_cons.mp there with rfl | old
    · exact Screen.opened_sound _ _ _
    · exact sound.brackets s old
  · rcases List.mem_cons.mp there with rfl | old
    · cases key with
      | joined =>
        have powers : p.host = true := powers
        rw [down] at powers
        cases powers
      | hosted =>
        have shown : some gameCode ∈ p.games.codes .hosted :=
          coded ▸ List.mem_map_of_mem (List.mem_of_getElem? selected)
        obtain ⟨code, hosted, same⟩ := (sound.shows appeared .hosted).onlyStored _ shown
        obtain rfl := Option.some.inj same
        exact hosted
    · exact sound.hostsOwn s old powers

theorem Sound.act (sound : p.Sound) (proper : p.Proper e) (acted : p.act e = some (q, write)) : q.Sound := by
  cases e with
  | generate dialog draw =>
    obtain ⟨_, _, games, -, -, stepped, rfl, -⟩ := generate_inv acted
    exact sound.games stepped (fun up => ⟨up, by simp⟩) (fun _ _ => trivial) (by simp)
  | games event =>
    obtain ⟨games, host, stepped, rfl, flag, -⟩ := list_inv acted
    exact sound.games stepped flag proper.1 proper.2
  | didSelectRowAt key row =>
    obtain ⟨_, selected, same⟩ := Option.map_eq_some_iff.mp acted
    obtain ⟨rfl, -⟩ := Prod.mk.inj same
    exact sound.didSelectRowAt proper selected
  | bracket event =>
    obtain ⟨top, under, after, opened, stepped, own, rfl, -⟩ := bracket_inv acted
    have first : p.brackets[0]? = some top := by rw [opened]; rfl
    obtain ⟨still, same⟩ := (sound.brackets top (List.mem_of_getElem? first)).step stepped own
    have set : p.brackets.set 0 after = after :: under := by rw [opened]; rfl
    exact set ▸ sound.set_bracket first still same
  | hear view document =>
    obtain ⟨_, heard, same⟩ := Option.map_eq_some_iff.mp acted
    obtain ⟨rfl, -⟩ := Prod.mk.inj same
    obtain ⟨before, after, opened, delivered, rfl⟩ := hear_inv heard
    obtain ⟨still, same⟩ := (sound.brackets before (List.mem_of_getElem? opened)).deliver delivered
    exact sound.set_bracket opened still same
  | back =>
    obtain ⟨_, back, same⟩ := Option.map_eq_some_iff.mp acted
    obtain ⟨rfl, -⟩ := Prod.mk.inj same
    obtain ⟨away, top, under, opened, rfl⟩ := back_inv back
    have below : ∀ s ∈ under, s ∈ p.brackets := fun s there => opened ▸ List.mem_cons_of_mem top there
    refine ⟨sound.valid, sound.shows, fun up => ?_, fun s there => sound.brackets s (below s there),
      fun s there => sound.hostsOwn s (below s there)⟩
    have appeared := (sound.flag up).1
    rw [away] at appeared
    cases appeared

theorem start_sound : start.Sound :=
  ⟨ActiveGames.valid_start _, fun appeared => (by cases appeared), fun up => (by cases up), by simp [start],
    by simp [HostsOwn, start]⟩

/-- A phone writes under a code that it hosts, or creates the tournament. -/
theorem Sound.writes {w : Write} (sound : p.Sound) (acted : p.act e = some (q, some w)) :
    w.code ∈ p.games.defaults .hosted ∨ ∃ dialog draw, e = .generate dialog draw ∧ w.code = genCode 4 draw := by
  cases e with
  | generate dialog draw =>
    obtain ⟨_, _, _, -, -, -, -, same⟩ := generate_inv acted
    obtain rfl := Option.some.inj same
    exact Or.inr ⟨dialog, draw, rfl, rfl⟩
  | games event =>
    obtain ⟨_, _, -, -, -, same⟩ := list_inv acted
    obtain ⟨code, hosted, rfl⟩ := deletes_inv same.symm
    exact Or.inl hosted
  | bracket event =>
    obtain ⟨top, under, _, opened, -, -, -, ⟨-, none⟩ | ⟨-, _, _, _, advanced, up, same⟩⟩ :=
      bracket_inv acted
    · cases none
    · obtain rfl := Option.some.inj same
      have first : top ∈ p.brackets := by rw [opened]; exact List.mem_cons_self
      have still := sound.brackets top first
      obtain ⟨-, rfl⟩ := still.written advanced
      exact Or.inl (sound.hostsOwn top first (still.prompt up))
  | didSelectRowAt key row =>
    obtain ⟨_, -, same⟩ := Option.map_eq_some_iff.mp acted
    cases (Prod.mk.inj same).2
  | hear view document =>
    obtain ⟨_, -, same⟩ := Option.map_eq_some_iff.mp acted
    cases (Prod.mk.inj same).2
  | back =>
    obtain ⟨_, -, same⟩ := Option.map_eq_some_iff.mp acted
    cases (Prod.mk.inj same).2

theorem Sound.step (sound : p.Sound) (proper : p.Proper e) (stepped : p.step e = some q) : q.Sound := by
  obtain ⟨⟨_, _⟩, acted, rfl⟩ := Option.map_eq_some_iff.mp stepped
  exact sound.act proper acted

/-- In every run, the brackets that can write are of tournaments hosted on the phone, and whatever the phone
writes or deletes next is such a tournament, or the one it creates. -/
theorem writes_own (es : List PhoneEvent) (proper : Transition.Meets step Proper start es)
    (ran : Transition.run step start es = some p) :
    p.HostsOwn ∧ ∀ e q w, p.act e = some (q, some w) →
      w.code ∈ p.games.defaults .hosted ∨ ∃ dialog draw, e = .generate dialog draw ∧ w.code = genCode 4 draw := by
  have sound : p.Sound :=
    Transition.run_invariant (fun _ _ _ sound proper stepped => sound.step proper stepped) start_sound proper ran
  exact ⟨sound.hostsOwn, fun e q w acted => sound.writes acted⟩

def nines : Nat → Fin 36 := fun _ => Fin.last 35

/-- A tournament is created and its bracket opened. -/
def opening : List PhoneEvent := [
  .generate three.dialog nines,
  .games .viewDidAppear,
  .games (.snapshot .hosted 0 "9999" (threeDocument 0)),
  .didSelectRowAt .hosted 0]

theorem opening_proper : Transition.Meets step Proper start opening := by
  refine ⟨trivial, ?_⟩
  rintro _ ⟨⟩
  refine ⟨⟨ActiveGames.filled_unfilled fun _ => rfl, by simp⟩, ?_⟩
  rintro _ ⟨⟩
  refine ⟨⟨ActiveGames.filled_current rfl ?_, by simp⟩, ?_⟩
  · rintro _ ⟨⟩
    decide
  rintro _ ⟨⟩
  exact ⟨rfl, fun _ _ => trivial⟩

theorem writes_own_three :
    ∃ p, Transition.run step start opening = some p ∧
      p.brackets.map (fun s => (s.controller.gameCode, s.controller.host)) = [("9999", true)] ∧
      p.HostsOwn ∧ ∀ e q w, p.act e = some (q, some w) →
        w.code ∈ p.games.defaults .hosted ∨ ∃ dialog draw, e = .generate dialog draw ∧ w.code = genCode 4 draw :=
  ⟨_, rfl, rfl, writes_own opening opening_proper rfl⟩

/-- A joined row selected before the list has disappeared opens with the flag that a hosted row put up. -/
example :
    ∃ p, Transition.run step start [.generate three.dialog nines, .games (.join "efgh"), .games .viewDidAppear,
        .games (.snapshot .hosted 0 "9999" (threeDocument 0)), .games (.snapshot .joined 0 "efgh" (threeDocument 0)),
        .didSelectRowAt .hosted 0, .didSelectRowAt .joined 0] = some p ∧
      p.games.defaults .hosted = ["9999"] ∧
      p.brackets.map (fun s => (s.controller.gameCode, s.controller.host)) = [("efgh", true), ("9999", true)] ∧
      ¬ p.HostsOwn := by
  refine ⟨_, rfl, rfl, rfl, fun own => ?_⟩
  have hosted := own _ List.mem_cons_self rfl
  exact absurd hosted (by decide)

end Phone
end Tourni
