import Tourni.Bracket.Copies
import Tourni.Bracket.Simulation

/-!
# Spectators

A host and any number of viewers have the bracket of one tournament open. The host writes documents, and each viewer
hears them when its listener does; everything else happens on the viewer's own screen.
-/

namespace Tourni
open Mirror

structure Broadcast where
  host : Screen
  viewers : Nat → Option Watch

inductive BroadcastEvent where
  | host (e : ScreenEvent)
  | join (i : Nat)
  | leave (i : Nat)
  | view (i : Nat) (e : ScreenEvent)
  | hear (i : Nat) (version : Nat)
  deriving DecidableEq, Repr

namespace Watch

/-- What a viewer does on its screen; its listener is the only way to a document. -/
def view (w : Watch) : ScreenEvent → Option Watch
  | .snapshot _ => none
  | .reopen => none
  | e => (w.screen.step e).map ({ w with screen := · })

/-- The listener hears a document that is not older than those it has heard. -/
def hear (w : Watch) (documents : List Document) (version : Nat) : Option Watch :=
  if w.next ≤ version then do
    let document ← documents[version]?
    let screen ← w.screen.deliver document
    some { screen, next := version + 1 }
  else none

end Watch

namespace Broadcast

def start (reg : Registration) : Broadcast := { host := Screen.start reg, viewers := fun _ => none }

/-- A viewer that opens the bracket hears the document stored last, or a later one. -/
def join (b : Broadcast) (i : Nat) : Broadcast :=
  { b with viewers := Function.update b.viewers i (some {
      screen := Screen.opened b.host.controller.gameCode false [], next := b.host.stored.length - 1 }) }

def setViewer (b : Broadcast) (i : Nat) (w : Watch) : Broadcast :=
  { b with viewers := Function.update b.viewers i (some w) }

def step (b : Broadcast) : BroadcastEvent → Option Broadcast
  | .host e => (b.host.step e).map ({ b with host := · })
  | .join i => some (b.join i)
  | .leave i => some { b with viewers := Function.update b.viewers i none }
  | .view i e => do
    let w ← b.viewers i
    let w ← w.view e
    some (b.setViewer i w)
  | .hear i version => do
    let w ← b.viewers i
    let w ← w.hear b.host.stored version
    some (b.setViewer i w)

end Broadcast

/-- Each decided row is counted once on the screen of the host. -/
def HostCountsOnce (b : Broadcast) : BroadcastEvent → Prop
  | .host e => CountsOnce b.host e
  | _ => True

instance (b : Broadcast) : (e : BroadcastEvent) → Decidable (HostCountsOnce b e)
  | .host e => inferInstanceAs (Decidable (CountsOnce b.host e))
  | .join _ | .leave _ | .view .. | .hear .. => isTrue trivial

/-- Every document holds the version of its place, and those after the final hold the finished tournament. -/
def Staged (reg : Registration) (documents : List Document) : Prop :=
  ∀ (i : Nat) document, documents[i]? = some document →
    ∃ v, Tournament.getTournament reg.gameCode document = some v ∧ Stage reg (min i reg.rounds) v

structure Hosting (reg : Registration) (s : Screen) : Prop where
  consistent : Consistent reg s
  staged : Staged reg s.stored
  fair : ∃ v, Fair reg s (min (s.stored.length - 1) reg.rounds) v

/-- The viewer has the tables of the document it heard last. -/
structure Follows (reg : Registration) (documents : List Document) (w : Watch) : Prop where
  code : w.screen.controller.gameCode = reg.gameCode
  guest : w.screen.controller.host = false
  quiet : w.screen.prompt = false
  fresh : w.screen.controller.initialized = false →
    w.screen.controller.bracketViewArr = [] ∧ w.next < documents.length
  heard : w.screen.controller.initialized = true → ∃ document v, 0 < w.next ∧
    documents[w.next - 1]? = some document ∧ Tournament.getTournament reg.gameCode document = some v ∧
    Stage reg (min (w.next - 1) reg.rounds) v ∧
    w.screen.controller.Loaded reg.rounds (min (w.next - 1) reg.rounds) v

/-- The viewer shows what a controller shows that has just been opened on the document `version`. -/
def ShowsDocument (reg : Registration) (documents : List Document) (w : Watch) (version : Nat) : Prop :=
  ∃ document fresh, documents[version]? = some document ∧
    ({ gameCode := reg.gameCode } : BracketController).deliver document = some fresh ∧
    w.screen.controller.view = fresh.view ∧ w.screen.controller.tournament = fresh.tournament

variable {reg : Registration} {s t : Screen} {b c : Broadcast} {w x : Watch} {documents : List Document}
  {document : Document} {i version k : Nat} {v : Tournament} {e : ScreenEvent}

/-! ### The host -/

theorem start_hosting (clear : reg.Clear) : Hosting reg (Screen.start reg) := by
  obtain ⟨document, stored, loaded⟩ := start_stored reg
  refine ⟨start_consistent reg, ?_, ?_⟩
  · intro i other here
    rw [stored] at here
    have bound : i < 1 := (List.getElem?_eq_some_iff.mp here).1
    obtain rfl : i = 0 := by omega
    obtain rfl := Option.some.inj here
    refine ⟨_, loaded, ?_⟩
    rw [Nat.zero_min]
    exact (start_fair clear).stage
  · refine ⟨reg.created, ?_⟩
    rw [stored, List.length_singleton, Nat.sub_self, Nat.zero_min]
    exact start_fair clear

theorem Hosting.nonempty (hosting : Hosting reg s) : 0 < s.stored.length := by
  obtain ⟨v, fair⟩ := hosting.fair
  obtain ⟨document, last, -⟩ := fair.last
  exact List.length_pos_of_mem (List.mem_of_getLast? last)

theorem Hosting.yes (hosting : Hosting reg s) (yes : s.yes = some t) : Hosting reg t := by
  obtain ⟨v, fair⟩ := hosting.fair
  have consistent := hosting.consistent
  have nonempty := hosting.nonempty
  obtain ⟨j, after⟩ := fair.yes consistent yes
  have still := consistent.yes yes
  obtain ⟨up, code, document, written, rfl⟩ := Screen.yes_inv yes
  have initialized := consistent.initialized_of_prompt up
  have running := consistent.running initialized
  have inRound := fair.inRound initialized (fair.caughtUp_of_prompt up)
  obtain ⟨-, j', stage, follows⟩ := inRound.progress.next (by
    rw [← inRound.rowsNeeded running fair.stage]
    exact inRound.prompt up)
  obtain rfl : j = j' := after.stage.sized.unique stage.sized
  obtain ⟨document', written', loaded⟩ := running.sourced.nextRound.stored
  obtain ⟨rfl, rfl⟩ := Prod.mk.inj (Option.some.inj (written.symm.trans written'))
  have documents : (if reg.gameCode = s.controller.gameCode then s.stored ++ [document] else s.stored) =
      s.stored ++ [document] := if_pos consistent.code.symm
  have stageOf : j = min s.stored.length reg.rounds := by
    have := stage.sized.done
    omega
  refine ⟨still, ?_, s.controller.tournament.nextRound, ?_⟩
  · dsimp only
    rw [documents]
    intro i other here
    rcases Nat.lt_or_ge i s.stored.length with old | last
    · rw [List.getElem?_append_left old] at here
      exact hosting.staged i other here
    · have bound := (List.getElem?_eq_some_iff.mp here).1
      rw [List.length_append, List.length_singleton] at bound
      obtain rfl : i = s.stored.length := by omega
      rw [List.getElem?_concat_length] at here
      obtain rfl := Option.some.inj here
      exact ⟨_, loaded, stageOf ▸ stage⟩
  · have last : (if reg.gameCode = s.controller.gameCode then s.stored ++ [document] else s.stored).length - 1 =
        s.stored.length := by
      rw [documents, List.length_append, List.length_singleton, Nat.add_sub_cancel]
    dsimp only
    rw [last, ← stageOf]
    exact after

theorem Hosting.step (hosting : Hosting reg s) (once : CountsOnce s e) (stepped : s.step e = some t) :
    Hosting reg t ∧ s.stored <+: t.stored := by
  have still := hosting.consistent.step stepped
  obtain ⟨v, fair⟩ := hosting.fair
  have frame : t.stored = s.stored → Fair reg t (min (s.stored.length - 1) reg.rounds) v →
      Hosting reg t ∧ s.stored <+: t.stored := by
    intro same after
    refine ⟨⟨still, same ▸ hosting.staged, v, ?_⟩, same ▸ List.prefix_refl _⟩
    rw [same]
    exact after
  cases e with
  | display table row reuse =>
    obtain ⟨_, _, _, _, -, -, -, -, rfl⟩ := Screen.display_inv stepped
    exact frame rfl (fair.cells _ _)
  | endDisplay table row =>
    obtain ⟨_, -, rfl⟩ := Screen.endDisplay_inv stepped
    exact frame rfl (fair.cells _ _)
  | tap side table row =>
    obtain ⟨cell, visible, -, ⟨-, rfl⟩ | ⟨accepted, picks⟩⟩ := Screen.tap_inv stepped
    · exact frame rfl fair
    · exact frame picks.stored (fair.picks hosting.consistent visible accepted once picks)
  | yes =>
    refine ⟨hosting.yes stepped, ?_⟩
    obtain ⟨-, _, document, -, rfl⟩ := Screen.yes_inv stepped
    dsimp only
    split
    · exact List.prefix_append _ _
    · exact List.prefix_refl _
  | no =>
    have after := fair.no stepped
    obtain ⟨-, _, -, rfl⟩ := Screen.no_inv stepped
    exact frame rfl after
  | snapshot version =>
    have after := fair.snapshot hosting.consistent stepped
    obtain ⟨-, _, _, _, -, -, -, rfl⟩ := Screen.snapshot_inv stepped
    exact frame rfl after
  | reopen =>
    have after := fair.reopen stepped
    obtain ⟨-, rfl⟩ := Screen.reopen_inv stepped
    exact frame rfl after

/-! ### A viewer -/

theorem Follows.mono {later : List Document} (follows : Follows reg documents w)
    (before : documents <+: later) : Follows reg later w := by
  refine ⟨follows.code, follows.guest, follows.quiet, fun notYet => ?_, fun initialized => ?_⟩
  · obtain ⟨empty, bound⟩ := follows.fresh notYet
    exact ⟨empty, bound.trans_le before.length_le⟩
  · obtain ⟨document, v, positive, here, loaded, stage, after⟩ := follows.heard initialized
    obtain ⟨more, rfl⟩ := before
    have bound := (List.getElem?_eq_some_iff.mp here).1
    exact ⟨document, v, positive, by rwa [List.getElem?_append_left bound], loaded, stage, after⟩

/-- A viewer is no host: only its cells change. -/
theorem Follows.view (follows : Follows reg documents w) (viewed : w.view e = some x) :
    Follows reg documents x ∧ x.next = w.next := by
  have frame : ∀ visibleCells reusable,
      Follows reg documents { w with screen := { w.screen with visibleCells, reusable } } := fun _ _ =>
    ⟨follows.code, follows.guest, follows.quiet, follows.fresh, follows.heard⟩
  have down := follows.quiet
  cases e with
  | display table row reuse =>
    obtain ⟨t, shown, rfl⟩ := Option.map_eq_some_iff.mp viewed
    obtain ⟨_, _, _, _, -, -, -, -, rfl⟩ := Screen.display_inv shown
    exact ⟨frame _ _, rfl⟩
  | endDisplay table row =>
    obtain ⟨t, hidden, rfl⟩ := Option.map_eq_some_iff.mp viewed
    obtain ⟨_, -, rfl⟩ := Screen.endDisplay_inv hidden
    exact ⟨frame _ _, rfl⟩
  | tap side table row =>
    obtain ⟨t, tapped, rfl⟩ := Option.map_eq_some_iff.mp viewed
    obtain ⟨_, -, -, ⟨-, rfl⟩ | ⟨-, picks⟩⟩ := Screen.tap_inv tapped
    · exact ⟨follows, rfl⟩
    · have host := picks.host
      rw [follows.guest] at host
      cases host
  | yes =>
    obtain ⟨t, yes, rfl⟩ := Option.map_eq_some_iff.mp viewed
    have up := (Screen.yes_inv yes).1
    rw [down] at up
    cases up
  | no =>
    obtain ⟨t, no, rfl⟩ := Option.map_eq_some_iff.mp viewed
    have up := (Screen.no_inv no).1
    rw [down] at up
    cases up
  | snapshot version => cases viewed
  | reopen => cases viewed

/-- The viewer can hear this document: it has heard none, or all those before it, or the final. -/
def InTurn (reg : Registration) (w : Watch) (version : Nat) : Prop :=
  w.screen.controller.initialized = true → version = w.next ∨ reg.rounds ≤ w.next

instance (reg : Registration) (w : Watch) (version : Nat) : Decidable (InTurn reg w version) :=
  inferInstanceAs (Decidable (_ → _ ∨ _))

theorem Follows.snapshot (follows : Follows reg documents w) (stage : Stage reg (min version reg.rounds) v)
    (new : w.next ≤ version) (turn : InTurn reg w version) :
    ∃ d, w.screen.controller.snapshot v = some d ∧ d.Loaded reg.rounds (min version reg.rounds) v ∧
      w.screen.controller.Kept d := by
  have sized := stage.sized
  by_cases initialized : w.screen.controller.initialized = true
  · obtain ⟨_, _, positive, -, -, -, loaded⟩ := follows.heard initialized
    have placed := loaded.toPlaced
    rcases Nat.lt_or_ge (w.next - 1) reg.rounds with before | after
    · have next : min version reg.rounds = min (w.next - 1) reg.rounds + 1 := by
        have := turn initialized
        omega
      rw [next] at sized ⊢
      exact BracketController.snapshot_next sized placed
    · have done : min version reg.rounds = reg.rounds := by omega
      have was : min (w.next - 1) reg.rounds = reg.rounds := by omega
      rw [done] at sized ⊢
      rw [was] at placed
      exact BracketController.snapshot_finished sized placed
  · have notYet : w.screen.controller.initialized = false := by simpa using initialized
    exact BracketController.snapshot_fresh sized notYet (follows.fresh notYet).1

theorem Follows.hear (follows : Follows reg documents w) (staged : Staged reg documents)
    (here : documents[version]? = some document) (new : w.next ≤ version) (turn : InTurn reg w version) :
    ∃ x, w.hear documents version = some x ∧ Follows reg documents x ∧ x.next = version + 1 ∧
      x.screen.controller.initialized = true := by
  obtain ⟨v, loaded, stage⟩ := staged version document here
  obtain ⟨d, shown, after, code, host, -⟩ := follows.snapshot stage new turn
  have delivered : w.screen.controller.deliver document = some d := (deliver_eq follows.code loaded).trans shown
  refine ⟨{ screen := { w.screen.reloadData with controller := d, picked := [] }, next := version + 1 }, ?_, ?_, rfl,
    after.initialized⟩
  · unfold Watch.hear Screen.deliver
    simp only [if_pos new, here, delivered, Option.bind_eq_bind, Option.bind_some]
  · refine ⟨code.trans follows.code, host.trans follows.guest, follows.quiet, fun notYet => ?_, fun _ => ?_⟩
    · have initialized := after.initialized
      rw [show d.initialized = false from notYet] at initialized
      cases initialized
    · exact ⟨document, v, Nat.succ_pos _, here, loaded, stage, after⟩

/-- A viewer that misses a version before the final traps. -/
theorem Follows.hear_none (follows : Follows reg documents w) (staged : Staged reg documents)
    (new : w.next ≤ version) (skipped : ¬ InTurn reg w version) : w.hear documents version = none := by
  have initialized : w.screen.controller.initialized = true := by
    by_contra notYet
    exact skipped fun initialized => absurd initialized notYet
  have behind : version ≠ w.next ∧ ¬ reg.rounds ≤ w.next := by
    rw [← not_or]
    exact fun turn => skipped fun _ => turn
  unfold Watch.hear
  rw [if_pos new]
  cases here : documents[version]? with
  | none => rfl
  | some document =>
    obtain ⟨v, loaded, stage⟩ := staged version document here
    obtain ⟨_, _, positive, -, -, -, heard⟩ := follows.heard initialized
    have trapped : w.screen.controller.snapshot v = none :=
      BracketController.snapshot_skip stage.sized heard.toPlaced (by omega)
    show (w.screen.deliver document).bind _ = none
    unfold Screen.deliver
    rw [deliver_eq follows.code loaded, trapped]
    rfl

theorem Watch.hear_inv (heard : w.hear documents version = some x) :
    w.next ≤ version ∧ ∃ document, documents[version]? = some document := by
  unfold hear at heard
  split at heard
  · rename_i new
    obtain ⟨document, here, -⟩ := Option.bind_eq_some_iff.mp heard
    exact ⟨new, document, here⟩
  · cases heard

/-! ### The whole broadcast -/

structure OnAir (reg : Registration) (b : Broadcast) : Prop where
  hosting : Hosting reg b.host
  follows : ∀ i w, b.viewers i = some w → Follows reg b.host.stored w

theorem OnAir.setViewer (onAir : OnAir reg b) (follows : Follows reg b.host.stored w) :
    OnAir reg (b.setViewer i w) := by
  refine ⟨onAir.hosting, fun j x here => ?_⟩
  change Function.update b.viewers i (some w) j = some x at here
  by_cases same : j = i
  · subst same
    rw [Function.update_self] at here
    obtain rfl := Option.some.inj here
    exact follows
  · rw [Function.update_of_ne same] at here
    exact onAir.follows j x here

theorem OnAir.step (onAir : OnAir reg b) {e : BroadcastEvent} (once : HostCountsOnce b e)
    (stepped : b.step e = some c) : OnAir reg c := by
  have hosting := onAir.hosting
  cases e with
  | host e =>
    obtain ⟨t, moved, rfl⟩ := Option.map_eq_some_iff.mp stepped
    obtain ⟨after, longer⟩ := hosting.step once moved
    exact ⟨after, fun i w here => (onAir.follows i w here).mono longer⟩
  | join i =>
    obtain rfl := Option.some.inj stepped
    have nonempty := hosting.nonempty
    refine onAir.setViewer ⟨hosting.consistent.code, rfl, rfl, fun _ => ⟨rfl, ?_⟩, fun initialized => ?_⟩
    · show b.host.stored.length - 1 < b.host.stored.length
      omega
    · cases initialized
  | leave i =>
    obtain rfl := Option.some.inj stepped
    refine ⟨hosting, fun j w here => ?_⟩
    dsimp only at here
    by_cases same : j = i
    · subst same
      rw [Function.update_self] at here
      cases here
    · rw [Function.update_of_ne same] at here
      exact onAir.follows j w here
  | view i e =>
    obtain ⟨w, here, stepped⟩ := Option.bind_eq_some_iff.mp stepped
    obtain ⟨x, viewed, made⟩ := Option.bind_eq_some_iff.mp stepped
    obtain rfl := Option.some.inj made
    exact onAir.setViewer ((onAir.follows i w here).view viewed).1
  | hear i version =>
    obtain ⟨w, here, stepped⟩ := Option.bind_eq_some_iff.mp stepped
    obtain ⟨x, heard, made⟩ := Option.bind_eq_some_iff.mp stepped
    obtain rfl := Option.some.inj made
    have follows := onAir.follows i w here
    obtain ⟨new, document, stored⟩ := Watch.hear_inv heard
    have turn : InTurn reg w version := by
      by_contra skipped
      rw [follows.hear_none hosting.staged new skipped] at heard
      cases heard
    obtain ⟨y, heard', after, -⟩ := follows.hear hosting.staged stored new turn
    obtain rfl := Option.some.inj (heard.symm.trans heard')
    exact onAir.setViewer after

theorem run_onAir (clear : reg.Clear) {es : List BroadcastEvent}
    (met : Transition.Meets Broadcast.step HostCountsOnce (Broadcast.start reg) es)
    (ran : Transition.run Broadcast.step (Broadcast.start reg) es = some b) : OnAir reg b := by
  have start : OnAir reg (Broadcast.start reg) := by
    refine ⟨start_hosting clear, fun i w here => ?_⟩
    cases here
  exact Transition.run_invariant (fun b e c onAir once stepped => onAir.step once stepped) start met ran

theorem Follows.showsDocument (follows : Follows reg documents w)
    (initialized : w.screen.controller.initialized = true) : ShowsDocument reg documents w (w.next - 1) := by
  obtain ⟨document, v, -, here, loaded, stage, after⟩ := follows.heard initialized
  let empty : BracketController := { gameCode := reg.gameCode }
  obtain ⟨fresh, first, freshLoaded, -⟩ := BracketController.snapshot_fresh (c := empty) stage.sized rfl rfl
  refine ⟨document, fresh, here, ?_, after.view_eq freshLoaded, after.tournament.trans freshLoaded.tournament.symm⟩
  exact (deliver_eq (c := empty) rfl loaded).trans first

/-- However the events of the host and the viewers are interleaved, as long as the host counts each decided row once, a
viewer that has heard a document shows what a freshly opened bracket shows of it, and has no prompt to store anything
with. -/
theorem viewers_follow (clear : reg.Clear) {es : List BroadcastEvent}
    (met : Transition.Meets Broadcast.step HostCountsOnce (Broadcast.start reg) es)
    (ran : Transition.run Broadcast.step (Broadcast.start reg) es = some b) :
    ∀ i w, b.viewers i = some w → w.screen.prompt = false ∧
      (w.screen.controller.initialized = true → ShowsDocument reg b.host.stored w (w.next - 1)) := by
  intro i w here
  have follows := (run_onAir clear met ran).follows i w here
  exact ⟨follows.quiet, follows.showsDocument⟩

/-- As long as the host counts each decided row once, a document that comes to a viewer traps exactly when the viewer
has heard one, misses the next, and that is not yet the final's. -/
theorem hearing_traps_iff (clear : reg.Clear) {es : List BroadcastEvent}
    (met : Transition.Meets Broadcast.step HostCountsOnce (Broadcast.start reg) es)
    (ran : Transition.run Broadcast.step (Broadcast.start reg) es = some b) :
    ∀ i w version, b.viewers i = some w → w.next ≤ version → version < b.host.stored.length →
      (b.step (.hear i version) = none ↔ ¬ InTurn reg w version) := by
  intro i w version here new stored
  have onAir := run_onAir clear met ran
  have follows := onAir.follows i w here
  have staged := onAir.hosting.staged
  show (b.viewers i).bind _ = none ↔ _
  rw [here, Option.bind_some]
  constructor
  · intro trapped turn
    obtain ⟨x, heard, -⟩ := follows.hear staged (List.getElem?_eq_getElem stored) new turn
    rw [heard] at trapped
    cases trapped
  · intro skipped
    rw [follows.hear_none staged new skipped]
    rfl

theorem hear_rest (hosting : Hosting reg b.host) {n : Nat} (here : b.viewers i = some w)
    (follows : Follows reg b.host.stored w) (left : w.next + n = b.host.stored.length)
    (some_heard : n = 0 → w.screen.controller.initialized = true) :
    ∃ c x, Transition.run Broadcast.step b ((List.range' w.next n).map (.hear i)) = some c ∧ c.host = b.host ∧
      (∀ j, j ≠ i → c.viewers j = b.viewers j) ∧ c.viewers i = some x ∧ Follows reg b.host.stored x ∧
      x.next = b.host.stored.length ∧ x.screen.controller.initialized = true := by
  induction n generalizing b w with
  | zero => exact ⟨b, w, rfl, rfl, fun _ _ => rfl, here, follows, by omega, some_heard rfl⟩
  | succ n ih =>
    have stored : b.host.stored[w.next]? = some b.host.stored[w.next] := List.getElem?_eq_getElem (by omega)
    obtain ⟨x, heard, after, next, initialized⟩ :=
      follows.hear hosting.staged stored (Nat.le_refl _) (fun _ => Or.inl rfl)
    have stepped : b.step (.hear i w.next) = some (b.setViewer i x) := by
      show (b.viewers i).bind _ = _
      rw [here, Option.bind_some, heard]
      rfl
    obtain ⟨c, y, ran, host, others, mine, rest⟩ := @ih (b.setViewer i x) x hosting (Function.update_self ..) after
      (by show x.next + n = b.host.stored.length; omega) (fun _ => initialized)
    refine ⟨c, y, ?_, host, fun j other => ?_, mine, rest⟩
    · rw [List.range'_succ, List.map_cons, Transition.run, stepped, Option.bind_some, ← next]
      exact ran
    · rw [others j other]
      exact Function.update_of_ne other _ _

/-- From any state reached in which the host has counted each decided row once, a viewer that hears the documents it has
not heard yet, one after the other, ends up with the document stored last; the host and the other viewers notice
nothing. -/
theorem viewers_converge (clear : reg.Clear) {es : List BroadcastEvent}
    (met : Transition.Meets Broadcast.step HostCountsOnce (Broadcast.start reg) es)
    (ran : Transition.run Broadcast.step (Broadcast.start reg) es = some b) :
    ∀ i w, b.viewers i = some w → ∃ c x,
      Transition.run Broadcast.step b
        ((List.range' w.next (b.host.stored.length - w.next)).map (.hear i)) = some c ∧
      c.host = b.host ∧ (∀ j, j ≠ i → c.viewers j = b.viewers j) ∧ c.viewers i = some x ∧
      ShowsDocument reg b.host.stored x (b.host.stored.length - 1) := by
  intro i w here
  have onAir := run_onAir clear met ran
  have follows := onAir.follows i w here
  have bound : w.next ≤ b.host.stored.length ∧
      (b.host.stored.length - w.next = 0 → w.screen.controller.initialized = true) := by
    by_cases initialized : w.screen.controller.initialized = true
    · obtain ⟨_, _, positive, stored, -⟩ := follows.heard initialized
      have last := (List.getElem?_eq_some_iff.mp stored).1
      exact ⟨by omega, fun _ => initialized⟩
    · have last := (follows.fresh (by simpa using initialized)).2
      exact ⟨by omega, fun none => by omega⟩
  obtain ⟨c, x, ran, host, others, mine, after, next, initialized⟩ :=
    hear_rest onAir.hosting here follows (Nat.add_sub_of_le bound.1) bound.2
  exact ⟨c, x, ran, host, others, mine, next ▸ after.showsDocument initialized⟩

/-! ### Two viewers -/

/-- One viewer is there from the beginning and has not heard the second document yet; the other comes later. -/
def threeAired : List BroadcastEvent :=
  [.join 0, .hear 0 0] ++ threeConfirmed.map .host ++ [.view 0 (.display ⟨0⟩ 1 none), .join 1, .hear 1 1]

theorem threeAired_runs : ∃ b w x, Transition.run Broadcast.step (Broadcast.start three) threeAired = some b ∧
    b.host.stored.length = 2 ∧ b.viewers 0 = some w ∧ w.next = 1 ∧ b.viewers 1 = some x ∧
    x.screen.controller.initialized = true := by
  have ends : ((Transition.run Broadcast.step (Broadcast.start three) threeAired).bind fun b =>
      (b.viewers 0).bind fun w => (b.viewers 1).map fun x =>
        (b.host.stored.length, w.next, x.screen.controller.initialized)) = some (2, 1, true) := by rfl
  obtain ⟨b, ran, ends⟩ := Option.bind_eq_some_iff.mp ends
  obtain ⟨w, first, ends⟩ := Option.bind_eq_some_iff.mp ends
  obtain ⟨x, second, ends⟩ := Option.map_eq_some_iff.mp ends
  simp only [Prod.mk.injEq] at ends
  exact ⟨b, w, x, ran, ends.1, first, ends.2.1, second, ends.2.2⟩

theorem viewers_follow_three :
    ∃ b x, Transition.run Broadcast.step (Broadcast.start three) threeAired = some b ∧ b.viewers 1 = some x ∧
      x.screen.prompt = false ∧ ShowsDocument three b.host.stored x (x.next - 1) := by
  obtain ⟨b, w, x, ran, -, -, -, here, initialized⟩ := threeAired_runs
  obtain ⟨down, shows⟩ := viewers_follow (Or.inl (by decide)) (by decide) ran 1 x here
  exact ⟨b, x, ran, here, down, shows initialized⟩

/-- The host goes on to the final, so that the first viewer may hear the last document without the second. -/
def threeFinished : List BroadcastEvent :=
  threeAired ++ [.host (.display ⟨1⟩ 0 none), .host (.tap .first ⟨1⟩ 0), .host .yes]

theorem threeFinished_runs : ∃ b w, Transition.run Broadcast.step (Broadcast.start three) threeFinished = some b ∧
    b.host.stored.length = 3 ∧ b.viewers 0 = some w ∧ w.next = 1 ∧ w.screen.controller.initialized = true := by
  have ends : ((Transition.run Broadcast.step (Broadcast.start three) threeFinished).bind fun b =>
      (b.viewers 0).map fun w => (b.host.stored.length, w.next, w.screen.controller.initialized)) =
      some (3, 1, true) := by rfl
  obtain ⟨b, ran, ends⟩ := Option.bind_eq_some_iff.mp ends
  obtain ⟨w, first, ends⟩ := Option.map_eq_some_iff.mp ends
  simp only [Prod.mk.injEq] at ends
  exact ⟨b, w, ran, ends.1, first, ends.2.1, ends.2.2⟩

/-- The second document is in turn, and the third one is not. -/
theorem hearing_traps_iff_three :
    ∃ b w, Transition.run Broadcast.step (Broadcast.start three) threeFinished = some b ∧ b.viewers 0 = some w ∧
      InTurn three w 1 ∧ (b.step (.hear 0 1) = none ↔ ¬ InTurn three w 1) ∧
      ¬ InTurn three w 2 ∧ (b.step (.hear 0 2) = none ↔ ¬ InTurn three w 2) := by
  obtain ⟨b, w, ran, length, here, next, initialized⟩ := threeFinished_runs
  have rounds : three.rounds = 2 := three_rounds
  have traps : ∀ version, 1 ≤ version → version < 3 →
      (b.step (.hear 0 version) = none ↔ ¬ InTurn three w version) := fun version low high =>
    hearing_traps_iff (Or.inl (by decide)) (by decide) ran 0 w version here (by omega) (by omega)
  refine ⟨b, w, ran, here, fun _ => Or.inl next.symm, traps 1 (by decide) (by decide), fun turn => ?_,
    traps 2 (by decide) (by decide)⟩
  have := turn initialized
  omega

theorem viewers_converge_three :
    ∃ b w c x, Transition.run Broadcast.step (Broadcast.start three) threeAired = some b ∧ b.viewers 0 = some w ∧
      Transition.run Broadcast.step b
        ((List.range' w.next (b.host.stored.length - w.next)).map (.hear 0)) = some c ∧
      c.host = b.host ∧ (∀ j, j ≠ 0 → c.viewers j = b.viewers j) ∧ c.viewers 0 = some x ∧
      ShowsDocument three b.host.stored x (b.host.stored.length - 1) := by
  obtain ⟨b, w, x, ran, -, here, -⟩ := threeAired_runs
  obtain ⟨c, y, converges⟩ := viewers_converge (Or.inl (by decide)) (by decide) ran 0 w here
  exact ⟨b, w, c, y, ran, here, converges⟩

end Tourni
