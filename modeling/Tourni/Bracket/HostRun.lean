import Tourni.Bracket.Incremental
import Tourni.Bracket.Knockout

/-!
# The runs of a host

The host picks winners in rows of the current round, confirms the round once every row is picked, and may
leave the bracket and open it again. A confirmed round is stored and delivered at once.
-/

namespace Tourni
open Mirror

structure Host where
  controller : BracketController
  /-- The documents stored under the game code, oldest first. -/
  stored : List Document
  /-- Ghost history: the picks since the last snapshot. -/
  picks : List Pick := []

inductive HostEvent where
  | pick (p : Pick)
  | confirm
  | reopen
  deriving DecidableEq, Repr

namespace Host

def currentList (h : Host) : Option (List Group) :=
  ofRound? h.controller.tournament.roundList h.controller.currRound

/-- A call of `updateWinner` on the two groups of a row; the winner is no added bye. -/
def pick (reg : Registration) (h : Host) (p : Pick) : Option Host := do
  let L ← h.currentList
  if p.Valid L (reg.added L) then
    let c ← h.controller.updateWinner (p.winner L) (p.loser L) h.controller.currRound
    some { h with controller := c, picks := h.picks ++ [p] }
  else none

/-- `nextRound`, once every row of the current round has been picked, and the snapshot it causes. -/
def confirm (h : Host) : Option Host := do
  let L ← h.currentList
  if Covers h.picks L.length then
    let (c, code, document) ← h.controller.nextRound
    if code = c.gameCode then
      let c ← c.deliver document
      some { controller := c, stored := h.stored ++ [document] }
    else none
  else none

def reopen (h : Host) : Option Host := do
  let document ← h.stored.getLast?
  let opened : BracketController := { gameCode := h.controller.gameCode, host := h.controller.host }
  let c ← opened.deliver document
  some { controller := c, stored := h.stored }

/-- The run ends with the document that stores a single winner. -/
def step (reg : Registration) (h : Host) (e : HostEvent) : Option Host :=
  if h.controller.currentGroups.length = 1 then none
  else
    match e with
    | .pick p => h.pick reg p
    | .confirm => h.confirm
    | .reopen => h.reopen

/-- The host opens the bracket of the tournament just created. -/
def start (reg : Registration) : Option Host := do
  let (code, document) ← reg.created.store
  let opened : BracketController := { gameCode := code, host := true }
  let c ← opened.deliver document
  some { controller := c, stored := [document] }

end Host

variable {reg : Registration} {h h' : Host} {c d : BracketController} {k : Nat} {v : Tournament}
  {p : Pick} {docs : List Document} {document : Document}

/-! ### The state between two events -/

/-- The documents stored so far: one for each number of decided rounds, up to the version `v` after `k`. -/
structure Stored (reg : Registration) (docs : List Document) (k : Nat) (v : Tournament) : Prop where
  length : docs.length = k + 1
  versions : ∀ i document, docs[i]? = some document →
    ∃ t, Tournament.getTournament reg.gameCode document = some t ∧ Version reg i t
  last : ∀ document, docs[k]? = some document → Tournament.getTournament reg.gameCode document = some v

/-- The host is in the round after `k` decided ones, and has made some picks since the version `v`. -/
structure Playing (reg : Registration) (h : Host) (k : Nat) (v : Tournament) : Prop where
  version : Version reg k v
  stored : Stored reg h.stored k v
  code : h.controller.gameCode = reg.gameCode
  placed : h.controller.Placed reg.rounds k
  currRound : h.controller.currRound = shownRounds reg.rounds k
  currentGroups : h.controller.currentGroups = v.winners
  valid : ∀ p ∈ h.picks, p.Valid v.winners (reg.added v.winners)
  played : h.controller.tournament = v.play v.winners (k + 1) h.picks
  shown : k < reg.rounds → (h.controller.bracketViewGroupDict ⟨k⟩).isSome

theorem Playing.of_loaded (version : Version reg k v) (stored : Stored reg docs k v)
    (code : c.gameCode = reg.gameCode) (loaded : c.Loaded reg.rounds k v) :
    Playing reg { controller := c, stored := docs } k v := by
  refine ⟨version, stored, code, loaded.toPlaced, loaded.currRound, loaded.currentGroups, ?_,
    loaded.tournament, ?_⟩
  · intro p member
    cases member
  · intro unfinished
    dsimp only
    rw [loaded.shown k (by rw [shownRounds_of_lt unfinished]; omega), version.current]
    rfl

theorem Stored.append {document : Document} {w : Tournament} (stored : Stored reg docs k v)
    (loaded : Tournament.getTournament reg.gameCode document = some w) (version : Version reg (k + 1) w) :
    Stored reg (docs ++ [document]) (k + 1) w := by
  have length := stored.length
  have new : (docs ++ [document])[k + 1]? = some document := by
    rw [List.getElem?_append_right (by omega), length, Nat.sub_self]
    rfl
  refine ⟨by simp [length], ?_, ?_⟩
  · intro i other here
    rcases Nat.lt_or_ge i docs.length with old | last
    · rw [List.getElem?_append_left old] at here
      exact stored.versions i other here
    · have bound : i < (docs ++ [document]).length := (List.getElem?_eq_some_iff.mp here).1
      obtain rfl : i = k + 1 := by
        rw [List.length_append, List.length_singleton] at bound
        omega
      obtain rfl := Option.some.inj (new.symm.trans here)
      exact ⟨w, loaded, version⟩
  · intro other here
    obtain rfl := Option.some.inj (new.symm.trans here)
    exact loaded

theorem Playing.unfinished_iff (playing : Playing reg h k v) :
    h.controller.currentGroups.length ≠ 1 ↔ k < reg.rounds := by
  have done := playing.version.done
  rw [playing.currentGroups, playing.version.winners_length]
  constructor
  · intro several
    by_contra finished
    exact several (by rw [show reg.rounds - k = 0 by omega, Nat.pow_zero])
  · intro unfinished
    have := Nat.one_lt_two_pow (show reg.rounds - k ≠ 0 by omega)
    omega

theorem Playing.currentList (playing : Playing reg h k v) (unfinished : k < reg.rounds) :
    h.currentList = some (v.winners.map (markAll v.winners h.picks)) := by
  have round : h.controller.currRound = k + 1 := playing.currRound.trans (shownRounds_of_lt unfinished)
  unfold Host.currentList
  rw [round, playing.played, play_roundList]
  exact ofRound?_modify (r := k + 1) playing.version.current

theorem valid_congr {L M : List Group} (same : M.map Group.entry = L.map Group.entry) (p : Pick) :
    p.Valid M (reg.added M) ↔ p.Valid L (reg.added L) := by
  have length : M.length = L.length := by simpa using congrArg List.length same
  have seed : ∀ i, (M.getD i {}).seed = (L.getD i {}).seed := fun i =>
    congrArg Prod.snd (congrFun (entryAt_congr same) i)
  simp only [Pick.Valid, Registration.added, length, seed]

/-! ### The events -/

theorem Playing.pick (playing : Playing reg h k v) (unfinished : k < reg.rounds)
    (valid : p.Valid v.winners (reg.added v.winners)) :
    ∃ h', h.pick reg p = some h' ∧ Playing reg h' k v := by
  have marked := marked_entries v.winners h.picks
  have list := playing.currentList unfinished
  have round : h.controller.currRound = k + 1 := playing.currRound.trans (shownRounds_of_lt unfinished)
  have onScreen : ofRound? h.controller.bracketViewArr (k + 1) = some ⟨k⟩ := by
    rw [playing.placed.arr]
    exact tables_getElem? (by rw [shownRounds_of_lt unfinished]; omega)
  obtain ⟨shown, filled⟩ := Option.isSome_iff_exists.mp (playing.shown unfinished)
  unfold Host.currentList at list
  rw [round] at list
  let c : BracketController := { h.controller with
    tournament := h.controller.tournament.updateWinner (p.winner v.winners) (p.loser v.winners) (k + 1)
    bracketViewGroupDict := Function.update h.controller.bracketViewGroupDict ⟨k⟩
      (some (shown.map (Group.mark (p.winner v.winners) (p.loser v.winners)))) }
  have picked : h.controller.updateWinner (p.winner v.winners) (p.loser v.winners) (k + 1) = some c :=
    BracketController.updateWinner_eq list onScreen filled
  refine ⟨{ h with controller := c, picks := h.picks ++ [p] }, ?_, ?_⟩
  · unfold Host.pick
    rw [Host.currentList, round, list, Option.bind_eq_bind, Option.bind_some,
      if_pos ((valid_congr marked p).mpr valid), Pick.winner_congr marked, Pick.loser_congr marked, picked]
    rfl
  · refine ⟨playing.version, playing.stored, playing.code, ?_, playing.currRound, playing.currentGroups,
      ?_, ?_, ?_⟩
    · exact ⟨playing.placed.initialized, playing.placed.arr, playing.placed.rows⟩
    · intro q member
      rcases List.mem_append.mp member with old | new
      · exact playing.valid q old
      · obtain rfl := List.mem_singleton.mp new
        exact valid
    · rw [Tournament.play_append, ← playing.played]
    · intro _
      simp [c]

theorem Playing.confirm (playing : Playing reg h k v) (unfinished : k < reg.rounds)
    (covers : Covers h.picks v.winners.length) :
    ∃ h', h.confirm = some h' ∧ ∃ w, Playing reg h' (k + 1) w := by
  have list := playing.currentList unfinished
  have next := playing.version.next unfinished playing.valid covers
  obtain ⟨document, written, loaded⟩ := next.sourced.stored
  have stored : h.controller.tournament.nextRound.store = some (reg.gameCode, document) := by
    rw [playing.played, written]
  have placed := playing.placed
  let pressed : BracketController :=
    { h.controller with winnerSelectedCount := 0, tournament := h.controller.tournament.nextRound }
  obtain ⟨d, shown, after, kept, -⟩ := BracketController.snapshot_next (c := pressed) next.sized
    ⟨placed.initialized, placed.arr, placed.rows⟩
  have pressedCode : pressed.gameCode = reg.gameCode := playing.code
  have delivered : pressed.deliver document = some d := (deliver_eq pressedCode loaded).trans shown
  have confirmed : h.controller.nextRound = some (pressed, reg.gameCode, document) := by
    rw [BracketController.nextRound]
    simp only [stored]
    rfl
  refine ⟨{ controller := d, stored := h.stored ++ [document] }, ?_, _,
    .of_loaded next (playing.stored.append loaded next) (kept.trans pressedCode) after⟩
  unfold Host.confirm
  rw [list]
  simp only [Option.bind_eq_bind, Option.bind_some, List.length_map]
  rw [if_pos covers, confirmed, Option.bind_some]
  dsimp only
  rw [if_pos pressedCode.symm, delivered]
  rfl

theorem Playing.reopen (playing : Playing reg h k v) :
    ∃ h', h.reopen = some h' ∧ Playing reg h' k v := by
  have length := playing.stored.length
  obtain ⟨document, last⟩ : ∃ document, h.stored[k]? = some document :=
    ⟨_, List.getElem?_eq_getElem (by omega)⟩
  have loaded := playing.stored.last document last
  let opened : BracketController := { gameCode := h.controller.gameCode, host := h.controller.host }
  have openedCode : opened.gameCode = reg.gameCode := playing.code
  obtain ⟨d, shown, after, kept, -⟩ := BracketController.snapshot_fresh (c := opened)
    playing.version.sized rfl rfl
  have delivered : opened.deliver document = some d := (deliver_eq openedCode loaded).trans shown
  refine ⟨{ controller := d, stored := h.stored }, ?_,
    .of_loaded playing.version playing.stored (kept.trans openedCode) after⟩
  unfold Host.reopen
  rw [List.getLast?_eq_getElem?, length, Nat.add_sub_cancel, last, Option.bind_eq_bind,
    Option.bind_some]
  show (opened.deliver document).bind (fun c => some ({ controller := c, stored := h.stored } : Host)) = _
  rw [delivered]
  rfl

theorem start_playing (clear : reg.Clear) : ∃ h, Host.start reg = some h ∧ Playing reg h 0 reg.created := by
  have version := version_created clear
  obtain ⟨document, written, loaded⟩ := version.sourced.stored
  let opened : BracketController := { gameCode := reg.gameCode, host := true }
  obtain ⟨d, shown, after, kept, -⟩ := BracketController.snapshot_fresh (c := opened) version.sized rfl rfl
  have delivered : opened.deliver document = some d := (deliver_eq (c := opened) rfl loaded).trans shown
  have stored : Stored reg [document] 0 reg.created := by
    refine ⟨rfl, ?_, ?_⟩
    · intro i other here
      have bound : i < 1 := (List.getElem?_eq_some_iff.mp here).1
      obtain rfl : i = 0 := by omega
      obtain rfl := Option.some.inj here
      exact ⟨_, loaded, version⟩
    · intro other here
      obtain rfl := Option.some.inj here
      exact loaded
  refine ⟨{ controller := d, stored := [document] }, ?_, .of_loaded version stored kept after⟩
  unfold Host.start
  rw [written, Option.bind_eq_bind, Option.bind_some]
  show (opened.deliver document).bind (fun c => some ({ controller := c, stored := [document] } : Host)) = _
  rw [delivered]
  rfl

theorem Playing.step (playing : Playing reg h k v) {e : HostEvent} (stepped : h.step reg e = some h') :
    ∃ k w, Playing reg h' k w := by
  unfold Host.step at stepped
  split at stepped
  · cases stepped
  · rename_i several
    have unfinished := playing.unfinished_iff.mp several
    have list := playing.currentList unfinished
    cases e with
    | pick p =>
      have valid : p.Valid v.winners (reg.added v.winners) := by
        by_contra invalid
        dsimp only at stepped
        unfold Host.pick at stepped
        rw [list, Option.bind_eq_bind, Option.bind_some,
          if_neg (mt (valid_congr (marked_entries v.winners h.picks) p).mp invalid)] at stepped
        cases stepped
      obtain ⟨next, picked, still⟩ := playing.pick unfinished valid
      obtain rfl := Option.some.inj (stepped.symm.trans picked)
      exact ⟨k, v, still⟩
    | confirm =>
      have covers : Covers h.picks v.winners.length := by
        by_contra undecided
        dsimp only at stepped
        unfold Host.confirm at stepped
        rw [list, Option.bind_eq_bind, Option.bind_some, List.length_map,
          if_neg undecided] at stepped
        cases stepped
      obtain ⟨next, confirmed, w, after⟩ := playing.confirm unfinished covers
      obtain rfl := Option.some.inj (stepped.symm.trans confirmed)
      exact ⟨k + 1, w, after⟩
    | reopen =>
      obtain ⟨next, opened, after⟩ := playing.reopen
      obtain rfl := Option.some.inj (stepped.symm.trans opened)
      exact ⟨k, v, after⟩

/-- The groups of the created tournament, all of them in the first round list, in order; each round list has
the winners of the one before it, half as many groups, and the last one is `winners`. -/
structure Knockout (reg : Registration) (t : Tournament) : Prop where
  groups : t.groups = reg.created.groups
  first : ∃ L, t.roundList[0]? = some L ∧ L.map Group.name = t.groups.map Group.name
  halves : ∃ k ≤ Nat.log 2 t.groups.length, t.roundList.length = k + 1 ∧
    ∀ i ≤ k, ∃ L, t.roundList[i]? = some L ∧ L.length * 2 ^ i = t.groups.length
  advances : ∀ i L M, t.roundList[i]? = some L → t.roundList[i + 1]? = some M → Advances L M
  winners : t.roundList.getLast? = some t.winners

theorem Version.knockout (version : Version reg k v) : Knockout reg v := by
  have groups : v.groups.length = 2 ^ reg.rounds := version.sized.groups
  refine ⟨?_, ?_, ⟨k, ?_, version.lists, ?_⟩, version.advances, ?_⟩
  · rw [version.sourced.groups, reg.created_eq]
  · obtain ⟨L, here, entries⟩ := Option.map_eq_some_iff.mp version.first
    refine ⟨L, here, ?_⟩
    have names := congrArg (List.map Prod.fst) entries
    rwa [List.map_map, List.map_map, ← version.sourced.groups] at names
  · rw [groups, Nat.log_pow (by decide)]
    exact version.done
  · intro i le
    obtain ⟨L, here, size⟩ := version.sizes i le
    have done := version.done
    refine ⟨L, here, ?_⟩
    rw [size, groups, ← Nat.pow_add]
    congr 1
    omega
  · rw [List.getLast?_eq_getElem?, version.lists, Nat.add_sub_cancel, version.current]

/-- Every document that a host stores holds a knockout. -/
theorem stored_knockout (free : "FREE" ∉ reg.names) {first : Host} {es : List HostEvent}
    (opened : Host.start reg = some first) (ran : Transition.run (Host.step reg) first es = some h) :
    ∀ document ∈ h.stored, ∃ t, Tournament.getTournament reg.gameCode document = some t ∧ Knockout reg t := by
  have clear : reg.Clear := Or.inl free
  obtain ⟨host, started, playing⟩ := start_playing clear
  obtain rfl := Option.some.inj (opened.symm.trans started)
  have keep : ∀ s e t, (∃ k v, Playing reg s k v) → s.step reg e = some t → ∃ k v, Playing reg t k v := by
    rintro s e t ⟨k, v, playing⟩ stepped
    exact playing.step stepped
  obtain ⟨k, v, reached⟩ := Transition.run_invariant' keep ⟨0, reg.created, playing⟩ ran
  intro document stored
  obtain ⟨i, here⟩ := List.mem_iff_getElem?.mp stored
  obtain ⟨t, loaded, version⟩ := reached.stored.versions i document here
  exact ⟨t, loaded, version.knockout⟩

def threeEvents : List HostEvent :=
  [.pick ⟨1, .first, false, false⟩, .reopen, .pick ⟨1, .second, false, false⟩,
    .pick ⟨1, .first, false, false⟩, .pick ⟨0, .first, false, false⟩, .confirm,
    .pick ⟨0, .second, false, false⟩, .confirm]

theorem stored_knockout_three :
    ∃ first h, Host.start three = some first ∧
      Transition.run (Host.step three) first threeEvents = some h ∧ h.stored.length = 3 ∧
      ∀ document ∈ h.stored, ∃ t, Tournament.getTournament three.gameCode document = some t ∧
        Knockout three t := by
  have ends : ((Host.start three).bind fun first =>
      (Transition.run (Host.step three) first threeEvents).map (·.stored.length)) = some 3 := by decide
  obtain ⟨first, opened, ends⟩ := Option.bind_eq_some_iff.mp ends
  obtain ⟨h, ran, length⟩ := Option.map_eq_some_iff.mp ends
  exact ⟨first, h, opened, ran, length, stored_knockout (by decide) opened ran⟩

end Tourni
