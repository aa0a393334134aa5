import Tourni.Bracket.HostRun

/-!
# Decided rounds

The tournament after a list of rounds, each of them given by its picks, and the rounds behind the documents that
a host has stored.
-/

namespace Tourni
open Mirror

/-- One round of the tournament: its picks, then `nextRound`. -/
def Tournament.decideRound (t : Tournament) (ps : List Pick) : Tournament :=
  (t.play t.winners t.roundList.length ps).nextRound

/-- The created tournament after the rounds of `pss`. -/
def Registration.after (reg : Registration) (pss : List (List Pick)) : Tournament :=
  pss.foldl Tournament.decideRound reg.created

/-- The picks are allowed in the current round of `t`, and decide all of its rows. -/
def Settles (reg : Registration) (t : Tournament) (ps : List Pick) : Prop :=
  (∀ p ∈ ps, p.Valid t.winners (reg.added t.winners)) ∧ Covers ps t.winners.length

/-- Every round of `pss` satisfies `P`, in the tournament after the rounds before it. -/
def EachRound (reg : Registration) (P : Tournament → List Pick → Prop) (pss : List (List Pick)) : Prop :=
  ∀ k ps, pss[k]? = some ps → P (reg.after (pss.take k)) ps

def Decided (reg : Registration) (pss : List (List Pick)) : Prop :=
  pss.length ≤ reg.rounds ∧ EachRound reg (Settles reg) pss

variable {reg : Registration} {pss : List (List Pick)} {ps : List Pick} {h h' : Host} {e : HostEvent}
  {k i : Nat} {v : Tournament} {docs : List Document} {document : Document} {P : Tournament → List Pick → Prop}

theorem Registration.after_append (reg : Registration) (pss : List (List Pick)) (ps : List Pick) :
    reg.after (pss ++ [ps]) = (reg.after pss).decideRound ps := by
  simp [after]

theorem eachRound_nil (reg : Registration) (P : Tournament → List Pick → Prop) : EachRound reg P [] :=
  fun k ps none => by cases none

theorem eachRound_append :
    EachRound reg P (pss ++ [ps]) ↔ EachRound reg P pss ∧ P (reg.after pss) ps := by
  have old : ∀ {k qs}, pss[k]? = some qs →
      (pss ++ [ps])[k]? = some qs ∧ (pss ++ [ps]).take k = pss.take k := by
    intro k qs here
    have bound := (List.getElem?_eq_some_iff.mp here).1
    exact ⟨by rwa [List.getElem?_append_left bound], List.take_append_of_le_length bound.le⟩
  have last : (pss ++ [ps])[pss.length]? = some ps := List.getElem?_concat_length
  have before : (pss ++ [ps]).take pss.length = pss := List.take_left
  constructor
  · intro each
    refine ⟨fun k qs here => ?_, by simpa [before] using each _ ps last⟩
    obtain ⟨there, same⟩ := old here
    simpa [same] using each k qs there
  · rintro ⟨each, now⟩ k qs here
    have bound := (List.getElem?_eq_some_iff.mp here).1
    rw [List.length_append, List.length_singleton] at bound
    rcases Nat.lt_or_eq_of_le (Nat.le_of_lt_succ bound) with earlier | rfl
    · have there := here
      rw [List.getElem?_append_left earlier] at there
      rw [(old there).2]
      exact each k qs there
    · obtain rfl := Option.some.inj (last.symm.trans here)
      rwa [before]

theorem EachRound.take (each : EachRound reg P pss) (i : Nat) : EachRound reg P (pss.take i) := by
  intro k ps here
  rw [List.getElem?_take] at here
  split at here
  · rename_i below
    rw [List.take_take, Nat.min_eq_left below.le]
    exact each k ps here
  · cases here

theorem decided_nil (reg : Registration) : Decided reg [] := ⟨Nat.zero_le _, eachRound_nil reg _⟩

theorem decided_append : Decided reg (pss ++ [ps]) ↔
    Decided reg pss ∧ pss.length < reg.rounds ∧ Settles reg (reg.after pss) ps := by
  unfold Decided
  rw [eachRound_append, List.length_append, List.length_singleton]
  constructor
  · rintro ⟨short, each, now⟩
    exact ⟨⟨by omega, each⟩, short, now⟩
  · rintro ⟨⟨-, each⟩, short, now⟩
    exact ⟨short, each, now⟩

theorem Decided.take (decided : Decided reg pss) (i : Nat) : Decided reg (pss.take i) :=
  ⟨(List.length_take_le' i pss).trans decided.1, decided.2.take i⟩

/-- Deciding round after round makes version after version. -/
theorem Decided.version (decided : Decided reg pss) (clear : reg.Clear) :
    Version reg pss.length (reg.after pss) := by
  induction pss using List.reverseRecOn with
  | nil => exact version_created clear
  | append_singleton pss ps ih =>
    obtain ⟨before, unfinished, valid, covers⟩ := decided_append.mp decided
    have version := ih before
    rw [Registration.after_append, Tournament.decideRound, version.lists, List.length_append, List.length_singleton]
    exact version.next unfinished valid covers

/-! ### The documents of a host -/

/-- The stored documents are those of the tournament before and after each of the rounds. -/
structure Written (reg : Registration) (docs : List Document) (pss : List (List Pick)) : Prop where
  length : docs.length = pss.length + 1
  load : ∀ i document, docs[i]? = some document →
    Tournament.getTournament reg.gameCode document = some (reg.after (pss.take i))

theorem Written.append (written : Written reg docs pss)
    (loaded : Tournament.getTournament reg.gameCode document = some ((reg.after pss).decideRound ps)) :
    Written reg (docs ++ [document]) (pss ++ [ps]) := by
  have length := written.length
  refine ⟨by simp [length], fun i other here => ?_⟩
  have bound := (List.getElem?_eq_some_iff.mp here).1
  rw [List.length_append, List.length_singleton, length] at bound
  rcases Nat.lt_or_ge i docs.length with old | last
  · rw [List.getElem?_append_left old] at here
    rw [List.take_append_of_le_length (by omega)]
    exact written.load i other here
  · obtain rfl : i = docs.length := by omega
    rw [List.getElem?_concat_length] at here
    obtain rfl := Option.some.inj here
    rw [length, List.take_of_length_le (by simp), Registration.after_append]
    exact loaded

theorem Host.pick_inv {p : Pick} (picked : h.pick reg p = some h') :
    h'.picks = h.picks ++ [p] ∧ h'.stored = h.stored := by
  obtain ⟨L, -, picked⟩ := Option.bind_eq_some_iff.mp picked
  split at picked
  · obtain ⟨c, -, made⟩ := Option.bind_eq_some_iff.mp picked
    obtain rfl := Option.some.inj made
    exact ⟨rfl, rfl⟩
  · cases picked

theorem Host.reopen_inv (reopened : h.reopen = some h') : h'.picks = [] ∧ h'.stored = h.stored := by
  obtain ⟨document, -, reopened⟩ := Option.bind_eq_some_iff.mp reopened
  obtain ⟨c, -, made⟩ := Option.bind_eq_some_iff.mp reopened
  obtain rfl := Option.some.inj made
  exact ⟨rfl, rfl⟩

theorem Host.confirm_inv (confirmed : h.confirm = some h') :
    h'.picks = [] ∧ (∃ L, h.currentList = some L ∧ Covers h.picks L.length) ∧
    ∃ code document, h.controller.tournament.nextRound.store = some (code, document) ∧
      h'.stored = h.stored ++ [document] := by
  obtain ⟨L, list, confirmed⟩ := Option.bind_eq_some_iff.mp confirmed
  split at confirmed
  · rename_i covers
    obtain ⟨⟨c, code, document⟩, stores, confirmed⟩ := Option.bind_eq_some_iff.mp confirmed
    dsimp only at confirmed
    split at confirmed
    · obtain ⟨d, -, made⟩ := Option.bind_eq_some_iff.mp confirmed
      obtain rfl := Option.some.inj made
      obtain ⟨written, stored, stores⟩ := Option.bind_eq_some_iff.mp stores
      obtain ⟨-, rfl⟩ := Prod.mk.inj (Option.some.inj stores)
      exact ⟨rfl, ⟨L, list, covers⟩, _, _, stored, rfl⟩
    · cases confirmed
  · cases confirmed

/-- What an event does to a host: a pick, a decided round, or a fresh start of the same round. -/
inductive Playing.Step (reg : Registration) (h : Host) (k : Nat) (v : Tournament) : HostEvent → Host → Prop
  | pick {p : Pick} {h' : Host} (valid : p.Valid v.winners (reg.added v.winners))
    (picks : h'.picks = h.picks ++ [p]) (stored : h'.stored = h.stored) (playing : Playing reg h' k v) :
    Step reg h k v (.pick p) h'
  | confirm {h' : Host} {document : Document} (settles : Settles reg v h.picks) (picks : h'.picks = [])
    (stored : h'.stored = h.stored ++ [document])
    (written : (v.decideRound h.picks).store = some (reg.gameCode, document))
    (loaded : Tournament.getTournament reg.gameCode document = some (v.decideRound h.picks))
    (playing : Playing reg h' (k + 1) (v.decideRound h.picks)) : Step reg h k v .confirm h'
  | reopen {h' : Host} (picks : h'.picks = []) (stored : h'.stored = h.stored) (playing : Playing reg h' k v) :
    Step reg h k v .reopen h'

theorem Playing.unfinished_of_step (playing : Playing reg h k v) (stepped : h.step reg e = some h') :
    k < reg.rounds := by
  unfold Host.step at stepped
  split at stepped
  · cases stepped
  · rename_i several
    exact playing.unfinished_iff.mp several

theorem Playing.step_eq (playing : Playing reg h k v) (unfinished : k < reg.rounds) (e : HostEvent) :
    h.step reg e = match e with
      | .pick p => h.pick reg p
      | .confirm => h.confirm
      | .reopen => h.reopen := by
  unfold Host.step
  refine (if_neg (playing.unfinished_iff.mpr unfinished)).trans ?_
  cases e <;> rfl

theorem Playing.step_inv (playing : Playing reg h k v) (stepped : h.step reg e = some h') :
    Playing.Step reg h k v e h' := by
  have unfinished := playing.unfinished_of_step stepped
  have list := playing.currentList unfinished
  rw [playing.step_eq unfinished] at stepped
  cases e with
  | pick p =>
    have valid : p.Valid v.winners (reg.added v.winners) := by
      by_contra invalid
      dsimp only at stepped
      unfold Host.pick at stepped
      rw [list, Option.bind_eq_bind, Option.bind_some,
        if_neg (mt (valid_congr (marked_entries v.winners h.picks) p).mp invalid)] at stepped
      cases stepped
    obtain ⟨next, picked, still⟩ := playing.pick unfinished valid
    obtain rfl := Option.some.inj (stepped.symm.trans picked)
    obtain ⟨picks, stored⟩ := Host.pick_inv picked
    exact .pick valid picks stored still
  | confirm =>
    obtain ⟨picks, ⟨L, current, covers⟩, code, document, written, stored⟩ := Host.confirm_inv stepped
    obtain rfl := Option.some.inj (list.symm.trans current)
    rw [List.length_map] at covers
    have decided : h.controller.tournament.nextRound = v.decideRound h.picks := by
      rw [playing.played, Tournament.decideRound, playing.version.lists]
    have next := playing.version.next unfinished playing.valid covers
    obtain ⟨next', confirmed, w, after⟩ := playing.confirm unfinished covers
    obtain rfl := Option.some.inj (stepped.symm.trans confirmed)
    obtain ⟨document', written', loaded⟩ := next.sourced.stored
    rw [playing.played] at written
    obtain ⟨rfl, rfl⟩ := Prod.mk.inj (Option.some.inj (written.symm.trans written'))
    -- The version the host goes on with is the one it has just stored.
    have last : h'.stored[k + 1]? = some document := by
      rw [stored, ← playing.stored.length, List.getElem?_concat_length]
    have same := Option.some.inj ((after.stored.last document last).symm.trans loaded)
    rw [← playing.played, decided] at loaded same written'
    subst same
    exact .confirm ⟨playing.valid, covers⟩ picks stored written' loaded after
  | reopen =>
    obtain ⟨next, opened, after⟩ := playing.reopen
    obtain rfl := Option.some.inj (stepped.symm.trans opened)
    obtain ⟨picks, stored⟩ := Host.reopen_inv opened
    exact .reopen picks stored after

/-- The host has stored the rounds `pss`, and is playing the next one. -/
structure Scored (reg : Registration) (h : Host) (pss : List (List Pick)) : Prop where
  decided : Decided reg pss
  written : Written reg h.stored pss
  playing : Playing reg h pss.length (reg.after pss)

theorem start_scored (clear : reg.Clear) : ∃ h, Host.start reg = some h ∧ h.picks = [] ∧ Scored reg h [] := by
  obtain ⟨h, started, playing⟩ := start_playing clear
  have fresh : h.picks = [] := by
    obtain ⟨⟨code, document⟩, -, started⟩ := Option.bind_eq_some_iff.mp started
    obtain ⟨c, -, made⟩ := Option.bind_eq_some_iff.mp started
    obtain rfl := Option.some.inj made
    rfl
  have length := playing.stored.length
  refine ⟨h, started, fresh, decided_nil reg, ⟨length, fun i document here => ?_⟩, playing⟩
  have bound := (List.getElem?_eq_some_iff.mp here).1
  obtain rfl : i = 0 := by omega
  exact playing.stored.last document here

theorem Scored.confirmed (scored : Scored reg h pss) (unfinished : pss.length < reg.rounds)
    (settles : Settles reg (reg.after pss) h.picks) (stored : h'.stored = h.stored ++ [document])
    (loaded : Tournament.getTournament reg.gameCode document = some ((reg.after pss).decideRound h.picks))
    (playing : Playing reg h' (pss.length + 1) ((reg.after pss).decideRound h.picks)) :
    Scored reg h' (pss ++ [h.picks]) := by
  refine ⟨decided_append.mpr ⟨scored.decided, unfinished, settles⟩, ?_, ?_⟩
  · rw [stored]
    exact scored.written.append loaded
  · rw [Registration.after_append, List.length_append, List.length_singleton]
    exact playing

theorem Scored.step (scored : Scored reg h pss) (stepped : h.step reg e = some h') : ∃ qss, Scored reg h' qss := by
  have unfinished := scored.playing.unfinished_of_step stepped
  cases scored.playing.step_inv stepped with
  | pick valid picks stored after => exact ⟨pss, scored.decided, stored ▸ scored.written, after⟩
  | confirm settles picks stored written loaded after =>
    exact ⟨_, scored.confirmed unfinished settles stored loaded after⟩
  | reopen picks stored after => exact ⟨pss, scored.decided, stored ▸ scored.written, after⟩

/-- Behind the documents stored in a run whose events meet `ok` are decided rounds; what `ok` says about the picks
as they are made holds of the picks of each round. -/
theorem run_scored_each (clear : reg.Clear) {ok : Host → HostEvent → Prop} {Q : List Pick → Prop}
    (nothing : Q []) (pick : ∀ h p, Q h.picks → ok h (.pick p) → Q (h.picks ++ [p]))
    (confirm : ∀ h k v, k < reg.rounds → Playing reg h k v → Q h.picks → ok h .confirm → P v h.picks)
    {first : Host} {es : List HostEvent} (opened : Host.start reg = some first)
    (met : Transition.Meets (Host.step reg) ok first es)
    (ran : Transition.run (Host.step reg) first es = some h) :
    ∃ pss, Scored reg h pss ∧ EachRound reg P pss := by
  obtain ⟨host, started, fresh, scored⟩ := start_scored clear
  obtain rfl := Option.some.inj (opened.symm.trans started)
  have keep : ∀ s e t, ((∃ pss, Scored reg s pss ∧ EachRound reg P pss) ∧ Q s.picks) → ok s e →
      s.step reg e = some t → (∃ pss, Scored reg t pss ∧ EachRound reg P pss) ∧ Q t.picks := by
    rintro s e t ⟨⟨pss, scored, each⟩, now⟩ allowed stepped
    have unfinished := scored.playing.unfinished_of_step stepped
    cases scored.playing.step_inv stepped with
    | pick valid picks stored after =>
      exact ⟨⟨pss, ⟨scored.decided, stored ▸ scored.written, after⟩, each⟩, picks ▸ pick s _ now allowed⟩
    | confirm settles picks stored written loaded after =>
      refine ⟨⟨_, scored.confirmed unfinished settles stored loaded after, ?_⟩, picks ▸ nothing⟩
      exact eachRound_append.mpr ⟨each, confirm s _ _ unfinished scored.playing now allowed⟩
    | reopen picks stored after =>
      exact ⟨⟨pss, ⟨scored.decided, stored ▸ scored.written, after⟩, each⟩, picks ▸ nothing⟩
  have reached := Transition.run_invariant keep ⟨⟨[], scored, eachRound_nil reg P⟩, fresh ▸ nothing⟩ met ran
  exact reached.1

theorem run_scored (clear : reg.Clear) {first : Host} {es : List HostEvent} (opened : Host.start reg = some first)
    (ran : Transition.run (Host.step reg) first es = some h) : ∃ pss, Scored reg h pss := by
  have met : Transition.Meets (Host.step reg) (fun _ _ => True) first es :=
    Transition.meets_of_forall (fun _ _ => trivial) first es
  obtain ⟨pss, scored, -⟩ := run_scored_each (P := fun _ _ => True) (Q := fun _ => True) clear trivial
    (fun _ _ _ _ => trivial) (fun _ _ _ _ _ _ _ => trivial) opened met ran
  exact ⟨pss, scored⟩

theorem Scored.decided_of_mem (scored : Scored reg h pss) (stored : document ∈ h.stored) :
    ∃ i ≤ pss.length, Tournament.getTournament reg.gameCode document = some (reg.after (pss.take i)) ∧
      Decided reg (pss.take i) := by
  obtain ⟨i, here⟩ := List.mem_iff_getElem?.mp stored
  have bound := (List.getElem?_eq_some_iff.mp here).1
  have length := scored.written.length
  exact ⟨i, by omega, scored.written.load i document here, scored.decided.take i⟩

/-- The host of three groups stores all of its rounds. -/
theorem three_runs : ∃ first h, Host.start three = some first ∧
    Transition.run (Host.step three) first threeEvents = some h ∧ h.stored.length = 3 := by
  have ends : ((Host.start three).bind fun first =>
      (Transition.run (Host.step three) first threeEvents).map (·.stored.length)) = some 3 := by decide
  obtain ⟨first, opened, ends⟩ := Option.bind_eq_some_iff.mp ends
  obtain ⟨h, ran, length⟩ := Option.map_eq_some_iff.mp ends
  exact ⟨first, h, opened, ran, length⟩

end Tourni
