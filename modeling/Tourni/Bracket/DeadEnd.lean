import Tourni.Bracket.Prompt

/-!
# Tournaments that cannot go on

A round confirmed too early stores a list of winners of any length. When the bracket is opened again, the current
round is looked up from that length: if none is found, or its list is not there, no table is ever shown and nothing
more is ever stored.
-/

namespace Tourni

/-- The number of winners names a round whose list is stored: half of them are its match-ups, or one is left after
the final. -/
def Playable (reg : Registration) (t : Tournament) : Prop :=
  ∃ i < reg.rounds, i < t.roundList.length ∧
    (t.winners.length / 2 = 2 ^ (reg.rounds - 1 - i) ∨ (t.winners.length = 1 ∧ i + 1 = reg.rounds))

instance (reg : Registration) (t : Tournament) : Decidable (Playable reg t) :=
  inferInstanceAs (Decidable (∃ i < reg.rounds, _))

/-- Nothing is on the screen, nothing new is stored, and only the last document can still be delivered. -/
structure Empty (reg : Registration) (documents : List Document) (s : Screen) : Prop where
  consistent : Consistent reg s
  stored : s.stored = documents
  rows : ∀ table, s.controller.numberOfRows table = none
  visibleCells : ∀ table row, s.visibleCells table row = none
  prompt : s.prompt = false
  seen : documents.length ≤ s.seen + 1
  caughtUp : s.controller.initialized = true → s.seen = documents.length

variable {reg : Registration} {s o u : Screen} {c : BracketController} {t : Tournament} {e : ScreenEvent}
  {documents : List Document} {document : Document}

/-! ### The lookup of a fresh controller -/

theorem receive_matches (sourced : Sourced reg t) (c : BracketController) :
    (c.receive t).roundMatches = generateMatches reg.rounds := by
  show generateMatches (generateRounds t.getNumGroups) = _
  rw [sourced.generateRounds_eq]

theorem fresh_start (fresh : c.initialized = false) : (c.receive t).startBracketAt = 0 := by
  have kept : (c.receive t).initialized = false := fresh
  rw [BracketController.startBracketAt, kept]
  rfl

/-- The tables that a fresh controller builds are those of the rounds up to the current one. -/
theorem fresh_built (fresh : c.initialized = false) (zero : c.currRound = 0) :
    (c.receive t).built = (c.receive t).nextCurrRound := by
  have kept : (c.receive t).initialized = false := fresh
  unfold BracketController.built
  rw [fresh_start fresh, kept, Nat.sub_zero]
  cases found : (c.receive t).lookupRound with
  | some i => simp
  | none =>
    cases single : (c.receive t).currentGroups.length == 1 with
    | true => rfl
    | false =>
      have stays : (c.receive t).nextCurrRound = 0 := by
        unfold BracketController.nextCurrRound
        rw [found, single]
        exact zero
      rw [stays]
      rfl

/-- The current round of a fresh controller is a round that the number of winners names, or none. -/
theorem fresh_round (sourced : Sourced reg t) (zero : c.currRound = 0) :
    (c.receive t).nextCurrRound = 0 ∨ ∃ i < reg.rounds, (c.receive t).nextCurrRound = i + 1 ∧
      (t.winners.length / 2 = 2 ^ (reg.rounds - 1 - i) ∨ (t.winners.length = 1 ∧ i + 1 = reg.rounds)) := by
  have positive := reg.rounds_pos
  have size : (c.receive t).rounds = reg.rounds := sourced.generateRounds_eq
  unfold BracketController.nextCurrRound
  cases found : (c.receive t).lookupRound with
  | some i =>
    unfold BracketController.lookupRound at found
    rw [receive_matches sourced] at found
    obtain ⟨bound, half, -⟩ := List.findIdx?_eq_some_iff_getElem.mp found
    rw [generateMatches_length] at bound
    have entry := generateMatches_getElem? bound
    rw [List.getElem?_eq_getElem (by rwa [generateMatches_length])] at entry
    rw [beq_iff_eq, Option.some.inj entry] at half
    exact Or.inr ⟨i, bound, rfl, Or.inl half⟩
  | none =>
    dsimp only
    split
    · rename_i single
      refine Or.inr ⟨reg.rounds - 1, by omega, by omega, Or.inr ⟨?_, by omega⟩⟩
      exact beq_iff_eq.mp single
    · exact Or.inl zero

/-- A fresh controller finds the round that the number of winners names. -/
theorem fresh_finds (sourced : Sourced reg t) {i : Nat} (bound : i < reg.rounds)
    (named : t.winners.length / 2 = 2 ^ (reg.rounds - 1 - i) ∨ (t.winners.length = 1 ∧ i + 1 = reg.rounds)) :
    (c.receive t).nextCurrRound = i + 1 := by
  have size : (c.receive t).rounds = reg.rounds := sourced.generateRounds_eq
  unfold BracketController.nextCurrRound
  rcases named with half | ⟨single, last⟩
  · have found : (c.receive t).lookupRound = some i := by
      have lookup := generateMatches_findIdx? bound
      rw [half_pow_sub bound] at lookup
      unfold BracketController.lookupRound
      rw [receive_matches sourced]
      show (generateMatches reg.rounds).findIdx? (fun m => t.winners.length / 2 == m) = _
      rw [half, lookup]
    rw [found]
  · have current : (c.receive t).currentGroups.length = 1 := single
    rw [BracketController.lookupRound_of_single c single]
    simp only [current, beq_self_eq_true, if_true]
    omega

/-- The bracket of a playable tournament comes up with the table of the first round. -/
theorem Playable.shows (playable : Playable reg t) (sourced : Sourced reg t) (fresh : c.initialized = false)
    (zero : c.currRound = 0) (empty : c.bracketViewArr = []) :
    ∃ d, c.snapshot t = some d ∧ (d.numberOfRows ⟨0⟩).isSome := by
  obtain ⟨i, bound, listed, named⟩ := playable
  have arr : c.bracketViewArr = tables 0 := empty
  have built : (c.receive t).built = i + 1 := (fresh_built fresh zero).trans (fresh_finds sourced bound named)
  have matchUps : (c.receive t).roundMatches.length = reg.rounds := by
    rw [receive_matches sourced, generateMatches_length]
  have loadable : c.Loadable t 0 := by
    refine ⟨fun j below => ?_, fun running => ?_⟩
    · rw [built] at below
      rw [fresh_start fresh, matchUps]
      show 0 + j < reg.rounds ∧ 0 + j < t.roundList.length
      omega
    · rw [fresh] at running
      cases running
  refine ⟨c.afterSnapshot t 0, by rw [BracketController.snapshot_eq arr, if_pos loadable], ?_⟩
  show (BracketController.fill _ 0 (c.receive t).built (c.receive t).roundMatches
    (c.receive t).startBracketAt ⟨0⟩).isSome
  rw [BracketController.fill_of_lt (Nat.zero_le 0) (by omega), fresh_start fresh, List.getElem?_eq_getElem (by omega)]
  rfl

/-- The snapshot of an unplayable tournament traps or shows nothing. -/
theorem not_playable_shows (unplayable : ¬ Playable reg t) (sourced : Sourced reg t) (fresh : c.initialized = false)
    (zero : c.currRound = 0) (empty : c.bracketViewArr = []) {d : BracketController}
    (shown : c.snapshot t = some d) : d.numberOfRows = c.numberOfRows := by
  have arr : c.bracketViewArr = tables 0 := empty
  obtain ⟨⟨buildable, -⟩, rfl⟩ := BracketController.snapshot_inv arr shown
  have built := fresh_built (t := t) fresh zero
  rcases fresh_round sourced zero with none | ⟨i, bound, round, named⟩
  · show BracketController.fill c.bracketViewDict 0 (c.receive t).built _ _ = c.bracketViewDict
    rw [built, none, BracketController.fill_zero]
  · -- The list of the current round is missing.
    have missing : ¬ i < t.roundList.length := fun listed => unplayable ⟨i, bound, listed, named⟩
    have last := (buildable i (by omega)).2
    rw [fresh_start fresh, Nat.zero_add] at last
    exact absurd last missing

/-! ### An empty screen stays empty -/

theorem Empty.step (empty : Empty reg documents s) (last : documents.getLast? = some document)
    (loaded : Tournament.getTournament reg.gameCode document = some t) (unplayable : ¬ Playable reg t)
    (stepped : s.step e = some u) : Empty reg documents u := by
  have consistent := empty.consistent
  have still := consistent.step stepped
  cases e with
  | display table row reuse =>
    obtain ⟨rows, _, _, _, counted, -⟩ := Screen.display_inv stepped
    rw [empty.rows table] at counted
    cases counted
  | endDisplay table row =>
    obtain ⟨cell, visible, -⟩ := Screen.endDisplay_inv stepped
    rw [empty.visibleCells] at visible
    cases visible
  | tap side table row =>
    obtain ⟨cell, visible, -⟩ := Screen.tap_inv stepped
    rw [empty.visibleCells] at visible
    cases visible
  | yes =>
    have up := (Screen.yes_inv stepped).1
    rw [empty.prompt] at up
    cases up
  | no =>
    have up := (Screen.no_inv stepped).1
    rw [empty.prompt] at up
    cases up
  | snapshot version =>
    obtain ⟨new, document', w, d, stored, loaded', shown, rfl⟩ := Screen.snapshot_inv stepped
    rw [empty.stored] at stored
    have bound := (List.getElem?_eq_some_iff.mp stored).1
    have seen := empty.seen
    have fresh : s.controller.initialized = false := by
      by_contra running
      have := empty.caughtUp (by simpa using running)
      omega
    have blank := consistent.blank fresh
    rw [List.getLast?_eq_getElem?, show documents.length - 1 = version by omega, stored] at last
    obtain rfl := Option.some.inj last
    rw [consistent.code] at loaded'
    obtain rfl := Option.some.inj (loaded.symm.trans loaded')
    obtain ⟨w, same, sourced⟩ := consistent.documents document' (empty.stored ▸ List.mem_of_getElem? stored)
    obtain rfl := Option.some.inj (loaded.symm.trans same)
    have rows := not_playable_shows unplayable sourced fresh blank.currRound blank.arr shown
    refine ⟨still, empty.stored, fun table => ?_, fun _ _ => rfl, empty.prompt, ?_, fun _ => ?_⟩
    · show d.numberOfRows table = none
      rw [rows]
      exact empty.rows table
    · show documents.length ≤ version + 1 + 1
      omega
    · show version + 1 = documents.length
      omega
  | reopen =>
    obtain ⟨-, rfl⟩ := Screen.reopen_inv stepped
    refine ⟨still, empty.stored, fun _ => rfl, fun _ _ => rfl, rfl, ?_, fun running => ?_⟩
    · show documents.length ≤ s.stored.length - 1 + 1
      rw [empty.stored]
      omega
    · cases running

theorem reopened_empty (consistent : Consistent reg s) (reopened : s.reopen = some o) : Empty reg s.stored o := by
  have still := consistent.reopen reopened
  obtain ⟨-, rfl⟩ := Screen.reopen_inv reopened
  refine ⟨still, rfl, fun _ => rfl, fun _ _ => rfl, rfl, ?_, fun running => ?_⟩
  · show s.stored.length ≤ s.stored.length - 1 + 1
    omega
  · cases running

/-- Whatever was done before, a bracket that is opened again can show a table exactly when its last document is
playable; when it is not, nothing more is ever stored. -/
theorem reopened_shows_iff {es : List ScreenEvent}
    (ran : Transition.run Screen.step (Screen.start reg) es = some s) (last : s.stored.getLast? = some document)
    (loaded : Tournament.getTournament reg.gameCode document = some t) (reopened : s.reopen = some o) :
    ((∃ fs u table, Transition.run Screen.step o fs = some u ∧ (u.controller.numberOfRows table).isSome) ↔
      Playable reg t) ∧
    (¬ Playable reg t → ∀ fs u, Transition.run Screen.step o fs = some u → u.stored = s.stored) := by
  have consistent := run_consistent ran
  have empty := reopened_empty consistent reopened
  have stays : ¬ Playable reg t → ∀ fs u, Transition.run Screen.step o fs = some u → Empty reg s.stored u := by
    intro unplayable fs u further
    have keep : ∀ s' e u, Empty reg s.stored s' → Screen.step s' e = some u → Empty reg s.stored u :=
      fun _ _ _ before stepped => before.step last loaded unplayable stepped
    exact Transition.run_invariant' keep empty further
  refine ⟨⟨?_, fun playable => ?_⟩, fun unplayable fs u further => (stays unplayable fs u further).stored⟩
  · rintro ⟨fs, u, table, further, shown⟩
    by_contra unplayable
    rw [(stays unplayable fs u further).rows table] at shown
    cases shown
  · obtain ⟨w, same, sourced⟩ := consistent.documents document (List.mem_of_getLast? last)
    obtain rfl := Option.some.inj (loaded.symm.trans same)
    obtain ⟨-, made⟩ := Screen.reopen_inv reopened
    have notYet : o.controller.initialized = false := by rw [made]; rfl
    have blank := empty.consistent.blank notYet
    obtain ⟨d, shown, rows⟩ := playable.shows sourced notYet blank.currRound blank.arr
    have seen : o.seen = s.stored.length - 1 := by rw [made]; rfl
    rw [List.getLast?_eq_getElem?, ← empty.stored] at last
    have snapshots : o.step (.snapshot (s.stored.length - 1)) = some { o.reloadData with
        controller := d, seen := s.stored.length - 1 + 1, picked := [] } := by
      show o.snapshot _ = _
      unfold Screen.snapshot
      rw [if_pos (by omega)]
      rw [empty.stored] at last ⊢
      simp only [last, Option.bind_eq_bind, Option.bind_some, empty.consistent.code, loaded, shown]
    exact ⟨[.snapshot (s.stored.length - 1)], _, ⟨0⟩, (Transition.run_singleton _ _ _).trans snapshots, rows⟩

/-- With four of eight rows undecided, "Yes" leaves twelve winners, which name no round. -/
theorem reopened_shows_iff_sixteen :
    ∃ s document t o, Transition.run Screen.step (Screen.start sixteen) (scrolled ++ [.yes]) = some s ∧
      s.stored.getLast? = some document ∧ Tournament.getTournament sixteen.gameCode document = some t ∧
      s.reopen = some o ∧ ¬ Playable sixteen t ∧
      ((∃ fs u table, Transition.run Screen.step o fs = some u ∧ (u.controller.numberOfRows table).isSome) ↔
        Playable sixteen t) ∧
      (¬ Playable sixteen t → ∀ fs u, Transition.run Screen.step o fs = some u → u.stored = s.stored) := by
  have ends : ((Transition.run Screen.step (Screen.start sixteen) (scrolled ++ [.yes])).bind fun s =>
      s.stored.getLast?.bind fun document => (Tournament.getTournament sixteen.gameCode document).map fun t =>
        (s.prompt, t.winners.length, t.roundList.length)) = some (false, 12, 2) := by rfl
  obtain ⟨s, ran, ends⟩ := Option.bind_eq_some_iff.mp ends
  obtain ⟨document, last, ends⟩ := Option.bind_eq_some_iff.mp ends
  obtain ⟨t, loaded, ends⟩ := Option.map_eq_some_iff.mp ends
  simp only [Prod.mk.injEq] at ends
  obtain ⟨down, winners, lists⟩ := ends
  obtain ⟨o, reopened⟩ : ∃ o, s.reopen = some o := by
    unfold Screen.reopen
    rw [if_neg (by simp [down])]
    exact ⟨_, rfl⟩
  have unplayable : ¬ Playable sixteen t := by
    unfold Playable
    rw [winners, lists]
    decide
  exact ⟨s, document, t, o, ran, last, loaded, reopened, unplayable, reopened_shows_iff ran last loaded reopened⟩

end Tourni
