import Tourni.Bracket.Consistent

/-!
# Confirmed rounds

The final stays open after it is decided: the current round is still the last one, so its cells take taps and
the prompt comes up again. As long as a round is confirmed only while its list is the last one, every confirmed
round is final.
-/

namespace Tourni
open Mirror (Side)

/-- The finished rounds of `v` are the same in `w`, and so is its champion. -/
structure Keeps (v w : Tournament) : Prop where
  finished : ∀ k < v.roundList.length - 1, w.roundList[k]? = v.roundList[k]?
  lists : v.roundList.length ≤ w.roundList.length
  champion : v.winners.length = 1 → w.winners.map Group.entry = v.winners.map Group.entry

/-- A round is confirmed while its list is the last one. -/
def ConfirmsLast (s : Screen) : ScreenEvent → Prop
  | .yes => s.controller.currRound = s.controller.tournament.roundList.length
  | _ => True

instance (s : Screen) : (e : ScreenEvent) → Decidable (ConfirmsLast s e)
  | .yes => inferInstanceAs (Decidable (s.controller.currRound = _))
  | .display .. | .endDisplay .. | .tap .. | .no | .snapshot _ | .reopen => isTrue trivial

/-- The tournament in memory is the version `last`, up to picks in round `r`. -/
structure Settled (last t : Tournament) (r : Nat) : Prop where
  lists : t.roundList.length = last.roundList.length
  others : ∀ k, k ≠ r - 1 → t.roundList[k]? = last.roundList[k]?
  entries : ∀ k : Nat, (t.roundList[k]?).map (·.map Group.entry) =
    (last.roundList[k]?).map (·.map Group.entry)
  champion : last.winners.length = 1 → r = last.roundList.length →
    t.winners.map Group.entry = last.winners.map Group.entry

/-- The versions stored so far, `last` being the last one, and how the tournament in memory follows it. -/
structure Sealed (reg : Registration) (s : Screen) (vs : List Tournament) (last : Tournament) : Prop where
  decoded : s.stored.map (Tournament.getTournament reg.gameCode) = (vs ++ [last]).map some
  keeps : (vs ++ [last]).Pairwise Keeps
  bounded : ∀ v ∈ vs ++ [last], v.roundList.length ≤ reg.rounds + 1
  closed : last.roundList[last.roundList.length - 1]? = some last.winners
  seen : s.seen ≤ s.stored.length ∧ s.stored.length ≤ s.seen + 1
  pending : s.controller.initialized = true → s.seen < s.stored.length →
    s.controller.currRound + 1 = s.controller.tournament.roundList.length
  settled : s.controller.initialized = true → s.seen = s.stored.length →
    Settled last s.controller.tournament s.controller.currRound

variable {reg : Registration} {s t : Screen} {cell : MatchUpHost} {side : Side} {table : UITableView}
  {row r version : Nat} {w l : Group} {u v x last : Tournament} {vs : List Tournament}

theorem Keeps.trans (left : Keeps u v) (right : Keeps v x) : Keeps u x := by
  have longer := left.lists
  refine ⟨?_, longer.trans right.lists, ?_⟩
  · intro k below
    rw [right.finished k (by omega), left.finished k below]
  · intro single
    have same := left.champion single
    have length : v.winners.length = 1 := by
      have := congrArg List.length same
      simpa [single] using this
    rw [right.champion length, same]

theorem Settled.refl (last : Tournament) (r : Nat) : Settled last last r :=
  ⟨rfl, fun _ _ => rfl, fun _ => rfl, fun _ _ => rfl⟩

theorem Sealed.length (sealed : Sealed reg s vs last) : s.stored.length = vs.length + 1 := by
  have := congrArg List.length sealed.decoded
  simpa using this

theorem Sealed.load (sealed : Sealed reg s vs last) {document : Document}
    (here : s.stored[vs.length]? = some document) :
    Tournament.getTournament reg.gameCode document = some last := by
  have decoded := congrArg (fun options => options[vs.length]?) sealed.decoded
  simp only [List.getElem?_map, here, Option.map_some, List.getElem?_concat_length] at decoded
  exact Option.some.inj decoded

/-! ### Picks -/

theorem Settled.updateWinner {L : List Group} (settled : Settled last v r)
    (closed : last.roundList[last.roundList.length - 1]? = some last.winners)
    (current : v.roundList[r - 1]? = some L) (winner : ∃ p ∈ L, w.entry = p.entry)
    (loser : ∃ p ∈ L, l.entry = p.entry) : Settled last (v.updateWinner w l r) r := by
  refine ⟨?_, ?_, ?_, ?_⟩
  · rw [Tournament.updateWinner_roundList, List.length_modify, settled.lists]
  · intro k other
    rw [Tournament.updateWinner_roundList, List.getElem?_modify_ne _ _ (Ne.symm other), settled.others k other]
  · intro k
    rw [← settled.entries k, Tournament.updateWinner_roundList, List.getElem?_modify]
    split
    · cases v.roundList[k]? with
      | none => rfl
      | some M =>
        show some ((M.map (Group.mark w l)).map Group.entry) = _
        rw [List.map_map]
        exact congrArg some (List.map_congr_left fun g _ => Group.mark_entry w l g)
    · rw [id_map']
  · intro single isLast
    obtain ⟨x, alone⟩ := List.length_eq_one_iff.mp single
    have same := settled.entries (r - 1)
    rw [current, isLast, closed, alone] at same
    have entries : L.map Group.entry = [x.entry] := Option.some.inj same
    have only : ∀ p ∈ L, p.entry = x.entry := by
      intro p member
      have := List.mem_map_of_mem (f := Group.entry) member
      rw [entries] at this
      exact List.mem_singleton.mp this
    obtain ⟨p, onListP, sameP⟩ := winner
    obtain ⟨q, onListQ, sameQ⟩ := loser
    have isX := sameP.trans (only p onListP)
    have alsoX := sameQ.trans (only q onListQ)
    have before := settled.champion single isLast
    rw [alone] at before ⊢
    obtain ⟨y, alone'⟩ := List.length_eq_one_iff.mp (show v.winners.length = 1 by
      have := congrArg List.length before
      simpa using this)
    have entryY : y.entry = x.entry := by
      rw [alone'] at before
      exact List.singleton_inj.mp before
    have removed : y.name = l.name := congrArg Prod.fst (entryY.trans alsoX.symm)
    rw [Tournament.updateWinner_winners, alone']
    simp [Roster.expel, Roster.enroll, removed, isX]

theorem Sealed.picks (sealed : Sealed reg s vs last) (consistent : Consistent reg s)
    (visible : s.visibleCells table row = some cell) (picks : s.Picks side table row cell t) :
    Sealed reg t vs last := by
  obtain ⟨L, g1, g2, -, -, current, -, first, second, entry1, entry2⟩ :=
    consistent.current visible picks.round
  have onList : ∀ side, ∃ p ∈ L, (cell.groupOf side).entry = p.entry := by
    intro side
    cases side with
    | first => exact ⟨g1, List.mem_of_getElem? first, entry1⟩
    | second => exact ⟨g2, List.mem_of_getElem? second, entry2⟩
  refine ⟨?_, sealed.keeps, sealed.bounded, sealed.closed, ?_, ?_, ?_⟩
  · rw [picks.stored]
    exact sealed.decoded
  · rw [picks.stored, picks.seen]
    exact sealed.seen
  · rw [picks.initialized, picks.stored, picks.seen, picks.currRound, picks.tournament,
      Tournament.updateWinner_roundList, List.length_modify]
    exact sealed.pending
  · rw [picks.initialized, picks.stored, picks.seen, picks.currRound, picks.tournament]
    intro running caughtUp
    exact (sealed.settled running caughtUp).updateWinner sealed.closed current (onList _) (onList _)

/-! ### Confirmations and snapshots -/

theorem Sealed.yes (sealed : Sealed reg s vs last) (consistent : Consistent reg s)
    (confirms : s.controller.currRound = s.controller.tournament.roundList.length) (h : s.yes = some t) :
    ∃ next, Sealed reg t (vs ++ [last]) next := by
  obtain ⟨up, code, document, written, rfl⟩ := Screen.yes_inv h
  have initialized := consistent.initialized_of_prompt up
  have running := consistent.running initialized
  obtain ⟨low, high⟩ := sealed.seen
  have caughtUp : s.seen = s.stored.length := by
    by_contra behind
    have := sealed.pending initialized (by omega)
    omega
  have settled := sealed.settled initialized caughtUp
  obtain ⟨document', written', loaded⟩ := running.sourced.nextRound.stored
  obtain ⟨rfl, rfl⟩ := Prod.mk.inj (Option.some.inj (written.symm.trans written'))
  have lists := settled.lists
  have nextLists : s.controller.tournament.nextRound.roundList.length = last.roundList.length + 1 := by
    rw [← lists]
    exact List.length_append
  have kept : Keeps last s.controller.tournament.nextRound := by
    refine ⟨?_, by omega, fun single => settled.champion single (by omega)⟩
    intro k below
    show (s.controller.tournament.roundList ++ _)[k]? = _
    rw [List.getElem?_append_left (by omega), settled.others k (by omega)]
  refine ⟨s.controller.tournament.nextRound, ?_, ?_, ?_, ?_, ?_, ?_, ?_⟩
  · dsimp only
    rw [if_pos consistent.code.symm, List.map_append, sealed.decoded, List.map_singleton, loaded]
    simp
  · rw [List.pairwise_append]
    refine ⟨sealed.keeps, List.pairwise_singleton _ _, ?_⟩
    intro v member w new
    obtain rfl := List.mem_singleton.mp new
    rcases List.mem_append.mp member with earlier | isLast
    · have before := (List.pairwise_append.mp sealed.keeps).2.2 v earlier last (by simp)
      exact before.trans kept
    · obtain rfl := List.mem_singleton.mp isLast
      exact kept
  · intro v member
    rcases List.mem_append.mp member with old | new
    · exact sealed.bounded v old
    · obtain rfl := List.mem_singleton.mp new
      have := running.roundsBound
      omega
  · rw [nextLists, Nat.add_sub_cancel, ← lists]
    show (s.controller.tournament.roundList ++ [s.controller.tournament.winners])[_]? = _
    rw [List.getElem?_concat_length]
    rfl
  · dsimp only
    rw [if_pos consistent.code.symm, List.length_append, List.length_singleton]
    omega
  · intro _ _
    show s.controller.currRound + 1 = (s.controller.tournament.roundList ++ _).length
    rw [List.length_append, confirms]
    rfl
  · intro _ caughtUp'
    dsimp only at caughtUp'
    rw [if_pos consistent.code.symm, List.length_append, List.length_singleton] at caughtUp'
    omega

theorem Sealed.snapshot (sealed : Sealed reg s vs last) (consistent : Consistent reg s)
    (h : s.snapshot version = some t) : Sealed reg t vs last := by
  obtain ⟨new, document, v, c, stored, loaded, shown, rfl⟩ := Screen.snapshot_inv h
  obtain ⟨m, arr⟩ := consistent.arr
  obtain ⟨-, rfl⟩ := BracketController.snapshot_inv arr shown
  have length := sealed.length
  obtain ⟨low, high⟩ := sealed.seen
  have bound := (List.getElem?_eq_some_iff.mp stored).1
  obtain rfl : version = vs.length := by omega
  rw [consistent.code, sealed.load stored] at loaded
  obtain rfl := Option.some.inj loaded
  have caughtUp : vs.length + 1 = s.stored.length := by omega
  refine ⟨sealed.decoded, sealed.keeps, sealed.bounded, sealed.closed, ?_, ?_, fun _ _ => .refl _ _⟩
  · exact ⟨Nat.le_of_eq caughtUp, by change s.stored.length ≤ vs.length + 1 + 1; omega⟩
  · intro _ behind
    change vs.length + 1 < s.stored.length at behind
    omega

theorem Sealed.reopen (sealed : Sealed reg s vs last) (h : s.reopen = some t) : Sealed reg t vs last := by
  obtain ⟨-, rfl⟩ := Screen.reopen_inv h
  have length := sealed.length
  refine ⟨sealed.decoded, sealed.keeps, sealed.bounded, sealed.closed, ?_, ?_, ?_⟩
  · show s.stored.length - 1 ≤ s.stored.length ∧ s.stored.length ≤ s.stored.length - 1 + 1
    omega
  · intro initialized
    cases initialized
  · intro initialized
    cases initialized

theorem Sealed.step (sealed : Sealed reg s vs last) (consistent : Consistent reg s) {e : ScreenEvent}
    (confirms : ConfirmsLast s e) (h : s.step e = some t) : ∃ vs last, Sealed reg t vs last := by
  have frame : t.stored = s.stored → t.seen = s.seen → t.controller.initialized = s.controller.initialized →
      t.controller.currRound = s.controller.currRound →
      t.controller.tournament = s.controller.tournament → Sealed reg t vs last := by
    intro stored seen initialized currRound tournament
    refine ⟨stored ▸ sealed.decoded, sealed.keeps, sealed.bounded, sealed.closed, ?_, ?_, ?_⟩
    · rw [stored, seen]
      exact sealed.seen
    · rw [stored, seen, initialized, currRound, tournament]
      exact sealed.pending
    · rw [stored, seen, initialized, currRound, tournament]
      exact sealed.settled
  cases e with
  | display table row reuse =>
    obtain ⟨_, _, _, _, -, -, -, -, rfl⟩ := Screen.display_inv h
    exact ⟨vs, last, frame rfl rfl rfl rfl rfl⟩
  | endDisplay table row =>
    obtain ⟨_, -, rfl⟩ := Screen.endDisplay_inv h
    exact ⟨vs, last, frame rfl rfl rfl rfl rfl⟩
  | tap side table row =>
    obtain ⟨cell, visible, -, ⟨-, rfl⟩ | ⟨-, picks⟩⟩ := Screen.tap_inv h
    · exact ⟨vs, last, sealed⟩
    · exact ⟨vs, last, sealed.picks consistent visible picks⟩
  | yes =>
    obtain ⟨next, after⟩ := sealed.yes consistent confirms h
    exact ⟨_, next, after⟩
  | no =>
    obtain ⟨-, _, -, rfl⟩ := Screen.no_inv h
    exact ⟨vs, last, frame rfl rfl rfl rfl rfl⟩
  | snapshot version => exact ⟨vs, last, sealed.snapshot consistent h⟩
  | reopen => exact ⟨vs, last, sealed.reopen h⟩

theorem start_sealed (reg : Registration) : Sealed reg (Screen.start reg) [] reg.created := by
  obtain ⟨document, stored, loaded⟩ := start_stored reg
  have lists : reg.created.roundList = [reg.padded] := by rw [reg.created_eq]
  refine ⟨?_, List.pairwise_singleton _ _, ?_, ?_, ?_, ?_, ?_⟩
  · rw [stored, List.map_singleton, loaded]
    rfl
  · intro v member
    obtain rfl := List.mem_singleton.mp member
    rw [lists, List.length_singleton]
    omega
  · rw [lists, reg.created_eq]
    rfl
  · have seen : (Screen.start reg).seen = (Screen.start reg).stored.length - 1 := rfl
    rw [seen]
    omega
  · intro initialized
    cases initialized
  · intro initialized
    cases initialized

/-- In a run that confirms a round only while its list is the last one, every stored document keeps the
finished rounds of all documents before it, and the champion once there is one. -/
theorem confirmed_rounds_final {es : List ScreenEvent}
    (met : Transition.Meets Screen.step ConfirmsLast (Screen.start reg) es)
    (ran : Transition.run Screen.step (Screen.start reg) es = some s) :
    ∃ vs : List Tournament, s.stored.map (Tournament.getTournament reg.gameCode) = vs.map some ∧
      vs.Pairwise Keeps ∧ ∀ v ∈ vs, v.roundList.length ≤ reg.rounds + 1 := by
  have keep : ∀ s e t, (Consistent reg s ∧ ∃ vs last, Sealed reg s vs last) → ConfirmsLast s e →
      s.step e = some t → Consistent reg t ∧ ∃ vs last, Sealed reg t vs last := by
    rintro s e t ⟨consistent, vs, last, sealed⟩ confirms h
    exact ⟨consistent.step h, sealed.step consistent confirms h⟩
  obtain ⟨-, vs, last, sealed⟩ :=
    Transition.run_invariant keep ⟨start_consistent reg, [], _, start_sealed reg⟩ met ran
  exact ⟨vs ++ [last], sealed.decoded, sealed.keeps, sealed.bounded⟩

/-! ### Two groups -/

def two : Registration :=
  { names := ["A", "B"], title := "Cup", description := "", gameCode := "abcd", enough := by decide
    nonempty := by decide, distinct := by decide }

def finalDecided : List ScreenEvent :=
  [.snapshot 0, .display ⟨0⟩ 0 none, .tap .first ⟨0⟩ 0, .yes, .snapshot 1, .reopen, .snapshot 1]

def finalAgain : List ScreenEvent :=
  finalDecided ++ [.display ⟨0⟩ 0 none, .tap .second ⟨0⟩ 0, .yes]

/-- The last two documents of the run with a second final. -/
theorem champion_replaced :
    ∃ s v w, Transition.run Screen.step (Screen.start two) finalAgain = some s ∧
      ((s.stored[1]?).bind (Tournament.getTournament two.gameCode)) = some v ∧
      ((s.stored[2]?).bind (Tournament.getTournament two.gameCode)) = some w ∧
      v.winners.map Group.name = [some "A"] ∧ w.winners.map Group.name = [some "B"] ∧
      w.roundList.length = 3 ∧ two.rounds = 1 ∧ ¬ Keeps v w := by
  have stores : ((Transition.run Screen.step (Screen.start two) finalAgain).bind fun s =>
      ((s.stored[1]?).bind (Tournament.getTournament two.gameCode)).bind fun v =>
        ((s.stored[2]?).bind (Tournament.getTournament two.gameCode)).map fun w =>
          (v.winners.map Group.entry, w.winners.map Group.entry, w.roundList.length)) =
      some ([(some "A", some 1)], [(some "B", some 2)], 3) := by rfl
  obtain ⟨s, ran, stores⟩ := Option.bind_eq_some_iff.mp stores
  obtain ⟨v, storedV, stores⟩ := Option.bind_eq_some_iff.mp stores
  obtain ⟨w, storedW, stores⟩ := Option.map_eq_some_iff.mp stores
  simp only [Prod.mk.injEq] at stores
  obtain ⟨winnersV, winnersW, lists⟩ := stores
  have namesV := congrArg (List.map Prod.fst) winnersV
  have namesW := congrArg (List.map Prod.fst) winnersW
  rw [List.map_map] at namesV namesW
  refine ⟨s, v, w, ran, storedV, storedW, namesV, namesW, lists, Nat.clog_pow 2 1 (by decide), ?_⟩
  intro keeps
  have single : v.winners.length = 1 := by simpa using congrArg List.length winnersV
  have same := keeps.champion single
  rw [winnersV, winnersW] at same
  exact absurd same (by decide)

theorem confirmed_rounds_final_two :
    ∃ s, Transition.run Screen.step (Screen.start two) finalDecided = some s ∧ s.stored.length = 2 ∧
      ∃ vs : List Tournament, s.stored.map (Tournament.getTournament two.gameCode) = vs.map some ∧
        vs.Pairwise Keeps ∧ ∀ v ∈ vs, v.roundList.length ≤ two.rounds + 1 := by
  have stores : (Transition.run Screen.step (Screen.start two) finalDecided).map (·.stored.length) =
      some 2 := by rfl
  obtain ⟨s, ran, length⟩ := Option.map_eq_some_iff.mp stores
  exact ⟨s, ran, length, confirmed_rounds_final (by decide) ran⟩

end Tourni
