import Tourni.Bracket.Prompt
import Tourni.Bracket.Refinement

/-!
# What the host sees and what the host does

A host of the screen shows and reuses cells, counts decided rows, answers the prompt and waits for documents. As
long as each decided row is counted once, all this comes down to picks, confirmed rounds and reopened brackets.
-/

namespace Tourni
open Mirror

/-- In the round after `k` decided ones the screen and the host have the same documents behind them, and, once the
screen has caught up, the same tournament. -/
structure Together (reg : Registration) (s : Screen) (h : Host) (k : Nat) (v : Tournament) : Prop where
  playing : Playing reg h k v
  stored : h.stored = s.stored
  behind : s.controller.initialized = false ∨ s.seen < s.stored.length → h.picks = []
  caughtUp : s.controller.initialized = true → s.seen = s.stored.length →
    s.controller.tournament = h.controller.tournament ∧ ∀ r, r ∈ s.picked ↔ ∃ p ∈ h.picks, p.row = r

/-- The host has stopped after the final; the screen may go on and store it again. -/
structure Ended (reg : Registration) (s : Screen) (h : Host) : Prop where
  stored : h.stored = s.stored.take (reg.rounds + 1)
  all : reg.rounds < s.stored.length

def Matched (reg : Registration) (s : Screen) (h : Host) : Prop :=
  Consistent reg s ∧ ∃ k v, Fair reg s k v ∧
    ((k < reg.rounds ∧ Together reg s h k v) ∨ (k = reg.rounds ∧ Ended reg s h))

/-- What can be told of the two: the documents, and before the end the tournament in memory, once the screen has heard
the last document. -/
structure Agree (reg : Registration) (s : Screen) (h : Host) : Prop where
  stored : h.stored = s.stored.take (reg.rounds + 1)
  memory : s.controller.initialized = true → s.seen = s.stored.length → s.stored.length ≤ reg.rounds →
    s.controller.tournament = h.controller.tournament ∧ s.controller.currRound = h.controller.currRound

variable {reg : Registration} {s t : Screen} {h : Host} {k j : Nat} {v w : Tournament} {table : UITableView}
  {row version : Nat} {side : Side} {cell : MatchUpHost} {ps : List Pick} {document : Document}

theorem Together.frame (together : Together reg s h k v) (stored : t.stored = s.stored) (seen : t.seen = s.seen)
    (initialized : t.controller.initialized = s.controller.initialized)
    (tournament : t.controller.tournament = s.controller.tournament) (picked : t.picked = s.picked) :
    Together reg t h k v := by
  refine ⟨together.playing, together.stored.trans stored.symm, ?_, ?_⟩
  · rw [initialized, seen, stored]
    exact together.behind
  · rw [initialized, seen, stored, tournament, picked]
    exact together.caughtUp

theorem Ended.frame (ended : Ended reg s h) (stored : t.stored = s.stored) : Ended reg t h := by
  refine ⟨?_, ?_⟩ <;> rw [stored]
  · exact ended.stored
  · exact ended.all

/-! ### Picks -/

/-- An accepted tap in an undecided round is a pick of its row. -/
theorem Consistent.pick_of_tap (consistent : Consistent reg s) (visible : s.visibleCells table row = some cell)
    (picks : s.Picks side table row cell t) (version : Version reg k v)
    (round : s.controller.currRound = k + 1) (below : row < v.winners.length / 2)
    (played : s.controller.tournament = v.play v.winners (k + 1) ps) :
    ∃ p : Pick, p.row = row ∧ p.side = side ∧ p.Valid v.winners (reg.added v.winners) ∧
      t.controller.tournament = v.play v.winners (k + 1) (ps ++ [p]) := by
  obtain ⟨L, g1, g2, -, positive, current, -, first, second, entry1, entry2⟩ :=
    consistent.current visible picks.round
  have list : L = v.winners.map (markAll v.winners ps) := by
    have listed : v.roundList[k]? = some v.winners := version.current
    rw [round, Nat.add_sub_cancel, played, play_roundList, Nat.add_sub_cancel, List.getElem?_modify_eq,
      listed] at current
    exact (Option.some.inj current).symm
  have entries : L.map Group.entry = v.winners.map Group.entry := by
    rw [list]
    exact marked_entries _ _
  have winner := groupOf_seat entries first second entry1 entry2 side
  have loser := groupOf_seat entries first second entry1 entry2 side.other
  refine ⟨⟨row, side, (cell.groupOf side).status, (cell.groupOf side.other).status⟩, rfl, rfl, ⟨below, ?_⟩, ?_⟩
  · cases side with
    | first => exact version.seeding.not_bye_first below
    | second =>
      intro bye
      apply picks.notFree rfl
      have free := version.seeding.free _ (seat_lt below .second) bye
      rw [← free]
      exact (congrArg Group.name winner).symm
  · rw [picks.tournament, Tournament.play_append, Pick.winner, Pick.loser, Pick.winnerSeat, Pick.loserSeat, winner,
      loser, ← played, round]

theorem Together.pick (together : Together reg s h k v) (consistent : Consistent reg s) (fair : Fair reg s k v)
    (unfinished : k < reg.rounds) (visible : s.visibleCells table row = some cell)
    (picks : s.Picks side table row cell t) (caughtUp : s.seen = s.stored.length) :
    ∃ p h', h.step reg (.pick p) = some h' ∧ Together reg t h' k v := by
  have initialized := consistent.initialized_of_visible visible
  have inRound := fair.inRound initialized caughtUp
  have running := consistent.running initialized
  have round := inRound.currRound.trans (shownRounds_of_lt unfinished)
  have needed := inRound.rowsNeeded running fair.stage
  have below := consistent.row_lt visible picks.round inRound.placed inRound.currRound
  rw [needed, ← half_pow_sub unfinished, ← together.playing.version.winners_length] at below
  obtain ⟨same, rows⟩ := together.caughtUp initialized caughtUp
  obtain ⟨p, rfl, -, valid, tournament⟩ := consistent.pick_of_tap visible picks together.playing.version round below
    (same.trans together.playing.played)
  obtain ⟨h', picked, playing⟩ := together.playing.pick unfinished valid
  obtain ⟨history, stored⟩ := Host.pick_inv picked
  refine ⟨p, h', (together.playing.step_eq unfinished _).trans picked, playing, ?_, ?_, fun _ _ => ⟨?_, ?_⟩⟩
  · rw [stored, picks.stored, together.stored]
  · rw [picks.initialized, picks.seen, picks.stored]
    rintro (notYet | behind)
    · rw [initialized] at notYet
      cases notYet
    · omega
  · rw [tournament, playing.played, history]
  · rw [picks.picked, history]
    exact rows_append p rows

/-! ### The prompt -/

theorem Sized.unique {R : Nat} (left : Sized R k v) (right : Sized R j v) : k = j := by
  have powers := left.winners.symm.trans right.winners
  have exponents := Nat.pow_right_injective (Nat.le_refl 2) powers
  have := left.done
  have := right.done
  omega

theorem Together.yes (together : Together reg s h k v) (consistent : Consistent reg s) (fair : Fair reg s k v)
    (unfinished : k < reg.rounds) (yes : s.yes = some t) :
    ∃ h', h.step reg .confirm = some h' ∧ Matched reg t h' := by
  obtain ⟨j, after⟩ := fair.yes consistent yes
  have still := consistent.yes yes
  obtain ⟨up, code, document, written, rfl⟩ := Screen.yes_inv yes
  have initialized := consistent.initialized_of_prompt up
  have caughtUp := fair.caughtUp_of_prompt up
  have inRound := fair.inRound initialized caughtUp
  have needed := inRound.rowsNeeded (consistent.running initialized) fair.stage
  obtain ⟨same, rows⟩ := together.caughtUp initialized caughtUp
  have version := together.playing.version
  have covers : Covers h.picks v.winners.length := by
    intro r below
    rw [version.winners_length, half_pow_sub unfinished, ← needed] at below
    exact lastPick_isSome_iff.mpr ((rows r).mp (inRound.prompt up r below))
  obtain ⟨h', confirmed, -⟩ := together.playing.confirm unfinished covers
  have stepped := (together.playing.step_eq unfinished .confirm).trans confirmed
  refine ⟨h', stepped, still, ?_⟩
  have decided : s.controller.tournament.nextRound = v.decideRound h.picks := by
    rw [same, together.playing.played, Tournament.decideRound, version.lists]
  cases together.playing.step_inv stepped with
  | confirm settles picks stored written' loaded playing =>
    rw [← decided] at written' playing
    obtain ⟨rfl, rfl⟩ := Prod.mk.inj (Option.some.inj (written.symm.trans written'))
    have documents : (if reg.gameCode = s.controller.gameCode then s.stored ++ [document] else s.stored) =
        h'.stored := by
      rw [if_pos consistent.code.symm, stored, together.stored]
    obtain rfl : j = k + 1 := after.stage.sized.unique playing.version.sized
    refine ⟨k + 1, _, after, ?_⟩
    rcases Nat.lt_or_ge (k + 1) reg.rounds with more | last
    · refine Or.inl ⟨more, playing, documents.symm, fun _ => picks, fun _ now => ?_⟩
      have length := together.playing.stored.length
      dsimp only at now
      rw [documents, stored, List.length_append, List.length_singleton, together.stored] at now
      omega
    · have length := playing.stored.length
      refine Or.inr ⟨by omega, ?_, ?_⟩
      · dsimp only
        rw [documents, List.take_of_length_le (by omega)]
      · dsimp only
        rw [documents]
        omega

theorem Ended.yes (ended : Ended reg s h) (consistent : Consistent reg s) (fair : Fair reg s reg.rounds v)
    (yes : s.yes = some t) : Matched reg t h := by
  obtain ⟨j, after⟩ := fair.yes consistent yes
  have still := consistent.yes yes
  obtain ⟨up, code, document, -, rfl⟩ := Screen.yes_inv yes
  have inRound := fair.inRound (consistent.initialized_of_prompt up) (fair.caughtUp_of_prompt up)
  have crowned : Crowned reg s.controller.tournament := by
    rcases inRound.progress with ⟨less, -⟩ | ⟨-, crowned⟩
    · omega
    · exact crowned
  obtain rfl : reg.rounds = j := crowned.nextRound.sized.unique after.stage.sized
  have all := ended.all
  refine ⟨still, reg.rounds, _, after, Or.inr ⟨rfl, ?_, ?_⟩⟩
  · dsimp only
    split
    · rw [List.take_append_of_le_length (by omega), ended.stored]
    · exact ended.stored
  · dsimp only
    split
    · rw [List.length_append]
      omega
    · exact all

/-! ### Snapshots and reopening -/

theorem Together.snapshot (together : Together reg s h k v) (after : Fair reg t k v)
    (unfinished : k < reg.rounds) (shown : s.snapshot version = some t) : Together reg t h k v := by
  obtain ⟨new, document, w, c, stored, -, -, rfl⟩ := Screen.snapshot_inv shown
  have bound := (List.getElem?_eq_some_iff.mp stored).1
  have fresh := together.behind (Or.inr (by omega))
  refine ⟨together.playing, together.stored, fun _ => fresh, fun initialized caughtUp => ?_⟩
  obtain ⟨-, -, progress, -⟩ := after.inRound initialized caughtUp
  rcases progress with ⟨-, -, ps, -, played, rows⟩ | ⟨ended, -⟩
  · -- No row is picked, so the tournament is the stored version.
    obtain rfl : ps = [] := by
      rw [List.eq_nil_iff_forall_not_mem]
      intro p member
      exact List.not_mem_nil ((rows p.row).mpr ⟨p, member, rfl⟩)
    refine ⟨by rw [played, together.playing.played, fresh], fun r => ?_⟩
    rw [fresh]
    simp
  · omega

theorem Together.reopen (together : Together reg s h k v) (unfinished : k < reg.rounds)
    (reopened : s.reopen = some t) : ∃ h', h.step reg .reopen = some h' ∧ Together reg t h' k v := by
  obtain ⟨-, rfl⟩ := Screen.reopen_inv reopened
  obtain ⟨h', opened, playing⟩ := together.playing.reopen
  obtain ⟨picks, stored⟩ := Host.reopen_inv opened
  refine ⟨h', (together.playing.step_eq unfinished _).trans opened, playing, stored.trans together.stored,
    fun _ => picks, fun initialized => ?_⟩
  cases initialized

/-! ### Whole runs -/

theorem Matched.of_stutter (consistent : Consistent reg t) (fair : Fair reg t k v)
    (same : (k < reg.rounds ∧ Together reg t h k v) ∨ (k = reg.rounds ∧ Ended reg t h)) :
    ∃ hs h', Transition.run (Host.step reg) h hs = some h' ∧ Matched reg t h' :=
  ⟨[], h, rfl, consistent, k, v, fair, same⟩

/-- Each event of the screen is matched by at most one event of the host. -/
theorem Matched.step (matched : Matched reg s h) {e : ScreenEvent} (once : CountsOnce s e)
    (stepped : s.step e = some t) :
    ∃ hs h', Transition.run (Host.step reg) h hs = some h' ∧ Matched reg t h' := by
  obtain ⟨consistent, k, v, fair, cases⟩ := matched
  have still := consistent.step stepped
  have frame : t.stored = s.stored → t.seen = s.seen →
      t.controller.initialized = s.controller.initialized →
      t.controller.tournament = s.controller.tournament → t.picked = s.picked →
      (k < reg.rounds ∧ Together reg t h k v) ∨ (k = reg.rounds ∧ Ended reg t h) := by
    intro stored seen initialized tournament picked
    rcases cases with ⟨unfinished, together⟩ | ⟨done, ended⟩
    · exact Or.inl ⟨unfinished, together.frame stored seen initialized tournament picked⟩
    · exact Or.inr ⟨done, ended.frame stored⟩
  cases e with
  | display table row reuse =>
    obtain ⟨_, _, _, _, -, -, -, -, rfl⟩ := Screen.display_inv stepped
    exact Matched.of_stutter still (fair.cells _ _) (frame rfl rfl rfl rfl rfl)
  | endDisplay table row =>
    obtain ⟨_, -, rfl⟩ := Screen.endDisplay_inv stepped
    exact Matched.of_stutter still (fair.cells _ _) (frame rfl rfl rfl rfl rfl)
  | no =>
    have after := fair.no stepped
    obtain ⟨-, _, -, rfl⟩ := Screen.no_inv stepped
    exact Matched.of_stutter still after (frame rfl rfl rfl rfl rfl)
  | tap side table row =>
    obtain ⟨cell, visible, -, ⟨-, rfl⟩ | ⟨accepted, picks⟩⟩ := Screen.tap_inv stepped
    · exact Matched.of_stutter still fair cases
    have after := fair.picks consistent visible accepted once picks
    rcases cases with ⟨unfinished, together⟩ | ⟨done, ended⟩
    · by_cases caughtUp : s.seen = s.stored.length
      · obtain ⟨p, h', picked, next⟩ := together.pick consistent fair unfinished visible picks caughtUp
        exact ⟨[.pick p], h', (Transition.run_singleton _ _ _).trans picked, still, k, v, after,
          Or.inl ⟨unfinished, next⟩⟩
      · -- The document of the round is on its way, and replaces whatever is tapped meanwhile.
        have low := fair.seen.1
        refine Matched.of_stutter still after (Or.inl ⟨unfinished, together.playing, ?_, ?_, fun _ now => ?_⟩)
        · rw [picks.stored, together.stored]
        · exact fun _ => together.behind (Or.inr (by omega))
        · rw [picks.seen, picks.stored] at now
          omega
    · exact Matched.of_stutter still after (Or.inr ⟨done, ended.frame picks.stored⟩)
  | yes =>
    rcases cases with ⟨unfinished, together⟩ | ⟨rfl, ended⟩
    · obtain ⟨h', confirmed, next⟩ := together.yes consistent fair unfinished stepped
      exact ⟨[.confirm], h', (Transition.run_singleton _ _ _).trans confirmed, next⟩
    · exact ⟨[], h, rfl, ended.yes consistent fair stepped⟩
  | snapshot version =>
    have after := fair.snapshot consistent stepped
    rcases cases with ⟨unfinished, together⟩ | ⟨done, ended⟩
    · exact Matched.of_stutter still after (Or.inl ⟨unfinished, together.snapshot after unfinished stepped⟩)
    · obtain ⟨-, _, _, _, -, -, -, rfl⟩ := Screen.snapshot_inv stepped
      exact Matched.of_stutter still after (Or.inr ⟨done, ended.frame rfl⟩)
  | reopen =>
    have after := fair.reopen stepped
    rcases cases with ⟨unfinished, together⟩ | ⟨done, ended⟩
    · obtain ⟨h', reopened, next⟩ := together.reopen unfinished stepped
      exact ⟨[.reopen], h', (Transition.run_singleton _ _ _).trans reopened, still, k, v, after,
        Or.inl ⟨unfinished, next⟩⟩
    · obtain ⟨-, rfl⟩ := Screen.reopen_inv stepped
      exact Matched.of_stutter still after (Or.inr ⟨done, ended.frame rfl⟩)

theorem start_matched (clear : reg.Clear) :
    ∃ h, Host.start reg = some h ∧ Matched reg (Screen.start reg) h := by
  obtain ⟨h, started, fresh, scored⟩ := start_scored clear
  have stored : h.stored = (Screen.start reg).stored := by
    obtain ⟨⟨code, document⟩, written, made⟩ := Option.bind_eq_some_iff.mp started
    obtain ⟨c, -, made⟩ := Option.bind_eq_some_iff.mp made
    obtain rfl := Option.some.inj made
    show [document] = reg.created.store.toList.map Prod.snd
    rw [written]
    rfl
  refine ⟨h, started, start_consistent reg, 0, _, start_fair clear, Or.inl ⟨reg.rounds_pos, ?_⟩⟩
  refine ⟨scored.playing, stored, fun _ => fresh, fun initialized => ?_⟩
  cases initialized

theorem Matched.agree (matched : Matched reg s h) : Agree reg s h := by
  obtain ⟨-, k, v, fair, ⟨unfinished, together⟩ | ⟨rfl, ended⟩⟩ := matched
  · have length := together.playing.stored.length
    rw [together.stored] at length
    refine ⟨by rw [together.stored, List.take_of_length_le (by omega)], fun initialized caughtUp _ => ?_⟩
    refine ⟨(together.caughtUp initialized caughtUp).1, ?_⟩
    rw [(fair.inRound initialized caughtUp).currRound, together.playing.currRound]
  · have all := ended.all
    exact ⟨ended.stored, fun _ _ few => by omega⟩

theorem run_matched (clear : reg.Clear) {es : List ScreenEvent}
    (met : Transition.Meets Screen.step CountsOnce (Screen.start reg) es)
    (ran : Transition.run Screen.step (Screen.start reg) es = some s) :
    ∃ first hs h, Host.start reg = some first ∧ Transition.run (Host.step reg) first hs = some h ∧
      Matched reg s h := by
  obtain ⟨first, started, start⟩ := start_matched clear
  have each : ∀ s e t h, Matched reg s h → CountsOnce s e → Screen.step s e = some t →
      ∃ hs h', Transition.run (Host.step reg) h hs = some h' ∧ Matched reg t h' :=
    fun s e t h matched once stepped => matched.step once stepped
  obtain ⟨hs, h, replayed, matched⟩ := Transition.run_simulated each start met ran
  exact ⟨first, hs, h, started, replayed, matched⟩

/-- A run of the screen in which each decided row is counted once is matched by a run of the host: it stores the same
documents up to the final, and before that, whenever the screen has heard the last document, has the same tournament in
the same round. -/
theorem screen_simulated (clear : reg.Clear) {es : List ScreenEvent}
    (met : Transition.Meets Screen.step CountsOnce (Screen.start reg) es)
    (ran : Transition.run Screen.step (Screen.start reg) es = some s) :
    ∃ first hs h, Host.start reg = some first ∧ Transition.run (Host.step reg) first hs = some h ∧
      Agree reg s h := by
  obtain ⟨first, hs, h, started, replayed, matched⟩ := run_matched clear met ran
  exact ⟨first, hs, h, started, replayed, matched.agree⟩

/-- The first round of three groups, with a change of mind at the prompt. -/
def threeConfirmed : List ScreenEvent := threePrompted ++ [.yes, .snapshot 1]

theorem threeConfirmed_runs :
    ∃ s, Transition.run Screen.step (Screen.start three) threeConfirmed = some s ∧ s.stored.length = 2 := by
  have ends : (Transition.run Screen.step (Screen.start three) threeConfirmed).map (·.stored.length) =
      some 2 := by rfl
  exact Option.map_eq_some_iff.mp ends

theorem screen_simulated_three :
    ∃ s first hs h, Transition.run Screen.step (Screen.start three) threeConfirmed = some s ∧ s.stored.length = 2 ∧
      Host.start three = some first ∧ Transition.run (Host.step three) first hs = some h ∧ Agree three s h := by
  obtain ⟨s, ran, length⟩ := threeConfirmed_runs
  obtain ⟨first, hs, h, simulated⟩ := screen_simulated (Or.inl (by decide)) (by decide) ran
  exact ⟨s, first, hs, h, ran, length, simulated⟩

/-- Behind the documents that the screen stores up to the final are decided rounds. -/
theorem run_decided (clear : reg.Clear) {es : List ScreenEvent}
    (met : Transition.Meets Screen.step CountsOnce (Screen.start reg) es)
    (ran : Transition.run Screen.step (Screen.start reg) es = some s) :
    ∃ pss, Decided reg pss ∧ pss.length + 1 = min (reg.rounds + 1) s.stored.length ∧
      ∀ i ≤ reg.rounds, ∀ document, s.stored[i]? = some document → i ≤ pss.length ∧
        Tournament.getTournament reg.gameCode document = some (reg.after (pss.take i)) := by
  obtain ⟨first, hs, h, started, replayed, matched⟩ := run_matched clear met ran
  obtain ⟨pss, scored⟩ := run_scored clear started replayed
  have length : pss.length + 1 = min (reg.rounds + 1) s.stored.length := by
    rw [← scored.written.length, matched.agree.stored, List.length_take]
  refine ⟨pss, scored.decided, length, fun i le document here => ?_⟩
  have stored : h.stored[i]? = some document := by
    rw [matched.agree.stored, List.getElem?_take_of_lt (by omega), here]
  have bound := (List.getElem?_eq_some_iff.mp here).1
  exact ⟨by omega, scored.written.load i document stored⟩

/-- So what the screen stores up to the final carries out an elimination as well, each document one round more than the
one before it. -/
theorem screen_refines (clear : reg.Clear) {es : List ScreenEvent}
    (met : Transition.Meets Screen.step CountsOnce (Screen.start reg) es)
    (ran : Transition.run Screen.step (Screen.start reg) es = some s) :
    ∃ seats : List (List Nat), seats.length = min (reg.rounds + 1) s.stored.length ∧
      ∀ i ≤ reg.rounds, ∀ document, s.stored[i]? = some document →
        ∃ t, Tournament.getTournament reg.gameCode document = some t ∧ Refines reg t (seats.take (i + 1)) := by
  obtain ⟨pss, decided, length, documents⟩ := run_decided clear met ran
  refine ⟨reg.elimination pss, by rw [reg.elimination_length, length], fun i le document here => ?_⟩
  obtain ⟨bound, loaded⟩ := documents i le document here
  refine ⟨_, loaded, ?_⟩
  rw [← reg.elimination_take bound]
  exact (decided.take i).refines clear

theorem screen_refines_three :
    ∃ s, Transition.run Screen.step (Screen.start three) threeConfirmed = some s ∧ s.stored.length = 2 ∧
      ∃ seats : List (List Nat), seats.length = min (three.rounds + 1) s.stored.length ∧
        ∀ i ≤ three.rounds, ∀ document, s.stored[i]? = some document →
          ∃ t, Tournament.getTournament three.gameCode document = some t ∧ Refines three t (seats.take (i + 1)) := by
  obtain ⟨s, ran, length⟩ := threeConfirmed_runs
  exact ⟨s, ran, length, screen_refines (Or.inl (by decide)) (by decide) ran⟩

end Tourni
