import Tourni.Bracket.Consistent

/-!
# Entrants and byes

Groups are told apart by name only, and a bye is known by the name "FREE". A tap treats the host-entered groups
right as long as no other of them is called like a group of the tapped match.
-/

namespace Tourni
open Mirror (Side)

/-- `g` was entered by the host. -/
def Registration.Entrant (reg : Registration) (g : Group) : Prop :=
  ∃ i, ∃ h : i < reg.names.length, g.entry = (some reg.names[i], some (i + 1 : Int))

/-- `w` is the winner of its match in round `r`, and `l` the loser. -/
structure Decides (t : Tournament) (r : Nat) (w l : Group) : Prop where
  winner : w.name ∈ t.winners.map Group.name ∧ w.name ∉ t.losers.map Group.name
  loser : l.name ∈ t.losers.map Group.name ∧ l.name ∉ t.winners.map Group.name
  marked : ∃ L, ofRound? t.roundList r = some L ∧
    ∀ g ∈ L, (g.entry = w.entry → g.status = true) ∧ (g.entry = l.entry → g.status = false)

structure Untouched (before after : Tournament) (g : Group) : Prop where
  winners : g.entry ∈ before.winners.map Group.entry → g.entry ∈ after.winners.map Group.entry
  marked : ∀ (k : Nat) (L : List Group) (i : Nat) (p : Group), before.roundList[k]? = some L →
    L[i]? = some p → p.entry = g.entry →
    ∃ M, after.roundList[k]? = some M ∧ M[i]? = some p

/-- What a tap for `w` against `l` owes to the host-entered groups. -/
structure Treated (reg : Registration) (before after : Tournament) (r : Nat) (w l : Group) : Prop where
  decided : reg.Entrant w → reg.Entrant l → w.entry ≠ l.entry → Decides after r w l
  others : ∀ g, reg.Entrant g → g.entry ≠ w.entry → g.entry ≠ l.entry → Untouched before after g

/-- The names tell the tapped match apart: an entrant on the second button is not taken for a bye, and no other
entrant of the current round is called like one of the two groups. -/
structure ToldApart (reg : Registration) (s : Screen) (side : Side) (cell : MatchUpHost) : Prop where
  second : reg.Entrant cell.group1 → reg.Entrant cell.group2 → side = .second →
    cell.group2.name ≠ some "FREE"
  others : ∀ g, reg.Entrant g → g.entry ≠ cell.group1.entry → g.entry ≠ cell.group2.entry →
    (g.entry ∈ s.controller.tournament.winners.map Group.entry ∨
      ∃ L, ofRound? s.controller.tournament.roundList s.controller.currRound = some L ∧
        g.entry ∈ L.map Group.entry) →
    g.name ≠ cell.group1.name ∧ g.name ≠ cell.group2.name

variable {reg : Registration} {s t : Screen} {cell : MatchUpHost} {side : Side} {table : UITableView}
  {row r : Nat} {g w l : Group} {v : Tournament}

theorem Registration.Entrant.congr (entrant : reg.Entrant g) (same : w.entry = g.entry) : reg.Entrant w := by
  obtain ⟨i, h, entry⟩ := entrant
  exact ⟨i, h, same.trans entry⟩

theorem Registration.Entrant.entry_eq (left : reg.Entrant g) (right : reg.Entrant w)
    (same : g.name = w.name) : g.entry = w.entry := by
  obtain ⟨i, hi, entryG⟩ := left
  obtain ⟨j, hj, entryW⟩ := right
  have nameG : g.name = some reg.names[i] := congrArg Prod.fst entryG
  have nameW : w.name = some reg.names[j] := congrArg Prod.fst entryW
  rw [nameG, nameW] at same
  obtain rfl := (reg.distinct.getElem_inj_iff).mp (Option.some.inj same)
  rw [entryG, entryW]

theorem Registration.Entrant.name_mem (entrant : reg.Entrant g) : ∃ name ∈ reg.names, g.name = some name := by
  obtain ⟨i, h, entry⟩ := entrant
  exact ⟨_, List.getElem_mem h, congrArg Prod.fst entry⟩

theorem Registration.Contains.entrant_or_free (contained : reg.Contains g) :
    reg.Entrant g ∨ g.name = some "FREE" := by
  obtain ⟨p, member, same⟩ := List.mem_map.mp contained
  rcases Registration.mem_padded member with ⟨i, h, rfl⟩ | rfl
  · exact Or.inl ⟨i, h, same.symm⟩
  · exact Or.inr (congrArg Prod.fst same.symm)

/-! ### What a pick does to the groups -/

theorem updateWinner_decides {L : List Group} (current : ofRound? v.roundList r = some L)
    (apart : w.name ≠ l.name) : Decides (v.updateWinner w l r) r w l := by
  refine ⟨⟨?_, ?_⟩, ⟨?_, ?_⟩, ?_⟩
  · exact Tournament.mem_winners_updateWinner.mpr (Or.inl rfl)
  · intro lost
    exact (Tournament.mem_losers_updateWinner.mp lost).2 rfl
  · exact Tournament.mem_losers_updateWinner.mpr ⟨Or.inl rfl, Ne.symm apart⟩
  · intro won
    rcases Tournament.mem_winners_updateWinner.mp won with same | ⟨-, differ⟩
    · exact apart same.symm
    · exact differ rfl
  · refine ⟨L.map (Group.mark w l), ?_, ?_⟩
    · exact ofRound?_modify current
    · intro g member
      obtain ⟨p, -, rfl⟩ := List.mem_map.mp member
      rw [Group.mark_entry]
      exact ⟨fun same => Group.mark_winner (congrArg Prod.fst same),
        fun same => Group.mark_loser (congrArg Prod.fst same) apart⟩

/-- A group with another name than both groups of the pick is left alone. -/
theorem updateWinner_untouched
    (winners : g.entry ∈ v.winners.map Group.entry → g.name ≠ l.name)
    (listed : ∀ L, ofRound? v.roundList r = some L → g.entry ∈ L.map Group.entry →
      g.name ≠ w.name ∧ g.name ≠ l.name) (positive : 0 < r) :
    Untouched v (v.updateWinner w l r) g := by
  refine ⟨?_, ?_⟩
  · intro won
    have differ := winners won
    obtain ⟨p, member, same⟩ := List.mem_map.mp won
    have kept : p ∈ (v.updateWinner w l r).winners := by
      rw [Tournament.updateWinner_winners]
      refine Roster.mem_enroll_of_mem (Roster.mem_expel.mpr ⟨member, ?_⟩)
      rw [(Group.entry_eq_iff.mp same).1]
      exact differ
    exact List.mem_map.mpr ⟨p, kept, same⟩
  · intro k L i p here seated same
    rw [Tournament.updateWinner_roundList, List.getElem?_modify, here]
    refine ⟨_, rfl, ?_⟩
    split
    · rename_i current
      have isCurrent : ofRound? v.roundList r = some L := by
        rw [ofRound?_of_pos positive, current, here]
      have onList : g.entry ∈ L.map Group.entry := List.mem_map.mpr ⟨p, List.mem_of_getElem? seated, same⟩
      obtain ⟨notWinner, notLoser⟩ := listed L isCurrent onList
      have name : p.name = g.name := (Group.entry_eq_iff.mp same).1
      rw [List.getElem?_map, seated, Option.map_some,
        Group.mark_other (by rw [name]; exact notWinner) (by rw [name]; exact notLoser)]
    · exact seated

/-! ### Taps -/

theorem Consistent.tap_isSome (consistent : Consistent reg s) (visible : s.visibleCells table row = some cell)
    (round : cell.round = s.controller.currRound) (down : s.prompt = false) (side : Side) :
    ∃ t, s.tap side table row = some t := by
  have running := consistent.running (consistent.initialized_of_visible visible)
  obtain ⟨m, arr⟩ := consistent.arr
  obtain ⟨L, g1, g2, here, positive, listed, filled, -⟩ := consistent.current visible round
  have acts : ∃ result, cell.buttonAction side s.controller = some result := by
    rw [MatchUpHost.buttonAction_eq]
    by_cases accepted : cell.accepts side s.controller = true
    · have needed : ofRound? s.controller.roundMatches s.controller.currRound =
          some (2 ^ (reg.rounds - 1 - (s.controller.currRound - 1))) := by
        rw [ofRound?_of_pos positive, running.roundMatches, generateMatches_getElem?]
        have := running.roundsBound
        omega
      have tablesBound := running.tablesBound
      have onScreen : ofRound? s.controller.bracketViewArr cell.round = some table := by
        have length := congrArg List.length arr
        rw [tables_length] at length
        have bound : s.controller.currRound - 1 < m := by omega
        rw [round, ofRound?_of_pos positive, arr, tables_getElem? bound, here]
      have current : ofRound? s.controller.tournament.roundList cell.round = some L := by
        rw [round, ofRound?_of_pos positive]
        exact listed
      obtain ⟨tapped, d, up, chosen, -⟩ := MatchUpHost.selectWinner_eq needed current onScreen filled side
      exact ⟨_, (if_pos accepted).trans chosen⟩
    · exact ⟨_, if_neg accepted⟩
  obtain ⟨⟨tapped, controller, prompted⟩, acts⟩ := acts
  apply Option.isSome_iff_exists.mp
  unfold Screen.tap
  rw [visible, Option.bind_eq_bind, Option.bind_some, if_neg (by simp [down]), acts]
  rfl

theorem Consistent.toldApart (consistent : Consistent reg s) (visible : s.visibleCells table row = some cell)
    (free : "FREE" ∉ reg.names) (side : Side) : ToldApart reg s side cell := by
  have notFree : ∀ {g}, reg.Entrant g → g.name ≠ some "FREE" := by
    intro g entrant isFree
    obtain ⟨name, member, same⟩ := entrant.name_mem
    rw [isFree] at same
    exact free (Option.some.inj same ▸ member)
  have differ : ∀ {g h}, reg.Entrant g → reg.Contains h → g.entry ≠ h.entry → g.name ≠ h.name := by
    intro g h entrant contained other same
    rcases contained.entrant_or_free with also | isFree
    · exact other (entrant.entry_eq also same)
    · exact notFree entrant (same.trans isFree)
  refine ⟨fun _ entrant _ => notFree entrant, ?_⟩
  intro g entrant notFirst notSecond _
  exact ⟨differ entrant (consistent.contains_groupOf visible .first) notFirst,
    differ entrant (consistent.contains_groupOf visible .second) notSecond⟩

theorem Consistent.tap_treated (consistent : Consistent reg s) (visible : s.visibleCells table row = some cell)
    (round : cell.round = s.controller.currRound) (down : s.prompt = false)
    (apart : ToldApart reg s side cell) :
    ∃ t, s.tap side table row = some t ∧
      Treated reg s.controller.tournament t.controller.tournament s.controller.currRound
        (cell.groupOf side) (cell.groupOf side.other) := by
  obtain ⟨t, tapped⟩ := consistent.tap_isSome visible round down side
  refine ⟨t, tapped, ?_⟩
  obtain ⟨L, g1, g2, here, positive, listed, -⟩ := consistent.current visible round
  obtain ⟨cell', visible', -, outcome⟩ := Screen.tap_inv tapped
  obtain rfl := Option.some.inj (visible.symm.trans visible')
  rcases outcome with ⟨refused, rfl⟩ | ⟨-, picks⟩
  · -- Only the guard against byes refuses a tap of the current round.
    have guard : side = .second ∧ cell.group2.name = some "FREE" := by
      have host : t.controller.isHost = true := consistent.host
      have current : (cell.round == t.controller.getCurrentRound) = true := beq_iff_eq.mpr round
      unfold MatchUpHost.accepts at refused
      rw [host, current] at refused
      simpa using refused
    obtain ⟨rfl, isFree⟩ := guard
    refine ⟨fun entrant opponent _ => absurd isFree (apart.second opponent entrant rfl), ?_⟩
    intro g _ _ _
    exact ⟨id, fun k M i p here seated _ => ⟨M, here, seated⟩⟩
  · obtain ⟨gs, -, -, current, -⟩ := BracketController.updateWinner_inv picks.controller
    rw [picks.tournament]
    constructor
    · intro entrant opponent differ
      exact updateWinner_decides current fun same => differ (entrant.entry_eq opponent same)
    · intro g entrant notWinner notLoser
      have others : (g.entry ∈ s.controller.tournament.winners.map Group.entry ∨
          ∃ L, ofRound? s.controller.tournament.roundList s.controller.currRound = some L ∧
            g.entry ∈ L.map Group.entry) →
          g.name ≠ (cell.groupOf side).name ∧ g.name ≠ (cell.groupOf side.other).name := by
        intro concerned
        cases side with
        | first => exact apart.others g entrant notWinner notLoser concerned
        | second => exact (apart.others g entrant notLoser notWinner concerned).symm
      exact updateWinner_untouched (fun won => (others (Or.inl won)).2)
        (fun L here member => others (Or.inr ⟨L, here, member⟩)) positive

/-- The names tell the match apart that is tapped. -/
def TellsApart (reg : Registration) (s : Screen) : ScreenEvent → Prop
  | .tap side table row => ∀ cell ∈ s.visibleCells table row, cell.round = s.controller.currRound →
    s.prompt = false → ToldApart reg s side cell
  | _ => True

/-- A tap on a match of the current round does not trap, decides the match if it is between two entrants, and
leaves every other entrant alone. -/
def Treats (reg : Registration) (s : Screen) : ScreenEvent → Prop
  | .tap side table row => ∀ cell ∈ s.visibleCells table row, cell.round = s.controller.currRound →
    s.prompt = false → ∃ t, s.step (.tap side table row) = some t ∧
      Treated reg s.controller.tournament t.controller.tournament s.controller.currRound
        (cell.groupOf side) (cell.groupOf side.other)
  | _ => True

/-- Where no entrant is called "FREE", the names tell every match apart. -/
theorem meets_tellsApart (free : "FREE" ∉ reg.names) (es : List ScreenEvent) :
    Transition.Meets Screen.step (TellsApart reg) (Screen.start reg) es := by
  have everywhere : Transition.Meets Screen.step (fun _ _ => True) (Screen.start reg) es :=
    Transition.meets_of_forall (fun _ _ => trivial) _ _
  apply Transition.meets_mono (fun _ _ _ consistent _ h => Consistent.step consistent h) _
    (start_consistent reg) everywhere
  intro s e consistent _
  cases e with
  | tap side table row => exact fun cell visible _ _ => consistent.toldApart visible free side
  | _ => trivial

/-- In a run whose taps are all on matches that the names tell apart, no entrant is confused with another group. -/
theorem entrants_not_confused {es : List ScreenEvent}
    (met : Transition.Meets Screen.step (TellsApart reg) (Screen.start reg) es) :
    Transition.Meets Screen.step (Treats reg) (Screen.start reg) es := by
  apply Transition.meets_mono (fun _ _ _ consistent _ h => Consistent.step consistent h) _
    (start_consistent reg) met
  intro s e consistent apart
  cases e with
  | tap side table row =>
    exact fun cell visible round down => consistent.tap_treated visible round down
      (apart cell visible round down)
  | _ => trivial

/-! ### An entrant called "FREE" -/

def freeEntrant : Registration :=
  { names := ["A", "FREE", "C"], title := "Cup", description := "", gameCode := "abcd", enough := by decide
    nonempty := by decide, distinct := by decide }

def firstRow : List ScreenEvent := [.snapshot 0, .display ⟨0⟩ 0 none]

/-- The pick of "A" against the bye removes the entrant "FREE" of the other row from `winners`. -/
theorem free_entrant_removed :
    ∃ s t cell, Transition.run Screen.step (Screen.start freeEntrant) firstRow = some s ∧
      s.visibleCells ⟨0⟩ 0 = some cell ∧ cell.round = s.controller.currRound ∧ s.prompt = false ∧
      s.step (.tap .first ⟨0⟩ 0) = some t ∧
      ¬ Treated freeEntrant s.controller.tournament t.controller.tournament s.controller.currRound
        (cell.groupOf .first) (cell.groupOf .second) := by
  have sees : ((Transition.run Screen.step (Screen.start freeEntrant) firstRow).bind fun s =>
      (s.visibleCells ⟨0⟩ 0).bind fun cell => (s.step (.tap .first ⟨0⟩ 0)).map fun t =>
        (cell.group1.entry, cell.group2.entry, cell.round - s.controller.currRound,
          s.controller.currRound - cell.round, s.prompt,
          s.controller.tournament.winners.map Group.entry,
          t.controller.tournament.winners.map Group.entry)) =
      some ((some "A", some 1), (some "FREE", some 4), 0, 0, false,
        [(some "A", some 1), (some "FREE", some 2), (some "C", some 3), (some "FREE", some 4)],
        [(some "A", some 1), (some "C", some 3)]) := by rfl
  obtain ⟨s, ran, sees⟩ := Option.bind_eq_some_iff.mp sees
  obtain ⟨cell, visible, sees⟩ := Option.bind_eq_some_iff.mp sees
  obtain ⟨t, tapped, sees⟩ := Option.map_eq_some_iff.mp sees
  simp only [Prod.mk.injEq] at sees
  obtain ⟨first, second, le, ge, down, before, after⟩ := sees
  refine ⟨s, t, cell, ran, visible, by omega, down, tapped, fun treated => ?_⟩
  let g : Group := { name := some "FREE", seed := some 2 }
  have entrant : freeEntrant.Entrant g := ⟨1, by decide, rfl⟩
  have notFirst : g.entry ≠ (cell.groupOf .first).entry := by
    show g.entry ≠ cell.group1.entry
    rw [first]
    decide
  have notSecond : g.entry ≠ (cell.groupOf .second).entry := by
    show g.entry ≠ cell.group2.entry
    rw [second]
    decide
  have kept := (treated.others g entrant notFirst notSecond).winners
  rw [before, after] at kept
  exact absurd (kept (by decide)) (by decide)

/-- With other names, the picks of both rows leave the entrants alone. -/
theorem entrants_not_confused_three :
    (Transition.run Screen.step (Screen.start three) (firstRow ++ [.tap .first ⟨0⟩ 0])).isSome ∧
    Transition.Meets Screen.step (Treats three) (Screen.start three) (firstRow ++ [.tap .first ⟨0⟩ 0]) :=
  ⟨by rfl, entrants_not_confused (meets_tellsApart (by decide) _)⟩

end Tourni
