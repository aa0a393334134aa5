import Tourni.Round.Order

/-!
# Winners and losers during a round

What a history of picks makes of `winners`, `losers` and the round list, from the list `L` of the round.
-/

namespace Tourni
open Mirror

def Tournament.play (t : Tournament) (L : List Group) (r : Nat) (ps : List Pick) : Tournament :=
  ps.foldl (fun t p => t.updateWinner (p.winner L) (p.loser L) r) t

def BracketController.play (c : BracketController) (L : List Group) (r : Nat) (ps : List Pick) :
    Option BracketController :=
  ps.foldlM (fun c p => c.updateWinner (p.winner L) (p.loser L) r) c

/-- What the picks do to one group of the round list. -/
def markAll (L : List Group) (ps : List Pick) (g : Group) : Group :=
  ps.foldl (fun g p => Group.mark (p.winner L) (p.loser L) g) g

def statusAt (L : List Group) (i : Nat) : Bool := (L.getD i {}).status

/-! ### One pick -/

theorem filter_bne (g : Group) (gs : List Group) :
    gs.filter (· != g) = Roster.expel Group.name g.name gs := by
  apply List.filter_congr
  intro h _
  rw [Bool.eq_iff_iff, Group.bne_iff, decide_eq_true_iff]

theorem append_unless_any (g : Group) (gs : List Group) :
    (if gs.any (· == g) then gs else gs ++ [g]) = Roster.enroll Group.name g gs := by
  have present : gs.any (· == g) = true ↔ g.name ∈ gs.map Group.name := by
    simp only [List.any_eq_true, List.mem_map, Group.beq_iff]
  unfold Roster.enroll
  by_cases h : g.name ∈ gs.map Group.name
  · rw [if_pos h, if_pos (present.mpr h)]
  · rw [if_neg h, if_neg (mt present.mp h)]

namespace Tournament

theorem updateWinner_winners (t : Tournament) (w l : Group) (r : Nat) :
    (t.updateWinner w l r).winners =
      Roster.enroll Group.name w (Roster.expel Group.name l.name t.winners) := by
  rw [← append_unless_any, ← filter_bne]
  rfl

theorem updateWinner_losers (t : Tournament) (w l : Group) (r : Nat) :
    (t.updateWinner w l r).losers =
      Roster.expel Group.name w.name (Roster.enroll Group.name l t.losers) := by
  rw [← append_unless_any, ← filter_bne]
  rfl

@[simp] theorem updateWinner_roundList (t : Tournament) (w l : Group) (r : Nat) :
    (t.updateWinner w l r).roundList = t.roundList.modify (r - 1) (·.map (Group.mark w l)) := rfl

@[simp] theorem updateWinner_groups (t : Tournament) (w l : Group) (r : Nat) :
    (t.updateWinner w l r).groups = t.groups := rfl

theorem mem_winners_updateWinner {t : Tournament} {w l : Group} {r : Nat} {x : Option String} :
    x ∈ (t.updateWinner w l r).winners.map Group.name ↔
      x = w.name ∨ (x ∈ t.winners.map Group.name ∧ x ≠ l.name) := by
  rw [updateWinner_winners, Roster.mem_keys_enroll, Roster.mem_keys_expel]

theorem mem_losers_updateWinner {t : Tournament} {w l : Group} {r : Nat} {x : Option String} :
    x ∈ (t.updateWinner w l r).losers.map Group.name ↔
      (x = l.name ∨ x ∈ t.losers.map Group.name) ∧ x ≠ w.name := by
  rw [updateWinner_losers, Roster.mem_keys_expel, Roster.mem_keys_enroll]

theorem play_append (t : Tournament) (L : List Group) (r : Nat) (ps : List Pick) (p : Pick) :
    t.play L r (ps ++ [p]) = (t.play L r ps).updateWinner (p.winner L) (p.loser L) r := by
  simp [play]

end Tournament

theorem markAll_append (L : List Group) (ps : List Pick) (p : Pick) :
    markAll L (ps ++ [p]) = Group.mark (p.winner L) (p.loser L) ∘ markAll L ps := by
  funext g
  simp [markAll]

@[simp] theorem markAll_entry (L : List Group) (ps : List Pick) (g : Group) :
    (markAll L ps g).entry = g.entry := by
  induction ps using List.reverseRecOn with
  | nil => rfl
  | append_singleton ps p ih => rw [markAll_append, Function.comp_apply, Group.mark_entry, ih]

@[simp] theorem markAll_name (L : List Group) (ps : List Pick) (g : Group) :
    (markAll L ps g).name = g.name := congrArg Prod.fst (markAll_entry L ps g)

theorem marked_entries (L : List Group) (ps : List Pick) :
    (L.map (markAll L ps)).map Group.entry = L.map Group.entry := by
  rw [List.map_map]
  exact List.map_congr_left fun g _ => markAll_entry L ps g

/-! ### A history of picks -/

variable {t : Tournament} {L : List Group} {bye : Nat → Prop} {r : Nat} {ps : List Pick}

theorem play_winners (start : t.winners.map Group.entry = L.map Group.entry) :
    (t.play L r ps).winners.map Group.entry = (standing L ps).map (entryAt L) := by
  induction ps using List.reverseRecOn with
  | nil => rw [standing, List.foldl_nil, map_entryAt_range, ← start]; rfl
  | append_singleton ps p ih =>
    rw [Tournament.play_append, Tournament.updateWinner_winners, standing_append, stand]
    calc (Roster.enroll Group.name (p.winner L)
          (Roster.expel Group.name (p.loser L).name (t.play L r ps).winners)).map Group.entry
        = Roster.enroll Prod.fst (p.winner L).entry
            (Roster.expel Prod.fst (p.loser L).name ((t.play L r ps).winners.map Group.entry)) := by
          rw [← Roster.map_expel, ← Roster.map_enroll]
          rfl
      _ = Roster.enroll Prod.fst (entryAt L (p.winnerSeat L.length))
            (Roster.expel Prod.fst (nameAt L (p.loserSeat L.length))
              ((standing L ps).map (entryAt L))) := by rw [ih]; rfl
      _ = _ := by
          rw [← Roster.map_expel, ← Roster.map_enroll]
          rfl

theorem play_winner_names (start : t.winners.map Group.entry = L.map Group.entry) :
    (t.play L r ps).winners.map Group.name = (standing L ps).map (nameAt L) := by
  have entries : (t.play L r ps).winners.map Group.entry = (standing L ps).map (entryAt L) :=
    play_winners start
  have names := congrArg (List.map Prod.fst) entries
  rwa [List.map_map, List.map_map] at names

theorem count_winners (seeding : Seeding L bye) (valid : ∀ p ∈ ps, p.Valid L bye)
    (start : t.winners.map Group.entry = L.map Group.entry) {i : Nat} (bound : i < L.length)
    (real : ¬ bye i) :
    ((t.play L r ps).winners.map Group.name).count (nameAt L i) =
      if i ∈ standing L ps then 1 else 0 := by
  rw [play_winner_names start, List.count, List.countP_map, ← (standing_nodup seeding valid).count,
    List.count]
  refine List.countP_congr fun j member => ?_
  simp only [Function.comp_apply, beq_iff_eq]
  refine ⟨fun same => ?_, fun same => congrArg (nameAt L) same⟩
  exact (seeding.eq_of_name bound (standing_lt valid member) real same.symm).symm

theorem play_roundList : (t.play L r ps).roundList = t.roundList.modify (r - 1) (·.map (markAll L ps)) := by
  induction ps using List.reverseRecOn with
  | nil =>
    have same : (fun gs : List Group => gs.map (markAll L [])) = id := by
      funext gs
      exact List.map_id gs
    rw [same, List.modify_id]
    rfl
  | append_singleton ps p ih =>
    rw [Tournament.play_append, Tournament.updateWinner_roundList, ih, List.modify_modify_eq]
    congr 1
    funext gs
    rw [Function.comp_apply, List.map_map, markAll_append]

@[simp] theorem play_groups : (t.play L r ps).groups = t.groups := by
  induction ps using List.reverseRecOn with
  | nil => rfl
  | append_singleton ps p ih => rw [Tournament.play_append, Tournament.updateWinner_groups, ih]

/-- The losers of a round: those before it, and the groups the last pick of their row went against. -/
theorem mem_losers_play (seeding : Seeding L bye) (valid : ∀ p ∈ ps, p.Valid L bye)
    (new : ∀ x ∈ t.losers.map Group.name, x ∉ L.map Group.name) {i : Nat} (bound : i < L.length)
    (real : ¬ bye i) :
    nameAt L i ∈ (t.play L r ps).losers.map Group.name ↔
      lastPick ps (row L.length i) = some (side L.length i).other := by
  induction ps using List.reverseRecOn with
  | nil =>
    have listed : nameAt L i ∈ L.map Group.name := by
      rw [nameAt, List.getD_eq_getElem?_getD, List.getElem?_eq_getElem bound]
      exact List.mem_map_of_mem (List.getElem_mem bound)
    have absent : nameAt L i ∉ t.losers.map Group.name := fun member => new _ member listed
    simpa [Tournament.play] using absent
  | append_singleton ps p ih =>
    have before : ∀ q ∈ ps, q.Valid L bye := fun q hq => valid q (by simp [hq])
    have now := valid p (by simp)
    have winner : nameAt L i = nameAt L (p.winnerSeat L.length) ↔
        row L.length i = p.row ∧ side L.length i = p.side := by
      rw [← seat_eq_iff now.1 bound]
      exact ⟨seeding.eq_of_name bound now.winnerSeat_lt real, fun same => congrArg (nameAt L) same⟩
    have loser : nameAt L i = nameAt L (p.loserSeat L.length) ↔
        row L.length i = p.row ∧ side L.length i = p.side.other := by
      rw [← seat_eq_iff now.1 bound]
      exact ⟨seeding.eq_of_name bound now.loserSeat_lt real, fun same => congrArg (nameAt L) same⟩
    rw [Tournament.play_append, Tournament.mem_losers_updateWinner, ih before, lastPick_append,
      Pick.winner_name, Pick.loser_name]
    simp only [ne_eq, winner, loser]
    by_cases same : p.row = row L.length i
    · rw [if_pos same]
      cases side L.length i <;> cases p.side <;> simp [same, Side.other]
    · simp [same, Ne.symm same]

theorem losers_kept (valid : ∀ p ∈ ps, p.Valid L bye)
    (new : ∀ x ∈ t.losers.map Group.name, x ∉ L.map Group.name) :
    t.losers.map Group.name ⊆ (t.play L r ps).losers.map Group.name := by
  intro x member
  induction ps using List.reverseRecOn with
  | nil => exact member
  | append_singleton ps p ih =>
    have now := valid p (by simp)
    have old := ih fun q hq => valid q (by simp [hq])
    rw [Tournament.play_append, Tournament.mem_losers_updateWinner]
    refine ⟨Or.inr old, ?_⟩
    rintro rfl
    apply new _ member
    rw [Pick.winner_name, nameAt, List.getD_eq_getElem?_getD, List.getElem?_eq_getElem now.winnerSeat_lt]
    exact List.mem_map_of_mem (List.getElem_mem _)

theorem losers_nodup (distinct : (t.losers.map Group.name).Nodup) :
    ((t.play L r ps).losers.map Group.name).Nodup := by
  induction ps using List.reverseRecOn with
  | nil => exact distinct
  | append_singleton ps p ih =>
    rw [Tournament.play_append, Tournament.updateWinner_losers]
    exact Roster.nodup_keys_expel (Roster.nodup_keys_enroll ih)

theorem winners_apart_losers
    (apart : ∀ x ∈ t.winners.map Group.name, x ∉ t.losers.map Group.name) :
    ∀ x ∈ (t.play L r ps).winners.map Group.name, x ∉ (t.play L r ps).losers.map Group.name := by
  induction ps using List.reverseRecOn with
  | nil => exact apart
  | append_singleton ps p ih =>
    intro x won lost
    rw [Tournament.play_append, Tournament.mem_winners_updateWinner] at won
    rw [Tournament.play_append, Tournament.mem_losers_updateWinner] at lost
    obtain ⟨lost, notWinner⟩ := lost
    rcases won with isWinner | ⟨won, notLoser⟩
    · exact notWinner isWinner
    · rcases lost with isLoser | lost
      · exact notLoser isLoser
      · exact ih x won lost

theorem markAll_status (seeding : Seeding L bye) (valid : ∀ p ∈ ps, p.Valid L bye) {q : Nat} {s : Side}
    (inside : q < L.length / 2) (last : lastPick ps q = some s) :
    (markAll L ps (L.getD (seat L.length q s) {})).status = true ∧
      (markAll L ps (L.getD (seat L.length q s.other) {})).status = false := by
  induction ps using List.reverseRecOn with
  | nil => simp at last
  | append_singleton ps p ih =>
    have before : ∀ q ∈ ps, q.Valid L bye := fun q hq => valid q (by simp [hq])
    have now := valid p (by simp)
    have apart := seeding.names_ne now
    rw [lastPick_append] at last
    simp only [markAll_append, Function.comp_apply]
    split at last
    · rename_i same
      obtain rfl := same
      obtain rfl := Option.some.inj last
      exact ⟨Group.mark_winner (by rw [markAll_name]; rfl),
        Group.mark_loser (by rw [markAll_name]; rfl) apart⟩
    · rename_i different
      obtain ⟨won, lost⟩ := ih before last
      obtain ⟨earlier, member, sameRow, sameSide⟩ := exists_lastPick (by rw [last]; rfl)
      obtain rfl : s = earlier.side := Option.some.inj (last.symm.trans sameSide)
      obtain rfl := sameRow
      have real : ¬ bye (earlier.winnerSeat L.length) := (before earlier member).2
      have rows : ∀ s s', seat L.length earlier.row s ≠ seat L.length p.row s' := by
        intro s s' equal
        have := congrArg (row L.length) equal
        rw [row_seat inside, row_seat now.1] at this
        exact different this.symm
      have other : ∀ s', nameAt L (earlier.winnerSeat L.length) ≠ nameAt L (seat L.length p.row s') :=
        fun s' equal => rows _ _
          (seeding.eq_of_name (seat_lt inside _) (seat_lt now.1 _) real equal)
      constructor
      · rw [Group.mark_other (by rw [markAll_name]; exact other _) (by rw [markAll_name]; exact other _)]
        exact won
      · -- The loser may be a bye, and then share its name with the loser of the new pick.
        by_cases equal : nameAt L (seat L.length earlier.row earlier.side.other) =
            nameAt L (p.loserSeat L.length)
        · exact Group.mark_loser (by rw [markAll_name]; exact equal) apart
        · rw [Group.mark_other _ (by rw [markAll_name]; exact equal)]
          · exact lost
          · rw [markAll_name]
            intro sameName
            exact rows _ _ (seeding.eq_of_name now.winnerSeat_lt (seat_lt inside _) now.2
              sameName.symm).symm

/-! ### The controller -/

namespace BracketController

theorem updateWinner_eq {c : BracketController} {w l : Group} {gs shown : List Group} {table : UITableView}
    (current : ofRound? c.tournament.roundList r = some gs)
    (onScreen : ofRound? c.bracketViewArr r = some table)
    (filled : c.bracketViewGroupDict table = some shown) :
    c.updateWinner w l r = some { c with
      tournament := c.tournament.updateWinner w l r
      bracketViewGroupDict :=
        Function.update c.bracketViewGroupDict table (some (shown.map (Group.mark w l))) } := by
  simp [updateWinner, current, onScreen, filled]

theorem play_append (c : BracketController) (L : List Group) (r : Nat) (ps : List Pick) (p : Pick) :
    c.play L r (ps ++ [p]) = (c.play L r ps).bind fun c => c.updateWinner (p.winner L) (p.loser L) r := by
  simp [play]

end BracketController

theorem ofRound?_modify {xs : List (List Group)} {gs : List Group} {f : List Group → List Group}
    (current : ofRound? xs r = some gs) : ofRound? (xs.modify (r - 1) f) r = some (f gs) := by
  obtain ⟨positive, here⟩ := ofRound?_eq_some current
  rw [ofRound?_of_pos positive, List.getElem?_modify_eq, here]
  rfl

theorem BracketController.play_eq {c : BracketController} {gs shown : List Group} {table : UITableView}
    (current : ofRound? c.tournament.roundList r = some gs)
    (onScreen : ofRound? c.bracketViewArr r = some table)
    (filled : c.bracketViewGroupDict table = some shown) :
    c.play L r ps = some { c with
      tournament := c.tournament.play L r ps
      bracketViewGroupDict :=
        Function.update c.bracketViewGroupDict table (some (shown.map (markAll L ps))) } := by
  induction ps using List.reverseRecOn with
  | nil =>
    have same : shown.map (markAll L []) = shown := List.map_id shown
    rw [same, ← filled, Function.update_eq_self]
    rfl
  | append_singleton ps p ih =>
    have listed : ofRound? (c.tournament.play L r ps).roundList r = some (gs.map (markAll L ps)) := by
      rw [play_roundList]
      exact ofRound?_modify current
    let played : BracketController := { c with
      tournament := c.tournament.play L r ps
      bracketViewGroupDict :=
        Function.update c.bracketViewGroupDict table (some (shown.map (markAll L ps))) }
    have next : played.updateWinner (p.winner L) (p.loser L) r = some _ :=
      updateWinner_eq listed onScreen (Function.update_self _ _ _)
    rw [play_append, ih, Option.bind_some]
    apply next.trans
    simp [played, Tournament.play_append, markAll_append]

/-! ### The whole of a round -/

/-- Round `r` of the controller, with list `L`, before its first pick. -/
structure RoundOpen (c : BracketController) (L : List Group) (bye : Nat → Prop) (r : Nat) : Prop where
  current : ofRound? c.tournament.roundList r = some L
  onScreen : ∃ table, ofRound? c.bracketViewArr r = some table ∧ (c.bracketViewGroupDict table).isSome
  seeding : Seeding L bye
  winners : c.tournament.winners = L
  losersDistinct : (c.tournament.losers.map Group.name).Nodup
  losersNew : ∀ x ∈ c.tournament.losers.map Group.name, x ∉ L.map Group.name

/-- What is true of `winners`, `losers` and the round lists after the picks `ps` of round `r`. -/
structure Bookkeeping (before after : Tournament) (L : List Group) (bye : Nat → Prop) (r : Nat)
    (ps : List Pick) : Prop where
  winners : ∀ i < L.length, ¬ bye i → (after.winners.map Group.name).count (nameAt L i) =
    if lastPick ps (row L.length i) = none ∨ lastPick ps (row L.length i) = some (side L.length i)
    then 1 else 0
  losers : ∀ i < L.length, ¬ bye i → (nameAt L i ∈ after.losers.map Group.name ↔
    lastPick ps (row L.length i) = some (side L.length i).other)
  apart : ∀ x ∈ after.winners.map Group.name, x ∉ after.losers.map Group.name
  losersDistinct : (after.losers.map Group.name).Nodup
  losersKept : before.losers.map Group.name ⊆ after.losers.map Group.name
  marked : ∃ M, ofRound? after.roundList r = some M ∧ M.map Group.entry = L.map Group.entry ∧
    ∀ q < L.length / 2, ∀ s, lastPick ps q = some s →
      statusAt M (seat L.length q s) = true ∧ statusAt M (seat L.length q s.other) = false
  others : ∀ k, k ≠ r - 1 → after.roundList[k]? = before.roundList[k]?

theorem statusAt_of_getElem? {i : Nat} {g : Group} (here : L[i]? = some g) : statusAt L i = g.status := by
  simp [statusAt, List.getD_eq_getElem?_getD, here]

theorem statusAt_map {f : Group → Group} {i : Nat} (bound : i < L.length) :
    statusAt (L.map f) i = (f (L.getD i {})).status := by
  simp [statusAt, List.getD_eq_getElem?_getD, bound]

theorem bookkeeping_play (seeding : Seeding L bye) (valid : ∀ p ∈ ps, p.Valid L bye)
    (current : ofRound? t.roundList r = some L) (winners : t.winners = L)
    (distinct : (t.losers.map Group.name).Nodup)
    (new : ∀ x ∈ t.losers.map Group.name, x ∉ L.map Group.name) :
    Bookkeeping t (t.play L r ps) L bye r ps := by
  have start : t.winners.map Group.entry = L.map Group.entry := by rw [winners]
  refine ⟨?_, ?_, ?_, losers_nodup distinct, losers_kept valid new, ?_, ?_⟩
  · intro i bound real
    rw [count_winners seeding valid start bound real]
    refine if_congr ?_ rfl rfl
    rw [mem_standing seeding valid bound real]
    cases lastPick ps (row L.length i) with
    | none => simp
    | some s => cases s <;> cases side L.length i <;> simp [Side.other]
  · exact fun i bound real => mem_losers_play seeding valid new bound real
  · apply winners_apart_losers
    intro x won lost
    exact new x lost (winners ▸ won)
  · refine ⟨L.map (markAll L ps), ?_, ?_, ?_⟩
    · rw [play_roundList]
      exact ofRound?_modify current
    · exact marked_entries L ps
    · intro q inside s last
      rw [statusAt_map (seat_lt inside s), statusAt_map (seat_lt inside s.other)]
      exact markAll_status seeding valid inside last
  · intro k other
    rw [play_roundList, List.getElem?_modify_ne _ _ (Ne.symm other)]

/-- At every moment of a round, `winners`, `losers` and the statuses say exactly what was picked. -/
theorem bookkeeping_exact {c : BracketController} (round : RoundOpen c L bye r)
    (valid : ∀ p ∈ ps, p.Valid L bye) :
    ∃ after, c.play L r ps = some after ∧ Bookkeeping c.tournament after.tournament L bye r ps := by
  obtain ⟨table, onScreen, isSome⟩ := round.onScreen
  obtain ⟨shown, filled⟩ := Option.isSome_iff_exists.mp isSome
  refine ⟨_, BracketController.play_eq round.current onScreen filled, ?_⟩
  exact bookkeeping_play round.seeding valid round.current round.winners round.losersDistinct
    round.losersNew

/-- A controller that shows a single round with list `L`. -/
def showing (L : List Group) : BracketController :=
  { tournament := { gameCode := some "tour", winners := L, roundList := [L] }
    bracketViewArr := [⟨0⟩]
    bracketViewGroupDict := fun _ => some L }

theorem showing_open (L : List Group) (bye : Nat → Prop) (seeding : Seeding L bye) :
    RoundOpen (showing L) L bye 1 :=
  ⟨rfl, ⟨⟨0⟩, rfl, rfl⟩, seeding, rfl, List.nodup_nil, fun _ member => by cases member⟩

def named (name : String) : Group := { name := some name }

/-- Two rows, one with a bye; its winner is picked twice and the other row changes its mind. -/
theorem bookkeeping_exact_bye :
    let L := [named "A", named "B", named "C", named "FREE"]
    let ps : List Pick := [⟨0, .first, true, false⟩, ⟨1, .second, false, false⟩, ⟨1, .first, false, true⟩,
      ⟨0, .first, false, false⟩]
    ∃ after, (showing L).play L 1 ps = some after ∧
      Bookkeeping (showing L).tournament after.tournament L (fun i => i = 3) 1 ps := by
  refine bookkeeping_exact (showing_open _ _ ⟨?_, ?_, ?_⟩) ?_
  · decide
  · decide
  · decide
  · decide

end Tourni
