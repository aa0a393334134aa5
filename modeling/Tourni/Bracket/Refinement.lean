import Tourni.Bracket.Decided
import Tourni.Lib.Elimination

/-!
# The tournament as an elimination

What a tournament is for: the seats of the created list are eliminated round after round. The tournaments that a
host stores carry out such an elimination, one list of seats after the other.
-/

namespace Tourni
open Mirror

/-- The tournament carries out the elimination `seats`: its round lists have the groups on the seats left, a
group is marked when its seat is left after the round, and the losers are the entrants whose seats are not. -/
structure Refines (reg : Registration) (t : Tournament) (seats : List (List Nat)) : Prop where
  first : seats[0]? = some (List.range (2 ^ reg.rounds))
  chain : seats.IsChain Elimination.Round
  done : seats.length ≤ reg.rounds + 1
  roundList : t.roundList.map (·.map Group.entry) = seats.map (·.map (entryAt reg.padded))
  marked : ∀ (i : Nat) xs ys L, seats[i]? = some xs → seats[i + 1]? = some ys → t.roundList[i]? = some L →
    ∀ (j : Nat) seat, xs[j]? = some seat → (statusAt L j = true ↔ seat ∈ ys)
  winners : t.roundList.getLast? = some t.winners
  losers : ∀ xs, seats.getLast? = some xs → ∀ (i : Nat) name, reg.names[i]? = some name →
    (some name ∈ t.losers.map Group.name ↔ i ∉ xs)

variable {reg : Registration} {t v : Tournament} {seats : List (List Nat)} {S : List Nat} {L : List Group}
  {ps : List Pick} {pss : List (List Pick)} {bye : Nat → Prop} {i j k : Nat} {name : String} {h : Host}

/-! ### One round -/

/-- The seat that seat `i` of the current list was in the created one. -/
def origin (S : List Nat) (i : Nat) : Nat := S.getD i 0

theorem map_origin_range (S : List Nat) : (List.range S.length).map (origin S) = S := by
  apply List.ext_getElem
  · simp
  · intro i _ bound
    simp [origin, List.getD_eq_getElem?_getD, bound]

theorem origin_of_getElem? {seat : Nat} (here : S[i]? = some seat) : origin S i = seat := by
  simp [origin, List.getD_eq_getElem?_getD, here]

theorem mem_map_origin {xs : List Nat} (distinct : S.Nodup) (below : ∀ x ∈ xs, x < S.length) {seat : Nat}
    (here : S[i]? = some seat) : seat ∈ xs.map (origin S) ↔ i ∈ xs := by
  constructor
  · intro member
    obtain ⟨j, left, same⟩ := List.mem_map.mp member
    have there : S[j]? = some (origin S j) := by
      simp [origin, List.getD_eq_getElem?_getD, below j left]
    have places : S[j]? = S[i]? := by rw [there, same, here]
    exact (List.getElem?_inj (below j left) distinct).mp places ▸ left
  · intro left
    exact List.mem_map.mpr ⟨i, left, origin_of_getElem? here⟩

theorem entryAt_origin (same : L.map Group.entry = S.map (entryAt reg.padded)) (bound : i < L.length) :
    entryAt L i = entryAt reg.padded (origin S i) := by
  have length : L.length = S.length := by simpa using congrArg List.length same
  have here := congrArg (fun entries => entries[i]?) same
  simp only [List.getElem?_map, List.getElem?_eq_getElem bound,
    List.getElem?_eq_getElem (show i < S.length by omega), Option.map_some] at here
  rw [entryAt_of_getElem? (List.getElem?_eq_getElem bound), Option.some.inj here,
    origin_of_getElem? (List.getElem?_eq_getElem (by omega))]

/-- The side picked last in a decided row. -/
def picked (ps : List Pick) (r : Nat) : Side := (lastPick ps r).getD .first

/-- Once every row is decided, the seats left are those picked last. -/
theorem standing_perm (seeding : Seeding L bye) (valid : ∀ p ∈ ps, p.Valid L bye) (covers : Covers ps L.length)
    (even : 2 ∣ L.length) :
    (standing L ps).Perm ((List.range (L.length / 2)).map fun r => seat L.length r (picked ps r)) := by
  refine (List.perm_ext_iff_of_nodup (standing_nodup seeding valid) ?_).mpr fun i => ?_
  · refine List.Nodup.map_on ?_ List.nodup_range
    intro r hr q hq same
    have row := congrArg (Mirror.row L.length) same
    rwa [row_seat (List.mem_range.mp hr), row_seat (List.mem_range.mp hq)] at row
  · rw [mem_standing_iff_chosen seeding valid covers, mem_chosen, List.mem_map]
    constructor
    · rintro ⟨bound, notAgainst⟩
      have inside := row_lt_of_even bound even
      obtain ⟨s, last⟩ := Option.isSome_iff_exists.mp (covers _ inside)
      have same : picked ps (row L.length i) = side L.length i := by
        unfold picked
        rw [last] at notAgainst ⊢
        by_contra differ
        exact notAgainst (congrArg some (Side.eq_other_iff.mpr differ))
      exact ⟨_, List.mem_range.mpr inside, by rw [same, seat_row_side bound inside]⟩
    · rintro ⟨r, inside, rfl⟩
      have inside := List.mem_range.mp inside
      obtain ⟨s, last⟩ := Option.isSome_iff_exists.mp (covers _ inside)
      have same : picked ps r = s := by
        unfold picked
        rw [last]
        rfl
      rw [same]
      refine ⟨seat_lt inside s, ?_⟩
      rw [row_seat inside, side_seat inside, last]
      exact fun other => Side.other_ne s (Option.some.inj other).symm

/-- Picks that decide every row make a round of the elimination. -/
theorem round_standing (seeding : Seeding L bye) (valid : ∀ p ∈ ps, p.Valid L bye) (covers : Covers ps L.length)
    (even : 2 ∣ L.length) : Elimination.Round (List.range L.length) (standing L ps) := by
  refine ⟨picked ps, ?_⟩
  rw [List.length_range]
  refine ((standing_perm seeding valid covers even).map some).trans (List.Perm.of_eq ?_)
  rw [List.map_map]
  refine List.map_congr_left fun r inside => ?_
  have bound := seat_lt (List.mem_range.mp inside) (picked ps r)
  rw [Function.comp_apply, List.getElem?_range bound]

/-- A group is marked after the round exactly when its seat is left. -/
theorem marked_iff_standing (seeding : Seeding L bye) (valid : ∀ p ∈ ps, p.Valid L bye)
    (covers : Covers ps L.length) (even : 2 ∣ L.length) (bound : i < L.length) :
    statusAt (L.map (markAll L ps)) i = true ↔ i ∈ standing L ps := by
  have inside := row_lt_of_even bound even
  have place := seat_row_side bound inside
  obtain ⟨s, last⟩ := Option.isSome_iff_exists.mp (covers _ inside)
  obtain ⟨won, lost⟩ := markAll_status seeding valid inside last
  rw [statusAt_map bound, mem_standing_iff_chosen seeding valid covers, mem_chosen, last]
  by_cases mine : side L.length i = s
  · rw [← mine, place] at won
    rw [won, ← mine]
    refine iff_of_true rfl ⟨bound, fun against => ?_⟩
    exact Side.other_ne _ (Option.some.inj against).symm
  · have theirs : side L.length i = s.other := Side.eq_other_iff.mpr mine
    rw [← theirs, place] at lost
    rw [lost, theirs, Side.other_other]
    exact iff_of_false Bool.false_ne_true fun left => left.2 rfl

/-! ### The entrants -/

theorem nameAt_padded_of_getElem? (here : reg.names[i]? = some name) : nameAt reg.padded i = some name := by
  obtain ⟨bound, rfl⟩ := List.getElem?_eq_some_iff.mp here
  exact nameAt_padded bound

theorem not_added_of_origin (same : L.map Group.entry = S.map (entryAt reg.padded)) (bound : j < L.length)
    (here : S[j]? = some i) (entered : i < reg.names.length) : ¬ reg.added L j := by
  have entry := entryAt_origin same bound
  rw [origin_of_getElem? here, entryAt_of_getElem? (Registration.padded_entered entered)] at entry
  intro isBye
  have seed := congrArg Prod.snd entry
  have isBye : (entryAt L j).2 = some (reg.names.length + 1 : Int) := isBye
  rw [isBye] at seed
  simp only [Group.entry_snd, Option.some.injEq] at seed
  omega

/-! ### The rounds of a tournament -/

theorem created_refines (reg : Registration) : Refines reg reg.created [List.range (2 ^ reg.rounds)] := by
  have entries : reg.padded.map Group.entry = (List.range (2 ^ reg.rounds)).map (entryAt reg.padded) := by
    rw [← reg.padded_length, map_entryAt_range]
  refine ⟨rfl, List.isChain_singleton _, ?_, ?_, ?_, ?_, ?_⟩
  · exact Nat.succ_le_succ (Nat.zero_le _)
  · rw [reg.created_eq]
    show [reg.padded.map Group.entry] = _
    rw [entries]
    rfl
  · intro i xs ys L _ after
    cases after
  · rw [reg.created_eq]
    rfl
  · intro xs last i name here
    obtain rfl : List.range (2 ^ reg.rounds) = xs := Option.some.inj last
    have bound := (List.getElem?_eq_some_iff.mp here).1
    have enough := reg.names_le
    rw [reg.created_eq]
    simp
    omega

theorem Refines.length (refines : Refines reg t seats) : seats.length = t.roundList.length := by
  have lengths := congrArg List.length refines.roundList
  rw [List.length_map, List.length_map] at lengths
  exact lengths.symm

theorem Refines.list (refines : Refines reg t seats) (here : seats[i]? = some S) :
    ∃ L, t.roundList[i]? = some L ∧ L.map Group.entry = S.map (entryAt reg.padded) := by
  have at_i := congrArg (fun lists => lists[i]?) refines.roundList
  simp only [List.getElem?_map, here, Option.map_some] at at_i
  exact Option.map_eq_some_iff.mp at_i

theorem Refines.nodup (refines : Refines reg t seats) (here : seats[i]? = some S) : S.Nodup := by
  refine Elimination.nodup_of_isChain refines.chain ?_ here
  intro xs first
  obtain rfl := Option.some.inj (refines.first.symm.trans first)
  exact List.nodup_range

theorem Refines.lt (refines : Refines reg t seats) (here : seats[i]? = some S) {seat : Nat}
    (member : seat ∈ S) : seat < 2 ^ reg.rounds :=
  List.mem_range.mp (Elimination.mem_of_le refines.chain (Nat.zero_le i) refines.first here member)

theorem Refines.size (refines : Refines reg t seats) (here : seats[i]? = some S) :
    S.length = 2 ^ (reg.rounds - i) := by
  induction i generalizing S with
  | zero =>
    obtain rfl := Option.some.inj (refines.first.symm.trans here)
    exact List.length_range
  | succ i ih =>
    have bound := (List.getElem?_eq_some_iff.mp here).1
    have done := refines.done
    have before : seats[i]? = some seats[i] := List.getElem?_eq_getElem (by omega)
    have half := (Elimination.isChain_getElem? refines.chain before here).length
    rw [half, ih before, half_pow_sub (by omega), Nat.sub_sub, Nat.add_comm]

theorem entries_modify (Ls : List (List Group)) (k : Nat) (L : List Group) (ps : List Pick) :
    (Ls.modify k (·.map (markAll L ps))).map (·.map Group.entry) = Ls.map (·.map Group.entry) := by
  apply List.ext_getElem?
  intro i
  simp only [List.getElem?_map, List.getElem?_modify]
  cases Ls[i]? with
  | none => rfl
  | some M =>
    by_cases here : k = i
    · simp [here, Function.comp_def]
    · simp [here]

/-- A decided round is one more round of the elimination. -/
theorem Refines.next (refines : Refines reg v seats) (version : Version reg k v) (unfinished : k < reg.rounds)
    (settles : Settles reg v ps) (current : seats[k]? = some S) :
    Refines reg (v.decideRound ps) (seats ++ [(standing v.winners ps).map (origin S)]) := by
  obtain ⟨valid, covers⟩ := settles
  have lists := version.lists
  have length : seats.length = k + 1 := refines.length.trans lists
  have distinct := refines.nodup current
  have same : v.winners.map Group.entry = S.map (entryAt reg.padded) := by
    obtain ⟨L, here, entries⟩ := refines.list current
    rw [version.current] at here
    rwa [Option.some.inj here]
  have size : v.winners.length = S.length := by simpa using congrArg List.length same
  have below : ∀ x ∈ standing v.winners ps, x < S.length := fun x member => size ▸ standing_lt valid member
  have even := version.even unfinished
  have rounds : (v.play v.winners v.roundList.length ps).roundList =
      v.roundList.modify k (·.map (markAll v.winners ps)) := by
    rw [lists]
    exact play_roundList
  have left : (v.play v.winners v.roundList.length ps).winners.map Group.entry =
      (standing v.winners ps).map (entryAt v.winners) := play_winners rfl
  have lastSeats : (seats ++ [(standing v.winners ps).map (origin S)]).getLast? =
      some ((standing v.winners ps).map (origin S)) := List.getLast?_concat
  refine ⟨?_, ?_, ?_, ?_, ?_, List.getLast?_concat, ?_⟩
  · rw [List.getElem?_append_left (by omega), refines.first]
  · refine refines.chain.append (List.isChain_singleton _) fun xs last ys new => ?_
    have last : seats.getLast? = some xs := last
    obtain rfl : (standing v.winners ps).map (origin S) = ys := Option.some.inj new
    rw [List.getLast?_eq_getElem?, length, Nat.add_sub_cancel, current] at last
    obtain rfl := Option.some.inj last
    have round := (round_standing version.seeding valid covers even).map (origin S)
    rwa [size, map_origin_range] at round
  · rw [List.length_append, List.length_singleton, length]
    omega
  · show ((v.play v.winners v.roundList.length ps).roundList ++
      [(v.play v.winners v.roundList.length ps).winners]).map (·.map Group.entry) = _
    rw [rounds, List.map_append, List.map_append, entries_modify, refines.roundList, List.map_singleton,
      List.map_singleton, left, List.map_map]
    congr 2
    exact List.map_congr_left fun i member => entryAt_origin same (standing_lt valid member)
  · intro i xs ys L here after listed j seat seated
    have bound := (List.getElem?_eq_some_iff.mp after).1
    rw [List.length_append, List.length_singleton, length] at bound
    rw [List.getElem?_append_left (by omega)] at here
    change ((v.play v.winners v.roundList.length ps).roundList ++
      [(v.play v.winners v.roundList.length ps).winners])[i]? = some L at listed
    rw [rounds, List.getElem?_append_left (by rw [List.length_modify]; omega), List.getElem?_modify] at listed
    obtain ⟨M, before, marked⟩ := Option.map_eq_some_iff.mp listed
    rcases Nat.lt_or_ge i k with earlier | now
    · rw [List.getElem?_append_left (by omega)] at after
      rw [if_neg (by omega)] at marked
      exact marked ▸ refines.marked i xs ys M here after before j seat seated
    · -- The round just decided: a seat is left exactly when the last pick of its row is for it.
      obtain rfl : i = k := by omega
      obtain rfl := Option.some.inj (current.symm.trans here)
      obtain rfl := Option.some.inj (version.current.symm.trans before)
      rw [if_pos rfl] at marked
      rw [show i + 1 = seats.length by omega, List.getElem?_concat_length] at after
      rw [← Option.some.inj after, ← marked, mem_map_origin distinct below seated]
      have bound : j < v.winners.length := size ▸ (List.getElem?_eq_some_iff.mp seated).1
      exact marked_iff_standing version.seeding valid covers even bound
  · intro xs last i name here
    obtain rfl := Option.some.inj (lastSeats.symm.trans last)
    have entered := (List.getElem?_eq_some_iff.mp here).1
    show some name ∈ (v.play v.winners v.roundList.length ps).losers.map Group.name ↔ _
    by_cases playing : i ∈ S
    · obtain ⟨j, bound, rfl⟩ := List.getElem_of_mem playing
      have seated : S[j]? = some S[j] := List.getElem?_eq_getElem bound
      have inside : j < v.winners.length := by omega
      have real := not_added_of_origin same inside seated entered
      have called : nameAt v.winners j = some name := by
        have entry := congrArg Prod.fst (entryAt_origin same inside)
        rw [origin_of_getElem? seated] at entry
        exact entry.trans (nameAt_padded_of_getElem? here)
      rw [mem_map_origin distinct below seated, mem_standing version.seeding valid inside real, not_not, ← called]
      exact mem_losers_play version.seeding valid version.losersNew inside real
    · have lost := (refines.losers S (by
        rw [List.getLast?_eq_getElem?, length, Nat.add_sub_cancel, current]) i name here).mpr playing
      have gone : i ∉ (standing v.winners ps).map (origin S) := by
        intro member
        obtain ⟨j, left, rfl⟩ := List.mem_map.mp member
        apply playing
        rw [origin, List.getD_eq_getElem?_getD, List.getElem?_eq_getElem (below j left)]
        exact List.getElem_mem _
      exact iff_of_true (losers_kept valid version.losersNew lost) gone

/-! ### All rounds -/

/-- One round, and the seats left after it. -/
def eliminate (state : Tournament × List (List Nat)) (ps : List Pick) : Tournament × List (List Nat) :=
  (state.1.decideRound ps,
    state.2 ++ [(standing state.1.winners ps).map (origin (state.2.getLastD []))])

/-- The seats left before, between and after the rounds of `pss`. -/
def Registration.elimination (reg : Registration) (pss : List (List Pick)) : List (List Nat) :=
  (pss.foldl eliminate (reg.created, [List.range (2 ^ reg.rounds)])).2

theorem Registration.elimination_append (reg : Registration) (pss : List (List Pick)) (ps : List Pick) :
    reg.elimination (pss ++ [ps]) =
      reg.elimination pss ++
        [(standing (reg.after pss).winners ps).map (origin ((reg.elimination pss).getLastD []))] := by
  have behind : ∀ qss : List (List Pick),
      (qss.foldl eliminate (reg.created, [List.range (2 ^ reg.rounds)])).1 = reg.after qss := by
    intro qss
    induction qss using List.reverseRecOn with
    | nil => rfl
    | append_singleton qss qs ih =>
      rw [List.foldl_append, List.foldl_cons, List.foldl_nil, eliminate, ih, Registration.after_append]
  unfold elimination
  rw [List.foldl_append, List.foldl_cons, List.foldl_nil, eliminate, behind]

@[simp] theorem Registration.elimination_length (reg : Registration) (pss : List (List Pick)) :
    (reg.elimination pss).length = pss.length + 1 := by
  induction pss using List.reverseRecOn with
  | nil => rfl
  | append_singleton pss ps ih => rw [elimination_append, List.length_append, ih]; simp

theorem Registration.elimination_take (reg : Registration) (le : i ≤ pss.length) :
    reg.elimination (pss.take i) = (reg.elimination pss).take (i + 1) := by
  induction pss using List.reverseRecOn with
  | nil =>
    obtain rfl := Nat.le_zero.mp le
    rfl
  | append_singleton pss ps ih =>
    rw [List.length_append, List.length_singleton] at le
    rcases Nat.lt_or_eq_of_le le with earlier | rfl
    · rw [List.take_append_of_le_length (by omega), ih (by omega), elimination_append,
        List.take_append_of_le_length (by rw [elimination_length]; omega)]
    · rw [List.take_of_length_le (by simp), List.take_of_length_le (by simp)]

theorem Registration.elimination_current (reg : Registration) (pss : List (List Pick)) :
    (reg.elimination pss)[pss.length]? = some ((reg.elimination pss).getLastD []) := by
  have length := reg.elimination_length pss
  have bound : pss.length < (reg.elimination pss).length := by omega
  rw [List.getLastD_eq_getLast?, List.getLast?_eq_getElem?, length, Nat.add_sub_cancel,
    List.getElem?_eq_getElem bound, Option.getD_some]

theorem Decided.refines (decided : Decided reg pss) (clear : reg.Clear) :
    Refines reg (reg.after pss) (reg.elimination pss) := by
  induction pss using List.reverseRecOn with
  | nil => exact created_refines reg
  | append_singleton pss ps ih =>
    obtain ⟨before, unfinished, settles⟩ := decided_append.mp decided
    rw [Registration.elimination_append, Registration.after_append]
    exact (ih before).next (before.version clear) unfinished settles (reg.elimination_current pss)

end Tourni
