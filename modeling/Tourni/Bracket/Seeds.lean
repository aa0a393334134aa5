import Tourni.Bracket.Refinement

/-!
# The order of the seeds

The groups are seeded in the order they were entered, and a round pairs the best group that is left with the worst.
This holds as long as the lists stay in the order of the seeds, which a change of mind can break.
-/

namespace Tourni
open Mirror

/-- No group of the list has a higher seed than a later one. -/
def SeedOrder (L : List Group) : Prop := L.Pairwise fun g h => ∀ a ∈ g.seed, ∀ b ∈ h.seed, a ≤ b

/-- A round is confirmed with its changes of mind, if any, in the order of the list. -/
def ConfirmsInOrder (h : Host) : HostEvent → Prop
  | .confirm => ∀ L ∈ h.currentList, InOrder L h.picks
  | _ => True

instance (h : Host) : (e : HostEvent) → Decidable (ConfirmsInOrder h e)
  | .confirm => inferInstanceAs (Decidable (∀ L ∈ h.currentList, InOrder L h.picks))
  | .pick _ | .reopen => isTrue trivial

variable {reg : Registration} {L M : List Group} {S : List Nat} {bye : Nat → Prop} {ps : List Pick}
  {pss : List (List Pick)} {h h' : Host} {g g' : Group} {i j k : Nat} {v : Tournament} {e : HostEvent}

/-! ### The order within a list -/

theorem seedOrder_iff_entries :
    SeedOrder L ↔ (L.map Group.entry).Pairwise fun x y => ∀ a ∈ x.2, ∀ b ∈ y.2, a ≤ b := by
  rw [List.pairwise_map]
  rfl

/-- Entrants with the same seed are the same, and so are the byes. -/
theorem name_of_seed (left : reg.Contains g) (right : reg.Contains g') (same : g.seed = g'.seed) :
    g.name = g'.name := by
  obtain ⟨p, inP, sameP⟩ := List.mem_map.mp left
  obtain ⟨q, inQ, sameQ⟩ := List.mem_map.mp right
  obtain ⟨nameP, seedP⟩ := Group.entry_eq_iff.mp sameP
  obtain ⟨nameQ, seedQ⟩ := Group.entry_eq_iff.mp sameQ
  rw [← seedP, ← seedQ] at same
  rw [← nameP, ← nameQ]
  rcases Registration.mem_padded inP with ⟨i, hi, rfl⟩ | rfl <;>
    rcases Registration.mem_padded inQ with ⟨j, hj, rfl⟩ | rfl <;>
    simp only [Group.free, Option.some.injEq] at same ⊢
  · obtain rfl : i = j := by omega
    rfl
  · omega
  · omega

theorem inOrder_congr (length : L.length = M.length) : InOrder L ps ↔ InOrder M ps := by
  unfold InOrder chosen
  rw [length]

/-- The next list is in the order of the seeds exactly when the changes of mind are in the order of the list. -/
theorem seedOrder_standing_iff (seeding : Seeding L bye) (valid : ∀ p ∈ ps, p.Valid L bye)
    (covers : Covers ps L.length) (contained : ∀ g ∈ L, reg.Contains g) (ordered : SeedOrder L)
    (same : M.map Group.entry = (standing L ps).map (entryAt L)) : SeedOrder M ↔ InOrder L ps := by
  have entry : ∀ {i}, (bound : i < L.length) → entryAt L i = L[i].entry := fun bound =>
    entryAt_of_getElem? (List.getElem?_eq_getElem bound)
  have inList : ∀ {i j}, i < j → j < L.length →
      ∀ a ∈ (entryAt L i).2, ∀ b ∈ (entryAt L j).2, a ≤ b := by
    intro i j less bound
    rw [entry bound, entry (less.trans bound)]
    exact List.pairwise_iff_getElem.mp ordered i j (less.trans bound) bound less
  rw [seedOrder_iff_entries, same, List.pairwise_map, ← standing_eq_chosen_iff seeding valid covers]
  constructor
  · intro sorted
    have increasing : (standing L ps).Pairwise (· < ·) := by
      apply (sorted.and (standing_nodup seeding valid)).imp_of_mem
      rintro i j left right ⟨le, differ⟩
      have hi := standing_lt valid left
      have hj := standing_lt valid right
      by_contra notLess
      have less : j < i := by omega
      have back := inList less hi
      -- Both seeds are there, so they are equal, and the two groups are one.
      obtain ⟨a, seedI⟩ := Option.isSome_iff_exists.mp (contained _ (List.getElem_mem hi)).named.2
      obtain ⟨b, seedJ⟩ := Option.isSome_iff_exists.mp (contained _ (List.getElem_mem hj)).named.2
      rw [entry hi, entry hj] at le back
      have equal : a = b := le_antisymm (le a seedI b seedJ) (back b seedJ a seedI)
      have names := name_of_seed (contained _ (List.getElem_mem hi)) (contained _ (List.getElem_mem hj))
        (seedI.trans (equal ▸ seedJ.symm))
      apply differ
      apply seeding.eq_of_name hi hj (not_bye_of_standing seeding valid covers left)
      rw [nameAt_of_getElem? (List.getElem?_eq_getElem hi), nameAt_of_getElem? (List.getElem?_eq_getElem hj), names]
    exact (standing_perm_chosen seeding valid covers).eq_of_pairwise
      (fun i j _ _ less greater => absurd less (by omega)) increasing (chosen_sorted L ps)
  · intro equal
    rw [equal]
    apply (chosen_sorted L ps).imp_of_mem
    intro i j _ right less
    exact inList less (mem_chosen.mp right).1

/-! ### The order of every list -/

/-- All round lists are in the order of the seeds. -/
def InSeedOrder (t : Tournament) : Prop := ∀ L ∈ t.roundList, SeedOrder L

theorem decideRound_entries (v : Tournament) (ps : List Pick) :
    (v.decideRound ps).roundList.map (·.map Group.entry) =
      v.roundList.map (·.map Group.entry) ++ [(standing v.winners ps).map (entryAt v.winners)] := by
  have left : (v.play v.winners v.roundList.length ps).winners.map Group.entry =
      (standing v.winners ps).map (entryAt v.winners) := play_winners rfl
  show ((v.play v.winners v.roundList.length ps).roundList ++
    [(v.play v.winners v.roundList.length ps).winners]).map (·.map Group.entry) = _
  rw [play_roundList, List.map_append, entries_modify, List.map_singleton, left]

theorem inSeedOrder_iff_entries {t : Tournament} : InSeedOrder t ↔
    ∀ es ∈ t.roundList.map (·.map Group.entry), es.Pairwise fun x y => ∀ a ∈ x.2, ∀ b ∈ y.2, a ≤ b := by
  simp only [InSeedOrder, seedOrder_iff_entries, List.forall_mem_map]

theorem inSeedOrder_decideRound_iff (version : Version reg k v) (settles : Settles reg v ps) :
    InSeedOrder (v.decideRound ps) ↔ InSeedOrder v ∧ InOrder v.winners ps := by
  have left : (v.play v.winners v.roundList.length ps).winners.map Group.entry =
      (standing v.winners ps).map (entryAt v.winners) := play_winners rfl
  have split : InSeedOrder (v.decideRound ps) ↔
      InSeedOrder v ∧ SeedOrder (v.play v.winners v.roundList.length ps).winners := by
    rw [inSeedOrder_iff_entries, inSeedOrder_iff_entries, decideRound_entries, seedOrder_iff_entries, left]
    simp only [List.mem_append, List.mem_singleton, or_imp, forall_and, forall_eq]
  rw [split]
  refine and_congr_right fun ordered => ?_
  have current := ordered _ (List.mem_of_getElem? version.current)
  exact seedOrder_standing_iff version.seeding settles.1 settles.2 version.sourced.winners current left

/-- The lists of every document that is stored are in the order of the seeds. -/
def StoredInSeedOrder (reg : Registration) (docs : List Document) : Prop :=
  ∀ document ∈ docs, ∃ t, Tournament.getTournament reg.gameCode document = some t ∧ InSeedOrder t

/-- The last version has the lists of all the versions before it. -/
theorem inSeedOrder_take (decided : Decided reg pss) (clear : reg.Clear) (ordered : InSeedOrder (reg.after pss))
    {i : Nat} (le : i ≤ pss.length) : InSeedOrder (reg.after (pss.take i)) := by
  have whole := (decided.refines clear).roundList
  have part := ((decided.take i).refines clear).roundList
  rw [inSeedOrder_iff_entries] at ordered ⊢
  rw [reg.elimination_take le, List.map_take, ← whole] at part
  intro es member
  rw [part] at member
  exact ordered es (List.mem_of_mem_take member)

theorem Scored.storedInSeedOrder_iff (scored : Scored reg h pss) (clear : reg.Clear) :
    StoredInSeedOrder reg h.stored ↔ InSeedOrder (reg.after pss) := by
  have length := scored.written.length
  constructor
  · intro ordered
    have last : h.stored[pss.length]? = some h.stored[pss.length] := List.getElem?_eq_getElem (by omega)
    obtain ⟨t, loaded, inOrder⟩ := ordered _ (List.mem_of_getElem? last)
    have whole := scored.written.load _ _ last
    rw [List.take_length] at whole
    obtain rfl := Option.some.inj (loaded.symm.trans whole)
    exact inOrder
  · intro ordered document stored
    obtain ⟨i, le, loaded, -⟩ := scored.decided_of_mem stored
    exact ⟨_, loaded, inSeedOrder_take scored.decided clear ordered le⟩

theorem Playing.confirmsInOrder_iff (playing : Playing reg h k v) (unfinished : k < reg.rounds) :
    ConfirmsInOrder h .confirm ↔ InOrder v.winners h.picks := by
  show (∀ L ∈ h.currentList, InOrder L h.picks) ↔ _
  rw [playing.currentList unfinished]
  simp only [Option.mem_def, Option.some.injEq, forall_eq']
  exact inOrder_congr (List.length_map _)

theorem created_inSeedOrder (reg : Registration) : InSeedOrder reg.created := by
  intro L member
  rw [reg.created_eq] at member
  obtain rfl := List.mem_singleton.mp member
  have seed : ∀ (i : Nat) (g : Group), reg.padded[i]? = some g →
      g.seed = some ((min i reg.names.length : Nat) + 1 : Int) := by
    intro i g here
    have bound := (List.getElem?_eq_some_iff.mp here).1
    rw [reg.padded_length] at bound
    rcases Nat.lt_or_ge i reg.names.length with entered | free
    · rw [Registration.padded_entered entered] at here
      rw [← Option.some.inj here, Nat.min_eq_left entered.le]
    · rw [Registration.padded_free free bound] at here
      rw [← Option.some.inj here, Nat.min_eq_right free]
      rfl
  refine List.pairwise_iff_getElem.mpr fun i j hi hj less a seedA b seedB => ?_
  have left := seed i _ (List.getElem?_eq_getElem hi)
  have right := seed j _ (List.getElem?_eq_getElem hj)
  rw [Option.mem_def, left, Option.some.injEq] at seedA
  rw [Option.mem_def, right, Option.some.injEq] at seedB
  omega

/-- Rounds confirmed in order leave the seats in order. -/
theorem elimination_sublist (decided : Decided reg pss) (clear : reg.Clear)
    (each : EachRound reg (fun v ps => InOrder v.winners ps) pss) {S : List Nat}
    (member : S ∈ reg.elimination pss) : S.Sublist (List.range (2 ^ reg.rounds)) := by
  induction pss using List.reverseRecOn generalizing S with
  | nil =>
    obtain rfl := List.mem_singleton.mp member
    exact List.Sublist.refl _
  | append_singleton pss ps ih =>
    obtain ⟨before, unfinished, valid, covers⟩ := decided_append.mp decided
    obtain ⟨earlier, inOrder⟩ := eachRound_append.mp each
    rw [Registration.elimination_append] at member
    rcases List.mem_append.mp member with old | new
    · exact ih before earlier old
    · obtain rfl := List.mem_singleton.mp new
      have version := before.version clear
      have current := reg.elimination_current pss
      obtain ⟨L, listed, entries⟩ := (before.refines clear).list current
      rw [version.current] at listed
      obtain rfl := Option.some.inj listed
      have size : (reg.after pss).winners.length = ((reg.elimination pss).getLastD []).length := by
        simpa using congrArg List.length entries
      have kept : (standing (reg.after pss).winners ps).Sublist (List.range (reg.after pss).winners.length) := by
        rw [(standing_eq_chosen_iff version.seeding valid covers).mpr inOrder]
        exact List.filter_sublist
      have seats := kept.map (origin ((reg.elimination pss).getLastD []))
      rw [size, map_origin_range] at seats
      exact seats.trans (ih before earlier (List.mem_of_getElem? current))

/-- A group with one of the best seeds of the first half is on a seat of the first half. -/
theorem Refines.seat_lt {t : Tournament} {seats : List (List Nat)} (refines : Refines reg t seats) {n : Nat}
    (here : seats[i]? = some S) (listed : t.roundList[i]? = some L) (place : L[j]? = some g) {a : Int}
    (seed : g.seed = some a) (half : 2 * n ≤ 2 ^ reg.rounds) (good : a ≤ n) : ∃ x < n, S[j]? = some x := by
  obtain ⟨M, same, entries⟩ := refines.list here
  obtain rfl := Option.some.inj (listed.symm.trans same)
  have length : L.length = S.length := by simpa using congrArg List.length entries
  have bound := (List.getElem?_eq_some_iff.mp place).1
  have seated : S[j]? = some S[j] := List.getElem?_eq_getElem (by omega)
  have below := refines.lt here (List.mem_of_getElem? seated)
  have entry := congrArg Prod.snd (entryAt_origin entries bound)
  rw [origin_of_getElem? seated, entryAt_of_getElem? place, Group.entry_snd, seed] at entry
  have most := reg.pow_lt
  refine ⟨S[j], ?_, seated⟩
  rcases Nat.lt_or_ge S[j] reg.names.length with entered | free
  · rw [entryAt_of_getElem? (Registration.padded_entered entered)] at entry
    simp only [Group.entry_snd, Option.some.injEq] at entry
    omega
  · rw [entryAt_of_getElem? (Registration.padded_free free below)] at entry
    simp only [Group.entry_snd, Group.free, Option.some.injEq] at entry
    omega

/-- The groups of the best seeds do not meet before the others are out: in a list of `m` groups no two of the
seeds `1, ..., m / 2` are in one row. -/
def BestApart (L : List Group) : Prop :=
  ∀ r < L.length / 2, ∀ g g', L[r]? = some g → L[L.length - 1 - r]? = some g' →
    ∀ a ∈ g.seed, ∀ b ∈ g'.seed, ¬ (2 * a ≤ L.length ∧ 2 * b ≤ L.length)

theorem Refines.bestApart {t : Tournament} {seats : List (List Nat)} (refines : Refines reg t seats)
    (here : seats[i]? = some S) (listed : t.roundList[i]? = some L)
    (sublist : S.Sublist (List.range (2 ^ reg.rounds))) : BestApart L := by
  intro r inside g g' first second a seedA b seedB ⟨goodA, goodB⟩
  obtain ⟨M, same, entries⟩ := refines.list here
  obtain rfl := Option.some.inj (listed.symm.trans same)
  have length : L.length = S.length := by simpa using congrArg List.length entries
  have short := sublist.length_le
  rw [List.length_range] at short
  obtain ⟨x, smallX, seatX⟩ := refines.seat_lt (n := L.length / 2) here listed first seedA (by omega) (by omega)
  obtain ⟨y, smallY, seatY⟩ := refines.seat_lt (n := L.length / 2) here listed second seedB (by omega) (by omega)
  have early : ∀ z < L.length / 2, z ∈ (List.range (2 ^ reg.rounds)).take (L.length / 2) := by
    intro z small
    rw [List.take_range, List.mem_range]
    omega
  rw [length] at inside seatY
  have opposite : Elimination.Opposite S x y := ⟨r, inside, .first, seatX, seatY⟩
  exact Elimination.protected_of_sublist sublist List.nodup_range (by omega) opposite (early x smallX)
    (early y smallY)

/-- A pick is for the first group of its row. -/
def PicksFirst : HostEvent → Prop
  | .pick p => p.side = .first
  | _ => True

instance : DecidablePred PicksFirst
  | .pick p => inferInstanceAs (Decidable (p.side = .first))
  | .confirm | .reopen => isTrue trivial

theorem lastChange_of_side {s : Side} {r : Nat} (same : ∀ p ∈ ps, p.side = s) : lastChange ps r = 0 := by
  induction ps using List.reverseRecOn with
  | nil => rfl
  | append_singleton ps p ih =>
    have earlier : ∀ q ∈ ps, q.side = s := fun q member => same q (by simp [member])
    rw [lastChange_append, if_neg, ih earlier]
    rintro ⟨-, against⟩
    have picked : (lastPick ps r).isSome := by rw [against]; rfl
    obtain ⟨q, member, -, last⟩ := exists_lastPick picked
    rw [last, earlier q member, same p (by simp)] at against
    exact Side.other_ne s (Option.some.inj against).symm

/-- When all picks are for the first group, the first half of the list is left, in order. -/
theorem standing_first (seeding : Seeding L bye) (valid : ∀ p ∈ ps, p.Valid L bye) (covers : Covers ps L.length)
    (even : 2 ∣ L.length) (same : ∀ p ∈ ps, p.side = .first) : standing L ps = List.range (L.length / 2) := by
  have inOrder : InOrder L ps := List.pairwise_of_forall fun i j => by
    rw [lastChange_of_side same, lastChange_of_side same]
  rw [(standing_eq_chosen_iff seeding valid covers).mpr inOrder]
  have members : ∀ i, i ∈ chosen L ps ↔ i ∈ List.range (L.length / 2) := by
    intro i
    rw [mem_chosen, List.mem_range]
    constructor
    · rintro ⟨bound, notAgainst⟩
      obtain ⟨p, member, -, last⟩ := exists_lastPick (covers _ (row_lt_of_even bound even))
      rw [last, same p member] at notAgainst
      by_contra second
      exact notAgainst (by rw [side, if_neg second]; rfl)
    · intro early
      have bound : i < L.length := by omega
      obtain ⟨p, member, -, last⟩ := exists_lastPick (covers _ (row_lt_of_even bound even))
      rw [last, same p member, side, if_pos early]
      exact ⟨bound, by decide⟩
  have perm := (List.perm_ext_iff_of_nodup (chosen_nodup L ps) List.nodup_range).mpr members
  exact perm.eq_of_pairwise (fun i j _ _ less greater => absurd less (by omega)) (chosen_sorted L ps)
    List.pairwise_lt_range

theorem elimination_first (decided : Decided reg pss) (clear : reg.Clear)
    (each : EachRound reg (fun _ ps => ∀ p ∈ ps, p.side = .first) pss)
    (here : (reg.elimination pss)[i]? = some S) : S = List.range (2 ^ (reg.rounds - i)) := by
  induction pss using List.reverseRecOn generalizing i S with
  | nil =>
    have bound : i < 1 := (List.getElem?_eq_some_iff.mp here).1
    obtain rfl : i = 0 := by omega
    exact (Option.some.inj here).symm
  | append_singleton pss ps ih =>
    obtain ⟨before, unfinished, valid, covers⟩ := decided_append.mp decided
    obtain ⟨earlier, first⟩ := eachRound_append.mp each
    have length := reg.elimination_length pss
    have bound := (List.getElem?_eq_some_iff.mp here).1
    rw [reg.elimination_length, List.length_append, List.length_singleton] at bound
    rw [Registration.elimination_append] at here
    rcases Nat.lt_or_ge i (pss.length + 1) with old | last
    · rw [List.getElem?_append_left (by omega)] at here
      exact ih before earlier here
    · obtain rfl : i = pss.length + 1 := by omega
      rw [← length, List.getElem?_concat_length] at here
      have version := before.version clear
      have current := ih before earlier (reg.elimination_current pss)
      rw [← Option.some.inj here, standing_first version.seeding valid covers (version.even unfinished) first, current,
        version.winners_length, half_pow_sub unfinished, Nat.sub_sub, Nat.add_comm 1]
      -- Every seat left so far is the one it was in the created list.
      have small : 2 ^ (reg.rounds - (pss.length + 1)) ≤ 2 ^ (reg.rounds - pss.length) :=
        Nat.pow_le_pow_right (by decide) (by omega)
      refine (List.map_congr_left fun x inside => ?_).trans (List.map_id' _)
      rw [List.mem_range] at inside
      rw [origin, List.getD_eq_getElem?_getD, List.getElem?_range (by omega)]
      rfl

/-- "A" and "B" win the first round, and "A" the final. -/
def threeFavourites : List HostEvent :=
  [.pick ⟨0, .first, false, false⟩, .pick ⟨1, .first, false, false⟩, .confirm, .pick ⟨0, .first, false, false⟩,
    .confirm]

end Tourni
