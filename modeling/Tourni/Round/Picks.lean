import Tourni.Lib.Mirror
import Tourni.Lib.Roster
import Tourni.Model.BracketController

/-!
# The picks of a round

A pick is a call of `updateWinner` on the two groups of one row of a round list; the groups are copies whose
status may differ from the list's. `standing` is the list of seats whose groups are left in `winners`, in
the order of `winners`.
-/

namespace Tourni
open Mirror

structure Pick where
  row : Nat
  side : Side
  winnerStatus : Bool := false
  loserStatus : Bool := false
  deriving DecidableEq, Repr

/-- Who sits on seat `i` of a round list. -/
def entryAt (L : List Group) (i : Nat) : Option String × Option Int := (L.getD i {}).entry

def nameAt (L : List Group) (i : Nat) : Option String := (L.getD i {}).name

theorem map_entryAt_range (L : List Group) : (List.range L.length).map (entryAt L) = L.map Group.entry := by
  apply List.ext_getElem
  · simp
  · intro i _ bound
    have inside : i < L.length := by simpa using bound
    simp [entryAt, List.getD_eq_getElem?_getD, inside]

theorem nameAt_of_getElem? {L : List Group} {i : Nat} {g : Group} (h : L[i]? = some g) :
    nameAt L i = g.name := by
  simp [nameAt, List.getD_eq_getElem?_getD, h]

theorem entryAt_of_getElem? {L : List Group} {i : Nat} {g : Group} (h : L[i]? = some g) :
    entryAt L i = g.entry := by
  simp [entryAt, List.getD_eq_getElem?_getD, h]

theorem entryAt_congr {L M : List Group} (same : M.map Group.entry = L.map Group.entry) :
    entryAt M = entryAt L := by
  funext i
  have here := congrArg (fun entries => entries[i]?) same
  simp only [List.getElem?_map] at here
  simp only [entryAt, List.getD_eq_getElem?_getD]
  cases left : M[i]? with
  | none =>
    rw [left, Option.map_none] at here
    rw [Option.map_eq_none_iff.mp here.symm]
  | some g =>
    rw [left, Option.map_some] at here
    obtain ⟨q, right, entry⟩ := Option.map_eq_some_iff.mp here.symm
    rw [right, Option.getD_some, Option.getD_some, entry]

namespace Pick

def winnerSeat (p : Pick) (n : Nat) : Nat := seat n p.row p.side

def loserSeat (p : Pick) (n : Nat) : Nat := seat n p.row p.side.other

def winner (p : Pick) (L : List Group) : Group :=
  (L.getD (p.winnerSeat L.length) {}).setStatus p.winnerStatus

def loser (p : Pick) (L : List Group) : Group :=
  (L.getD (p.loserSeat L.length) {}).setStatus p.loserStatus

@[simp] theorem winner_entry (p : Pick) (L : List Group) :
    (p.winner L).entry = entryAt L (p.winnerSeat L.length) := rfl

@[simp] theorem winner_name (p : Pick) (L : List Group) :
    (p.winner L).name = nameAt L (p.winnerSeat L.length) := rfl

@[simp] theorem loser_entry (p : Pick) (L : List Group) :
    (p.loser L).entry = entryAt L (p.loserSeat L.length) := rfl

@[simp] theorem loser_name (p : Pick) (L : List Group) :
    (p.loser L).name = nameAt L (p.loserSeat L.length) := rfl

theorem setStatus_congr {g h : Group} (same : g.entry = h.entry) (b : Bool) :
    g.setStatus b = h.setStatus b := by
  obtain ⟨name, seed⟩ := Group.entry_eq_iff.mp same
  rw [Group.setStatus, Group.setStatus, name, seed]

theorem winner_congr {L M : List Group} (same : M.map Group.entry = L.map Group.entry) (p : Pick) :
    p.winner M = p.winner L := by
  have length : M.length = L.length := by simpa using congrArg List.length same
  unfold winner
  rw [length]
  exact setStatus_congr (congrFun (entryAt_congr same) _) _

theorem loser_congr {L M : List Group} (same : M.map Group.entry = L.map Group.entry) (p : Pick) :
    p.loser M = p.loser L := by
  have length : M.length = L.length := by simpa using congrArg List.length same
  unfold loser
  rw [length]
  exact setStatus_congr (congrFun (entryAt_congr same) _) _

/-- The pick is on a row of the round and its winner is no added bye. -/
def Valid (L : List Group) (bye : Nat → Prop) (p : Pick) : Prop :=
  p.row < L.length / 2 ∧ ¬ bye (p.winnerSeat L.length)

instance (L : List Group) (bye : Nat → Prop) [DecidablePred bye] (p : Pick) :
    Decidable (p.Valid L bye) := inferInstanceAs (Decidable (_ ∧ _))

end Pick

/-- The names of a round list are distinct apart from the byes, which are called "FREE" and sit second in
their rows, opposite a group that is no bye. -/
structure Seeding (L : List Group) (bye : Nat → Prop) : Prop where
  free : ∀ i < L.length, bye i → nameAt L i = some "FREE"
  distinct : ∀ i < L.length, ∀ j < L.length, nameAt L i = nameAt L j → i = j ∨ (bye i ∧ bye j)
  second : ∀ i < L.length, bye i → L.length / 2 ≤ i ∧ ¬ bye (L.length - 1 - i)

/-! ### Histories of picks -/

/-- The side picked last in row `r`, in a history with the latest pick first. -/
def latest : List Pick → Nat → Option Side
  | [], _ => none
  | p :: earlier, r => if p.row = r then some p.side else latest earlier r

/-- When row `r` last changed from one side to the other; zero if it never did. -/
def latestChange : List Pick → Nat → Nat
  | [], _ => 0
  | p :: earlier, r =>
    if p.row = r ∧ latest earlier r = some p.side.other then earlier.length + 1 else latestChange earlier r

def lastPick (ps : List Pick) (r : Nat) : Option Side := latest ps.reverse r

def lastChange (ps : List Pick) (r : Nat) : Nat := latestChange ps.reverse r

@[simp] theorem lastPick_nil (r : Nat) : lastPick [] r = none := rfl

@[simp] theorem lastChange_nil (r : Nat) : lastChange [] r = 0 := rfl

theorem lastPick_append (ps : List Pick) (p : Pick) (r : Nat) :
    lastPick (ps ++ [p]) r = if p.row = r then some p.side else lastPick ps r := by
  simp [lastPick, latest]

theorem lastChange_append (ps : List Pick) (p : Pick) (r : Nat) :
    lastChange (ps ++ [p]) r =
      if p.row = r ∧ lastPick ps r = some p.side.other then ps.length + 1 else lastChange ps r := by
  simp only [lastChange, lastPick, List.reverse_append, List.reverse_singleton, List.singleton_append,
    latestChange, List.length_reverse]
  exact if_congr Iff.rfl rfl rfl

theorem lastChange_le (ps : List Pick) (r : Nat) : lastChange ps r ≤ ps.length := by
  induction ps using List.reverseRecOn with
  | nil => exact Nat.le_refl _
  | append_singleton ps p ih =>
    rw [lastChange_append, List.length_append, List.length_singleton]
    split <;> omega

theorem lastPick_isSome_iff {ps : List Pick} {r : Nat} :
    (lastPick ps r).isSome ↔ ∃ p ∈ ps, p.row = r := by
  induction ps using List.reverseRecOn with
  | nil => simp
  | append_singleton ps p ih =>
    rw [lastPick_append]
    split
    · rename_i same
      simpa using Or.inr same
    · rename_i other
      simp [ih, other]

/-! ### Seats left -/

/-- What one pick does to the list of seats left. -/
def stand (L : List Group) (seats : List Nat) (p : Pick) : List Nat :=
  Roster.enroll (nameAt L) (p.winnerSeat L.length)
    (Roster.expel (nameAt L) (nameAt L (p.loserSeat L.length)) seats)

/-- The seats left in `winners` after the picks. -/
def standing (L : List Group) (ps : List Pick) : List Nat :=
  ps.foldl (stand L) (List.range L.length)

theorem standing_append (L : List Group) (ps : List Pick) (p : Pick) :
    standing L (ps ++ [p]) = stand L (standing L ps) p := by
  simp [standing]

variable {L : List Group} {bye : Nat → Prop} {ps : List Pick} {p : Pick} {i j : Nat}

theorem Pick.Valid.winnerSeat_lt (valid : p.Valid L bye) : p.winnerSeat L.length < L.length :=
  seat_lt valid.1 _

theorem Pick.Valid.loserSeat_lt (valid : p.Valid L bye) : p.loserSeat L.length < L.length :=
  seat_lt valid.1 _

theorem Pick.Valid.seats_ne (valid : p.Valid L bye) : p.winnerSeat L.length ≠ p.loserSeat L.length :=
  seat_ne_seat_other valid.1 _

theorem Seeding.eq_of_name (seeding : Seeding L bye) (hi : i < L.length) (hj : j < L.length)
    (real : ¬ bye i) (same : nameAt L i = nameAt L j) : i = j := by
  rcases seeding.distinct i hi j hj same with equal | ⟨isBye, _⟩
  · exact equal
  · exact absurd isBye real

theorem Seeding.names_ne (seeding : Seeding L bye) (valid : p.Valid L bye) :
    nameAt L (p.winnerSeat L.length) ≠ nameAt L (p.loserSeat L.length) := fun same =>
  valid.seats_ne (seeding.eq_of_name valid.winnerSeat_lt valid.loserSeat_lt valid.2 same)

theorem Seeding.not_bye_first (seeding : Seeding L bye) (h : i < L.length / 2) : ¬ bye i := fun isBye => by
  have := (seeding.second i (by omega) isBye).1
  omega

theorem standing_lt (valid : ∀ p ∈ ps, p.Valid L bye) (member : i ∈ standing L ps) : i < L.length := by
  induction ps using List.reverseRecOn with
  | nil => exact List.mem_range.mp member
  | append_singleton ps p ih =>
    rw [standing_append] at member
    rcases Roster.mem_of_mem_enroll member with rfl | old
    · exact (valid p (by simp)).winnerSeat_lt
    · exact ih (fun q hq => valid q (by simp [hq])) (Roster.mem_expel.mp old).1

theorem mem_standing_append (seeding : Seeding L bye) (before : ∀ q ∈ ps, q.Valid L bye)
    (valid : p.Valid L bye) :
    i ∈ standing L (ps ++ [p]) ↔ i = p.winnerSeat L.length ∨
      (i ∈ standing L ps ∧ nameAt L i ≠ nameAt L (p.loserSeat L.length)) := by
  rw [standing_append, stand, Roster.mem_enroll_of_unique, Roster.mem_expel]
  intro j member same
  have bound := standing_lt before (Roster.mem_expel.mp member).1
  exact (seeding.eq_of_name valid.winnerSeat_lt bound valid.2 same.symm).symm

/-- A seat that is no bye is left unless the last pick of its row went against it. -/
theorem mem_standing (seeding : Seeding L bye) (valid : ∀ p ∈ ps, p.Valid L bye) (bound : i < L.length)
    (real : ¬ bye i) :
    i ∈ standing L ps ↔ lastPick ps (row L.length i) ≠ some (side L.length i).other := by
  induction ps using List.reverseRecOn with
  | nil => simp [standing, bound]
  | append_singleton ps p ih =>
    have before : ∀ q ∈ ps, q.Valid L bye := fun q hq => valid q (by simp [hq])
    have now := valid p (by simp)
    have winner : i = p.winnerSeat L.length ↔ row L.length i = p.row ∧ side L.length i = p.side :=
      seat_eq_iff now.1 bound _
    have loser : nameAt L i = nameAt L (p.loserSeat L.length) ↔
        row L.length i = p.row ∧ side L.length i = p.side.other := by
      rw [← seat_eq_iff now.1 bound]
      exact ⟨seeding.eq_of_name bound now.loserSeat_lt real, fun same => congrArg (nameAt L) same⟩
    rw [mem_standing_append seeding before now, ih before, winner, lastPick_append]
    simp only [ne_eq, loser]
    by_cases same : p.row = row L.length i
    · rw [if_pos same]
      cases side L.length i <;> cases p.side <;> simp [same, Side.other]
    · simp [same, Ne.symm same]

/-- The byes are left until the first pick against one of them. -/
theorem mem_standing_bye (seeding : Seeding L bye) (valid : ∀ p ∈ ps, p.Valid L bye) (bound : i < L.length)
    (isBye : bye i) : i ∈ standing L ps ↔ ∀ p ∈ ps, ¬ bye (p.loserSeat L.length) := by
  induction ps using List.reverseRecOn with
  | nil => simp [standing, bound]
  | append_singleton ps p ih =>
    have before : ∀ q ∈ ps, q.Valid L bye := fun q hq => valid q (by simp [hq])
    have now := valid p (by simp)
    have notWinner : i ≠ p.winnerSeat L.length := fun same => now.2 (same ▸ isBye)
    have name : nameAt L i ≠ nameAt L (p.loserSeat L.length) ↔ ¬ bye (p.loserSeat L.length) := by
      refine not_congr ⟨fun same => ?_, fun alsoBye => ?_⟩
      · rcases seeding.distinct i bound _ now.loserSeat_lt same with equal | both
        · exact equal ▸ isBye
        · exact both.2
      · rw [seeding.free i bound isBye, seeding.free _ now.loserSeat_lt alsoBye]
    rw [mem_standing_append seeding before now, ih before, name]
    simp [notWinner, or_imp, forall_and]

end Tourni
