import Tourni.Bracket.Versions
import Tourni.Model.Screen

/-!
# Incremental updates

A history of documents is delivered to one open controller, perhaps with some versions skipped. The controller
keeps up with a fresh one exactly when none is.
-/

namespace Tourni

/-- The snapshot closure, given the document that Firestore delivers. -/
def BracketController.deliver (c : BracketController) (document : Document) : Option BracketController := do
  let t ← Tournament.getTournament c.gameCode document
  c.snapshot t

structure View where
  currRound : Nat
  roundMatches : List Nat
  bracketViewArr : Nat
  numberOfRows : List (Option Nat)
  bracketViewGroupDict : List (Option (List Group))
  deriving DecidableEq

def BracketController.view (c : BracketController) : View :=
  { currRound := c.currRound
    roundMatches := c.roundMatches
    bracketViewArr := c.bracketViewArr.length
    numberOfRows := c.bracketViewArr.map c.numberOfRows
    bracketViewGroupDict := c.bracketViewArr.map c.bracketViewGroupDict }

/-- The documents of a tournament: the first is written by `generate`, and each next one by `nextRound`, with
half the winners of the one before it. -/
structure History (reg : Registration) (document : Nat → Document) : Prop where
  first : reg.created.store = some (reg.gameCode, document 0)
  next : ∀ k < reg.rounds, ∃ v t : Tournament, Tournament.getTournament reg.gameCode (document k) = some v ∧
    t.groups = v.groups ∧ t.roundList.length = v.roundList.length ∧
    2 * t.winners.length = v.winners.length ∧
    t.nextRound.store = some (reg.gameCode, document (k + 1))
  loads : ∀ k ≤ reg.rounds, (Tournament.getTournament reg.gameCode (document k)).isSome

/-- Delivering a document to `c` traps nowhere, and leaves what it leaves of a fresh controller. -/
def AgreesWithFresh (reg : Registration) (host : Bool) (document : Nat → Document) (c : BracketController)
    (k : Nat) : Prop :=
  ∃ d fresh v, c.deliver (document k) = some d ∧
    ({ gameCode := reg.gameCode, host } : BracketController).deliver (document k) = some fresh ∧
    Tournament.getTournament reg.gameCode (document k) = some v ∧
    d.view = fresh.view ∧ ∀ i < d.bracketViewArr.length, d.bracketViewGroupDict ⟨i⟩ = v.roundList[i]?

variable {reg : Registration} {host : Bool} {document : Nat → Document} {c d : BracketController} {k m : Nat}

theorem Registration.created_sized (reg : Registration) : Sized reg.rounds 0 reg.created := by
  refine ⟨reg.rounds_pos, Nat.zero_le _, ?_, ?_, ?_⟩ <;> rw [reg.created_eq]
  · exact reg.padded_length
  · exact reg.padded_length
  · exact Nat.one_pos

theorem History.version (history : History reg document) (h : k ≤ reg.rounds) :
    ∃ v, Tournament.getTournament reg.gameCode (document k) = some v ∧ Sized reg.rounds k v := by
  obtain ⟨v, loaded⟩ := Option.isSome_iff_exists.mp (history.loads k h)
  refine ⟨v, loaded, ?_⟩
  induction k generalizing v with
  | zero =>
    obtain rfl := loaded_eq history.first loaded
    exact reg.created_sized
  | succ k ih =>
    obtain ⟨before, t, loadedBefore, groups, lists, winners, stored⟩ := history.next k h
    obtain ⟨positive, -, sizeGroups, sizeWinners, sizeLists⟩ := ih (by omega) before loadedBefore
    obtain rfl := loaded_eq stored loaded
    refine ⟨positive, h, ?_, ?_, ?_⟩
    · show t.groups.length = _
      rw [groups, sizeGroups]
    · show t.winners.length = _
      have double := two_mul_pow_sub h
      omega
    · show k + 1 < (t.roundList ++ [t.winners]).length
      rw [List.length_append, List.length_singleton, lists]
      omega

theorem BracketController.Loaded.view_eq {c d : BracketController} {R : Nat} {v : Tournament}
    (left : c.Loaded R k v) (right : d.Loaded R k v) : c.view = d.view := by
  have rows : ∀ table ∈ tables (shownRounds R k), c.numberOfRows table = d.numberOfRows table := by
    intro table member
    obtain ⟨i, below, rfl⟩ := List.mem_map.mp member
    rw [left.rows i (List.mem_range.mp below), right.rows i (List.mem_range.mp below)]
  have shown : ∀ table ∈ tables (shownRounds R k),
      c.bracketViewGroupDict table = d.bracketViewGroupDict table := by
    intro table member
    obtain ⟨i, below, rfl⟩ := List.mem_map.mp member
    rw [left.shown i (List.mem_range.mp below), right.shown i (List.mem_range.mp below)]
  unfold view
  rw [left.currRound, right.currRound, left.roundMatches, right.roundMatches, left.arr, right.arr,
    List.map_congr_left rows, List.map_congr_left shown]

theorem AgreesWithFresh.of_loaded {v : Tournament} (sized : Sized reg.rounds k v)
    (loaded : Tournament.getTournament reg.gameCode (document k) = some v)
    (delivered : c.deliver (document k) = some d) (after : d.Loaded reg.rounds k v) :
    AgreesWithFresh reg host document c k := by
  let empty : BracketController := { gameCode := reg.gameCode, host }
  obtain ⟨fresh, first, freshLoaded, -⟩ := BracketController.snapshot_fresh (c := empty) sized rfl rfl
  refine ⟨d, fresh, v, delivered, ?_, loaded, after.view_eq freshLoaded, ?_⟩
  · show (Tournament.getTournament reg.gameCode (document k)).bind empty.snapshot = _
    rw [loaded, Option.bind_some, first]
  · intro i below
    rw [after.arr, tables_length] at below
    exact after.shown i below

theorem deliver_eq {v : Tournament} {written : Document} (code : c.gameCode = reg.gameCode)
    (loaded : Tournament.getTournament reg.gameCode written = some v) : c.deliver written = c.snapshot v := by
  unfold BracketController.deliver
  rw [code, loaded]
  rfl

theorem agrees_iff_isChain (history : History reg document) {ks : List Nat}
    (bounded : ∀ k ∈ ks, k ≤ reg.rounds) (increasing : (m :: ks).Pairwise (· < ·))
    (code : c.gameCode = reg.gameCode) (placed : c.Placed reg.rounds m) :
    Transition.Meets (fun c k => c.deliver (document k)) (AgreesWithFresh reg host document) c ks ↔
      (m :: ks).IsChain fun a b => b = a + 1 := by
  induction ks generalizing c m with
  | nil => exact ⟨fun _ => List.isChain_singleton _, fun _ => trivial⟩
  | cons k ks ih =>
    obtain ⟨above, later⟩ := List.pairwise_cons.mp increasing
    have less := above k (by simp)
    obtain ⟨v, loaded, sized⟩ := history.version (bounded k (by simp))
    have delivered := deliver_eq code loaded
    rw [List.isChain_cons_cons]
    by_cases next : k = m + 1
    · subst next
      obtain ⟨d, shown, after, kept, -⟩ := BracketController.snapshot_next sized placed
      have step : c.deliver (document (m + 1)) = some d := delivered.trans shown
      have rest := ih (c := d) (fun k member => bounded k (by simp [member])) later (kept.trans code)
        after.toPlaced
      constructor
      · rintro ⟨-, onward⟩
        exact ⟨rfl, rest.mp (onward d step)⟩
      · rintro ⟨-, onward⟩
        refine ⟨.of_loaded sized loaded step after, fun e reached => ?_⟩
        obtain rfl := Option.some.inj (step.symm.trans reached)
        exact rest.mpr onward
    · have trapped : c.deliver (document k) = none :=
        delivered.trans (BracketController.snapshot_skip sized placed (by omega))
      constructor
      · rintro ⟨⟨d, -, -, reached, -⟩, -⟩
        rw [trapped] at reached
        cases reached
      · rintro ⟨same, -⟩
        exact absurd same next

/-- Deliveries of a history to one open controller agree with fresh ones exactly when, from the first one on,
no version is skipped. -/
theorem incremental_update_iff (history : History reg document) {ks : List Nat}
    (bounded : ∀ k ∈ ks, k ≤ reg.rounds) (increasing : ks.Pairwise (· < ·)) :
    Transition.Meets (fun c k => c.deliver (document k)) (AgreesWithFresh reg host document)
        { gameCode := reg.gameCode, host } ks ↔
      ks.IsChain fun a b => b = a + 1 := by
  cases ks with
  | nil => exact ⟨fun _ => List.isChain_nil, fun _ => trivial⟩
  | cons k ks =>
    let empty : BracketController := { gameCode := reg.gameCode, host }
    obtain ⟨v, loaded, sized⟩ := history.version (bounded k (by simp))
    obtain ⟨d, shown, after, kept, -⟩ := BracketController.snapshot_fresh (c := empty) sized rfl rfl
    have step : empty.deliver (document k) = some d :=
      (deliver_eq (c := empty) rfl loaded).trans shown
    have rest := @agrees_iff_isChain reg host document d k history ks
      (fun k member => bounded k (by simp [member])) increasing kept after.toPlaced
    constructor
    · rintro ⟨-, onward⟩
      exact rest.mp (onward d step)
    · intro chain
      refine ⟨.of_loaded sized loaded step after, fun e reached => ?_⟩
      obtain rfl := Option.some.inj (step.symm.trans reached)
      exact rest.mpr chain

/-! ### Four groups -/

def fourWon : Tournament :=
  (four.created.updateWinner { name := some "A", seed := some 1 } { name := some "D", seed := some 4 }
    1).updateWinner { name := some "B", seed := some 2 } { name := some "C", seed := some 3 } 1

def fourFinished : Tournament :=
  fourWon.nextRound.updateWinner { name := some "A", seed := some 1 } { name := some "B", seed := some 2 } 2

def fourVersion : Nat → Tournament
  | 0 => four.created
  | 1 => fourWon.nextRound
  | _ => fourFinished.nextRound

def fourDocument (k : Nat) : Document := ((fourVersion k).store.map Prod.snd).getD default

theorem four_rounds : four.rounds = 2 := Nat.clog_pow 2 2 (by decide)

theorem four_history : History four fourDocument := by
  refine ⟨by decide, ?_, ?_⟩
  · intro k below
    rw [four_rounds] at below
    obtain rfl | rfl : k = 0 ∨ k = 1 := by omega
    · exact ⟨fourVersion 0, fourWon, by decide, by decide, by decide, by decide, by decide⟩
    · exact ⟨fourVersion 1, fourFinished, by decide, by decide, by decide, by decide, by decide⟩
  · intro k below
    rw [four_rounds] at below
    obtain rfl | rfl | rfl : k = 0 ∨ k = 1 ∨ k = 2 := by omega
    · decide
    · decide
    · decide

/-- A viewer that misses the second of the three documents traps on the third. -/
theorem skipped_version_traps :
    History four fourDocument ∧ (∀ k ∈ [0, 2], k ≤ four.rounds) ∧ [0, 2].Pairwise (· < ·) ∧
    (({ gameCode := four.gameCode } : BracketController).deliver (fourDocument 0)).isSome ∧
    ((({ gameCode := four.gameCode } : BracketController).deliver (fourDocument 0)).bind
      fun c => c.deliver (fourDocument 2)).isNone ∧
    ¬ Transition.Meets (fun c k => c.deliver (fourDocument k)) (AgreesWithFresh four false fourDocument)
      { gameCode := four.gameCode } [0, 2] := by
  have trapped : ((({ gameCode := four.gameCode } : BracketController).deliver (fourDocument 0)).bind
      fun c => c.deliver (fourDocument 2)).isNone := by decide
  refine ⟨four_history, by rw [four_rounds]; decide, by decide, by decide, trapped, ?_⟩
  rintro ⟨⟨c, -, -, first, -⟩, onward⟩
  obtain ⟨⟨d, -, -, second, -⟩, -⟩ := onward c first
  rw [first, Option.bind_some, second] at trapped
  cases trapped

theorem incremental_update_iff_four :
    Transition.Meets (fun c k => c.deliver (fourDocument k)) (AgreesWithFresh four true fourDocument)
        { gameCode := four.gameCode, host := true } [0, 1, 2] ↔
      [0, 1, 2].IsChain fun a b => b = a + 1 :=
  incremental_update_iff four_history (by rw [four_rounds]; decide) (by decide)

end Tourni
