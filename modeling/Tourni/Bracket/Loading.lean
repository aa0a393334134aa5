import Tourni.Model.BracketController

/-!
# What a snapshot does to the bracket

The tables are created one after the other and never removed, so they are known by their index. The two
loops of the snapshot closure are given in closed form, with the conditions under which they do not trap.
-/

namespace Tourni

def tables (m : Nat) : List UITableView := (List.range m).map UITableView.mk

@[simp] theorem tables_length (m : Nat) : (tables m).length = m := by simp [tables]

theorem tables_getElem? {m i : Nat} (h : i < m) : (tables m)[i]? = some ⟨i⟩ := by
  simp [tables, h]

theorem tables_succ (m : Nat) : tables (m + 1) = tables m ++ [⟨m⟩] := by
  simp [tables, List.range_succ]

namespace BracketController

/-- A dictionary whose entries for the tables `m, ..., m + n - 1` are read from a list. -/
def fill {α : Type*} (dict : UITableView → Option α) (m n : Nat) (xs : List α) (start : Nat) :
    UITableView → Option α :=
  fun table => if m ≤ table.id ∧ table.id < m + n then xs[start + (table.id - m)]? else dict table

theorem fill_succ {α : Type*} {dict : UITableView → Option α} {m n start : Nat} {xs : List α} {x : α}
    (h : xs[start + n]? = some x) :
    Function.update (fill dict m n xs start) ⟨m + n⟩ (some x) = fill dict m (n + 1) xs start := by
  funext ⟨id⟩
  by_cases here : id = m + n
  · subst here
    rw [Function.update_self, fill, if_pos (by dsimp only; omega)]
    dsimp only
    rw [Nat.add_sub_cancel_left, h]
  · rw [Function.update_of_ne (by simpa using here)]
    unfold fill
    dsimp only
    by_cases inside : m ≤ id ∧ id < m + n
    · rw [if_pos inside, if_pos (by omega)]
    · rw [if_neg inside, if_neg (by omega)]

/-- The loop of `make_roundsHost`: each round needs a number of match-ups and a list of groups. -/
theorem makeRounds_eq {c : BracketController} {m : Nat} (arr : c.bracketViewArr = tables m) (start n : Nat) :
    (List.range' start n).foldlM makeRound c =
      if ∀ j < n, start + j < c.roundMatches.length ∧ start + j < c.tournament.roundList.length then
        some { c with
          bracketViewDict := fill c.bracketViewDict m n c.roundMatches start
          bracketViewGroupDict := fill c.bracketViewGroupDict m n c.tournament.roundList start
          bracketViewArr := tables (m + n) }
      else none := by
  induction n with
  | zero =>
    have empty : ∀ {α : Type} (dict : UITableView → Option α) (xs : List α),
        fill dict m 0 xs start = dict := by
      intro α dict xs
      funext table
      exact if_neg (by omega)
    simp [empty, ← arr]
  | succ n ih =>
    rw [List.range'_1_concat, List.foldlM_append, ih]
    by_cases before : ∀ j < n, start + j < c.roundMatches.length ∧ start + j < c.tournament.roundList.length
    · rw [if_pos before]
      simp only [Option.bind_eq_bind, Option.bind_some, List.foldlM_cons, List.foldlM_nil, makeRound,
        tables_length]
      by_cases now : start + n < c.roundMatches.length ∧ start + n < c.tournament.roundList.length
      · have all : ∀ j < n + 1, start + j < c.roundMatches.length ∧
            start + j < c.tournament.roundList.length := by
          intro j below
          rcases Nat.lt_succ_iff_lt_or_eq.mp below with earlier | rfl
          · exact before j earlier
          · exact now
        have rows := List.getElem?_eq_getElem now.1
        have shown := List.getElem?_eq_getElem now.2
        rw [if_pos all, rows, shown]
        simp only [Option.bind_some, Option.pure_def, fill_succ rows, fill_succ shown, ← tables_succ]
        rfl
      · rw [if_neg fun all => now (all n (by omega))]
        rcases not_and_or.mp now with short | short
        · simp [List.getElem?_eq_none (Nat.le_of_not_lt short)]
        · cases c.roundMatches[start + n]? <;> simp [List.getElem?_eq_none (Nat.le_of_not_lt short)]
    · rw [if_neg before, if_neg fun all => before fun j below => all j (by omega)]
      rfl

theorem showRounds_eq {c : BracketController} {m : Nat} (arr : c.bracketViewArr = tables m) (n : Nat) :
    (List.range n).foldlM showRound c =
      if n ≤ m ∧ n ≤ c.tournament.roundList.length then
        some { c with bracketViewGroupDict := fill c.bracketViewGroupDict 0 n c.tournament.roundList 0 }
      else none := by
  induction n with
  | zero =>
    have empty : fill c.bracketViewGroupDict 0 0 c.tournament.roundList 0 = c.bracketViewGroupDict := by
      funext table
      exact if_neg (by omega)
    simp [empty]
  | succ n ih =>
    rw [List.range_succ, List.foldlM_append, ih]
    by_cases before : n ≤ m ∧ n ≤ c.tournament.roundList.length
    · rw [if_pos before]
      simp only [Option.bind_eq_bind, Option.bind_some, List.foldlM_cons, List.foldlM_nil, showRound, arr]
      by_cases now : n < m ∧ n < c.tournament.roundList.length
      · have shown : c.tournament.roundList[0 + n]? = some c.tournament.roundList[n] := by
          rw [Nat.zero_add, List.getElem?_eq_getElem now.2]
        have filled : Function.update (fill c.bracketViewGroupDict 0 n c.tournament.roundList 0) ⟨0 + n⟩ _ =
            fill c.bracketViewGroupDict 0 (n + 1) c.tournament.roundList 0 := fill_succ shown
        rw [Nat.zero_add] at shown filled
        rw [if_pos ⟨by omega, by omega⟩, tables_getElem? now.1, shown]
        simp only [Option.bind_some, Option.pure_def, filled]
      · rw [if_neg fun both => now ⟨by omega, by omega⟩]
        rcases not_and_or.mp now with short | short
        · simp [List.getElem?_eq_none (show (tables m).length ≤ n by simp; omega)]
        · cases (tables m)[n]? <;> simp [List.getElem?_eq_none (Nat.le_of_not_lt short)]
    · rw [if_neg before, if_neg fun both => before ⟨by omega, by omega⟩]
      rfl

theorem fill_of_lt {α : Type*} {dict : UITableView → Option α} {m n start i : Nat} {xs : List α}
    (low : m ≤ i) (high : i < m + n) : fill dict m n xs start ⟨i⟩ = xs[start + (i - m)]? :=
  if_pos ⟨low, high⟩

theorem fill_of_low {α : Type*} {dict : UITableView → Option α} {m n start i : Nat} {xs : List α}
    (low : i < m) : fill dict m n xs start ⟨i⟩ = dict ⟨i⟩ :=
  if_neg (by dsimp only; omega)

theorem fill_zero {α : Type*} (dict : UITableView → Option α) (m start : Nat) (xs : List α) :
    fill dict m 0 xs start = dict := by
  funext table
  exact if_neg (by omega)

/-! ### The snapshot closure -/

/-- The round that `make_roundsHost` leaves as the current one. -/
def nextCurrRound (c : BracketController) : Nat :=
  match c.lookupRound with
  | some i => i + 1
  | none => if c.currentGroups.length == 1 then c.rounds else c.currRound

def startBracketAt (c : BracketController) : Nat := if c.initialized then c.nextCurrRound - 1 else 0

/-- How many tables `make_roundsHost` creates. -/
def built (c : BracketController) : Nat :=
  if (c.currentGroups.length == 1 || c.lookupRound.isSome) &&
      !(c.initialized && c.currentGroups.length == 1) then
    c.nextCurrRound - c.startBracketAt
  else 0

/-- Every table that `make_roundsHost` creates has its number of match-ups and its list of groups. -/
def Buildable (c : BracketController) : Prop :=
  ∀ j < c.built, c.startBracketAt + j < c.roundMatches.length ∧
    c.startBracketAt + j < c.tournament.roundList.length

instance (c : BracketController) : Decidable c.Buildable := inferInstanceAs (Decidable (∀ j < c.built, _))

/-- The controller after `make_roundsHost`, from `m` tables. -/
def afterBuild (c : BracketController) (m : Nat) : BracketController :=
  { c with
    currRound := c.nextCurrRound
    bracketViewDict := fill c.bracketViewDict m c.built c.roundMatches c.startBracketAt
    bracketViewGroupDict := fill c.bracketViewGroupDict m c.built c.tournament.roundList c.startBracketAt
    bracketViewArr := tables (m + c.built) }

theorem makeRoundsHost_eq {c : BracketController} {m : Nat} (arr : c.bracketViewArr = tables m) :
    c.makeRoundsHost = if c.Buildable then some (c.afterBuild m) else none := by
  unfold makeRoundsHost Buildable afterBuild built
  by_cases builds : ((c.currentGroups.length == 1 || c.lookupRound.isSome) &&
      !(c.initialized && c.currentGroups.length == 1)) = true
  · simp only [builds, if_true]
    let d : BracketController := { c with currRound := c.nextCurrRound }
    have here : d.bracketViewArr = tables m := arr
    exact makeRounds_eq here c.startBracketAt (c.nextCurrRound - c.startBracketAt)
  · simp only [builds, Bool.false_eq_true, if_false, fill_zero, Nat.not_lt_zero, false_implies,
      implies_true, if_true, Nat.add_zero, ← arr]
    rfl

/-- The controller after a snapshot of `t`, from `m` tables. -/
def afterSnapshot (c : BracketController) (t : Tournament) (m : Nat) : BracketController :=
  let d := (c.receive t).afterBuild m
  { d with
    initialized := true
    bracketViewGroupDict :=
      if c.initialized then fill d.bracketViewGroupDict 0 d.currRound t.roundList 0
      else d.bracketViewGroupDict }

/-- Nothing traps while a snapshot of `t` is handled. -/
def Loadable (c : BracketController) (t : Tournament) (m : Nat) : Prop :=
  (c.receive t).Buildable ∧ (c.initialized = true →
    (c.receive t).nextCurrRound ≤ m + (c.receive t).built ∧
    (c.receive t).nextCurrRound ≤ t.roundList.length)

instance (c : BracketController) (t : Tournament) (m : Nat) : Decidable (c.Loadable t m) :=
  inferInstanceAs (Decidable (_ ∧ (_ → _)))

theorem snapshot_eq {c : BracketController} {t : Tournament} {m : Nat} (arr : c.bracketViewArr = tables m) :
    c.snapshot t = if c.Loadable t m then some (c.afterSnapshot t m) else none := by
  have build : (c.receive t).makeRoundsHost = _ := makeRoundsHost_eq arr
  by_cases buildable : (c.receive t).Buildable
  · rw [if_pos buildable] at build
    let d := (c.receive t).afterBuild m
    have again : (match d.lookupRound with
        | some i => i + 1
        | none => d.currRound) = d.currRound := by
      have same : d.lookupRound = (c.receive t).lookupRound := rfl
      rw [same]
      cases found : (c.receive t).lookupRound with
      | none => rfl
      | some i => simp [d, afterBuild, nextCurrRound, found]
    have body : c.snapshot t = if c.initialized then (List.range d.currRound).foldlM showRound d
        else some { d with initialized := true } := by
      unfold snapshot
      rw [build, Option.bind_eq_bind, Option.bind_some]
      show (if c.initialized then
        (List.range (match d.lookupRound with
          | some i => i + 1
          | none => d.currRound)).foldlM showRound { d with
            currRound := match d.lookupRound with
              | some i => i + 1
              | none => d.currRound }
        else _) = _
      rw [again]
    have arr' : d.bracketViewArr = tables (m + (c.receive t).built) := rfl
    have loop := showRounds_eq arr' d.currRound
    rw [body]
    by_cases initialized : c.initialized = true
    · rw [if_pos initialized]
      apply loop.trans
      by_cases shown : d.currRound ≤ m + (c.receive t).built ∧ d.currRound ≤ t.roundList.length
      · have loadable : c.Loadable t m := ⟨buildable, fun _ => shown⟩
        rw [if_pos loadable]
        apply (if_pos shown).trans
        have kept : d.initialized = true := initialized
        simp only [afterSnapshot, initialized, if_true, kept]
        rfl
      · have trapped : ¬ c.Loadable t m := fun both => shown (both.2 initialized)
        rw [if_neg trapped]
        exact if_neg shown
    · have loadable : c.Loadable t m := ⟨buildable, fun h => absurd h initialized⟩
      rw [if_neg initialized, if_pos loadable]
      simp only [afterSnapshot, if_neg initialized]
      rfl
  · rw [if_neg buildable] at build
    have trapped : ¬ c.Loadable t m := fun both => buildable both.1
    rw [if_neg trapped, snapshot, build]
    rfl

theorem snapshot_inv {c d : BracketController} {t : Tournament} {m : Nat} (arr : c.bracketViewArr = tables m)
    (h : c.snapshot t = some d) : c.Loadable t m ∧ d = c.afterSnapshot t m := by
  rw [snapshot_eq arr] at h
  split at h
  · rename_i loadable
    exact ⟨loadable, (Option.some.inj h).symm⟩
  · cases h

end BracketController
end Tourni
