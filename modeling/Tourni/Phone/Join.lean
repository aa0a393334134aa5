import Tourni.Lib.Transition
import Tourni.Model.Phone

/-!
# Joining by game code

`JoinController.swift`: pressing Join asks the database for the text of the field, and the answer joins
whatever the field holds when it arrives.
-/

namespace Tourni

inductive Alert where
  | found
  | notFound
  deriving DecidableEq, Repr

structure JoinController where
  defaults : UserDefaults
  gameCodeTextField : String := ""
  alert : Option Alert := none
  /-- The codes of the `exists` queries that are not answered yet. -/
  queries : List String := []
  /-- Ghost history: the codes whose query was answered true. -/
  verified : List String := []

inductive JoinEvent where
  | edit (text : String) (countOfChars : Int)
  | joinTournamentButton
  | answer (query : Nat) (isThere : Bool)
  | dismiss
  deriving DecidableEq, Repr

namespace JoinController

/-- The delegate refuses an edit after which it counts more than five characters. -/
def edit (c : JoinController) (text : String) (countOfChars : Int) : JoinController :=
  if countOfChars > 5 then c else { c with gameCodeTextField := text }

def joinTournamentButton (c : JoinController) : JoinController :=
  if c.gameCodeTextField != "" then { c with queries := c.queries ++ [c.gameCodeTextField] } else c

/-- An alert is not presented over another one. -/
def present (c : JoinController) (alert : Alert) : JoinController :=
  { c with alert := some (c.alert.getD alert) }

def gameFound (c : JoinController) : JoinController :=
  { c with defaults := Tournament.join c.gameCodeTextField c.defaults }.present .found

def gameNotFound (c : JoinController) : JoinController := c.present .notFound

/-- The completion of an `exists` query; the answers arrive in any order. -/
def answer (c : JoinController) (query : Nat) (isThere : Bool) : Option JoinController := do
  let gc ← c.queries[query]?
  let c := { c with queries := c.queries.eraseIdx query }
  some (if isThere then { c with verified := gc :: c.verified }.gameFound else c.gameNotFound)

def backToActiveGames (c : JoinController) : JoinController := { c with gameCodeTextField := "" }

def cleanTextfield (c : JoinController) : JoinController := { c with gameCodeTextField := "" }

def dismiss (c : JoinController) : Option JoinController := do
  let alert ← c.alert
  let c := { c with alert := none }
  some (match alert with
    | .found => c.backToActiveGames
    | .notFound => c.cleanTextfield)

def step (c : JoinController) : JoinEvent → Option JoinController
  | .edit text countOfChars => some (c.edit text countOfChars)
  | .joinTournamentButton => some c.joinTournamentButton
  | .answer query isThere => c.answer query isThere
  | .dismiss => c.dismiss

/-- Every code joined since the list was `before` is a code whose query was answered true. -/
def JoinedVerified (before : List String) (c : JoinController) : Prop :=
  ∃ codes, c.defaults .joined = before ++ codes ∧ ∀ code ∈ codes, code ≠ "" ∧ code ∈ c.verified

/-- When a query is answered true, the field holds its code, or one that was answered true before. -/
def FieldKept (c : JoinController) : JoinEvent → Prop
  | .answer query true => ∀ gc, c.queries[query]? = some gc →
    c.gameCodeTextField = gc ∨ c.gameCodeTextField ∈ c.verified
  | _ => True

/-- Only codes are asked for. -/
structure Asked (c : JoinController) : Prop where
  queries : ∀ gc ∈ c.queries, gc ≠ ""
  verified : ∀ gc ∈ c.verified, gc ≠ ""

variable {c d : JoinController} {before : List String} {e : JoinEvent} {query : Nat}

theorem answer_inv {isThere : Bool} (h : c.answer query isThere = some d) :
    ∃ gc, c.queries[query]? = some gc ∧ d.queries = c.queries.eraseIdx query ∧
      d.verified = (if isThere then gc :: c.verified else c.verified) ∧
      d.defaults = if isThere then Tournament.join c.gameCodeTextField c.defaults else c.defaults := by
  obtain ⟨gc, asked, h⟩ := Option.bind_eq_some_iff.mp h
  obtain rfl := Option.some.inj h
  refine ⟨gc, asked, ?_⟩
  cases isThere <;> exact ⟨rfl, rfl, rfl⟩

/-- Everything but an answer leaves the joined codes and the verified ones as they are. -/
theorem step_inv (stepped : c.step e = some d) :
    (∃ query isThere, e = .answer query isThere ∧ c.answer query isThere = some d) ∨
    (d.defaults = c.defaults ∧ d.verified = c.verified ∧
      ∀ gc ∈ d.queries, gc ∈ c.queries ∨ gc ≠ "") := by
  cases e with
  | edit text countOfChars =>
    obtain rfl := Option.some.inj stepped
    apply Or.inr
    unfold edit
    split <;> exact ⟨rfl, rfl, fun gc => Or.inl⟩
  | joinTournamentButton =>
    obtain rfl := Option.some.inj stepped
    apply Or.inr
    unfold joinTournamentButton
    split
    · rename_i entered
      refine ⟨rfl, rfl, fun gc member => ?_⟩
      rcases List.mem_append.mp member with old | new
      · exact Or.inl old
      · obtain rfl := List.mem_singleton.mp new
        exact Or.inr (bne_iff_ne.mp entered)
    · exact ⟨rfl, rfl, fun gc => Or.inl⟩
  | answer query isThere => exact Or.inl ⟨query, isThere, rfl, stepped⟩
  | dismiss =>
    obtain ⟨alert, -, same⟩ := Option.bind_eq_some_iff.mp stepped
    obtain rfl := Option.some.inj same
    apply Or.inr
    cases alert <;> exact ⟨rfl, rfl, fun gc => Or.inl⟩

theorem Asked.step (asked : c.Asked) (stepped : c.step e = some d) : d.Asked := by
  rcases step_inv stepped with ⟨query, isThere, rfl, answered⟩ | ⟨-, verified, queries⟩
  · obtain ⟨gc, present, queries, verified, -⟩ := answer_inv answered
    constructor
    · rw [queries]
      exact fun x member => asked.queries x (List.mem_of_mem_eraseIdx member)
    · rw [verified]
      split
      · exact List.forall_mem_cons.mpr ⟨asked.queries gc (List.mem_of_getElem? present), asked.verified⟩
      · exact asked.verified
  · refine ⟨fun gc member => ?_, verified ▸ asked.verified⟩
    exact (queries gc member).elim (asked.queries gc) id

theorem JoinedVerified.join_iff {gc : String} (asked : c.Asked) (joined : c.JoinedVerified before)
    (present : c.queries[query]? = some gc) (verified : d.verified = gc :: c.verified)
    (defaults : d.defaults = Tournament.join c.gameCodeTextField c.defaults) :
    d.JoinedVerified before ↔ c.gameCodeTextField = gc ∨ c.gameCodeTextField ∈ c.verified := by
  obtain ⟨codes, same, checked⟩ := joined
  have after : d.defaults .joined = before ++ (codes ++ [c.gameCodeTextField]) := by
    rw [defaults, Tournament.join, UserDefaults.append_same, same, List.append_assoc]
  have nonempty : ∀ code ∈ gc :: c.verified, code ≠ "" :=
    List.forall_mem_cons.mpr ⟨asked.queries gc (List.mem_of_getElem? present), asked.verified⟩
  rw [← List.mem_cons]
  constructor
  · rintro ⟨codes', same', checked'⟩
    have whole : codes' = codes ++ [c.gameCodeTextField] := List.append_cancel_left (same'.symm.trans after)
    exact verified ▸ (checked' _ (whole ▸ List.mem_append_right _ (List.mem_singleton_self _))).2
  · intro kept
    refine ⟨_, after, fun code member => ?_⟩
    rw [verified]
    rcases List.mem_append.mp member with old | new
    · exact ⟨(checked code old).1, List.mem_cons_of_mem _ (checked code old).2⟩
    · obtain rfl := List.mem_singleton.mp new
      exact ⟨nonempty _ kept, kept⟩

theorem JoinedVerified.of_same (joined : c.JoinedVerified before) (defaults : d.defaults = c.defaults)
    (verified : d.verified = c.verified) : d.JoinedVerified before := by
  rwa [JoinedVerified, defaults, verified]

theorem JoinedVerified.step_iff (asked : c.Asked) (joined : c.JoinedVerified before) :
    (∀ d, c.step e = some d → d.JoinedVerified before) ↔ c.FieldKept e := by
  have quiet (silent : ∀ query, e ≠ .answer query true) (kept : c.FieldKept e) :
      (∀ d, c.step e = some d → d.JoinedVerified before) ↔ c.FieldKept e := by
    refine iff_of_true (fun d stepped => ?_) kept
    rcases step_inv stepped with ⟨query, isThere, rfl, answered⟩ | ⟨defaults, verified, -⟩
    · obtain ⟨gc, -, -, verified, defaults⟩ := answer_inv answered
      cases isThere with
      | true => exact absurd rfl (silent query)
      | false => exact joined.of_same defaults verified
    · exact joined.of_same defaults verified
  cases e with
  | edit text countOfChars => exact quiet (by simp) trivial
  | joinTournamentButton => exact quiet (by simp) trivial
  | dismiss => exact quiet (by simp) trivial
  | answer query isThere =>
    cases isThere with
    | false => exact quiet (by simp) trivial
    | true =>
      constructor
      · intro every gc present
        have stepped : c.answer query true = some
            { c with queries := c.queries.eraseIdx query, verified := gc :: c.verified }.gameFound := by
          unfold answer
          rw [present]
          rfl
        exact (joined.join_iff asked present rfl rfl).mp (every _ stepped)
      · intro kept d stepped
        obtain ⟨gc, present, -, verified, defaults⟩ := answer_inv stepped
        exact (joined.join_iff asked present verified defaults).mpr (kept gc present)

/-- From any stored codes, only verified codes are joined exactly when the field is kept until each true
answer. -/
theorem joined_verified_iff (defaults : UserDefaults) (es : List JoinEvent) :
    Transition.Along step (JoinedVerified (defaults .joined)) { defaults } es ↔
      Transition.Meets step FieldKept { defaults } es := by
  have joined : JoinedVerified (defaults .joined) { defaults } := ⟨[], by simp, by simp⟩
  have asked : Asked { defaults } := ⟨by simp, by simp⟩
  apply Transition.along_iff _ _ asked joined
  · intro c e d asked stepped
    exact asked.step stepped
  · intro c e asked joined
    exact joined.step_iff asked

/-- Pressing Join twice joins the code and then, after the alert cleared the field, the empty code. -/
theorem second_press_joins_empty :
    ∃ c, Transition.run step { defaults := fun _ => [] } [.edit "abcd" 4, .joinTournamentButton,
        .joinTournamentButton, .answer 0 true, .dismiss, .answer 0 true] = some c ∧
      c.verified = ["abcd", "abcd"] ∧ c.defaults .joined = ["abcd", ""] ∧ ¬ c.JoinedVerified [] := by
  refine ⟨_, rfl, rfl, rfl, ?_⟩
  rintro ⟨codes, same, checked⟩
  have joined : ["abcd", ""] = codes := same
  exact (checked "" (joined ▸ by simp)).1 rfl

end JoinController
end Tourni
