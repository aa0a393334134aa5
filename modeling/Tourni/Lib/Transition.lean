import Mathlib.Logic.Basic

/-!
# Runs of a partial step function

`step s e = none` when the event `e` is refused in `s`. `Meets ok` asks every step of a run to meet a
condition in the state it is taken from; `Along P` asks every state of the run to satisfy `P`.
-/

namespace Transition
variable {σ ε : Type*} {step : σ → ε → Option σ}

/-- `step` applied to each event in turn. -/
def run (step : σ → ε → Option σ) : σ → List ε → Option σ
  | s, [] => some s
  | s, e :: es => (step s e).bind fun t => run step t es

/-- Every step of the run meets `ok`. -/
def Meets (step : σ → ε → Option σ) (ok : σ → ε → Prop) : σ → List ε → Prop
  | _, [] => True
  | s, e :: es => ok s e ∧ ∀ t, step s e = some t → Meets step ok t es

/-- Every state of the run satisfies `P`. -/
def Along (step : σ → ε → Option σ) (P : σ → Prop) (s : σ) (es : List ε) : Prop :=
  P s ∧ Meets step (fun s e => ∀ t, step s e = some t → P t) s es

theorem meets_cons {ok : σ → ε → Prop} {s t : σ} {e : ε} {es : List ε} (first : step s e = some t) :
    Meets step ok s (e :: es) ↔ ok s e ∧ Meets step ok t es := by
  refine and_congr_right fun _ => ⟨fun onward => onward t first, fun onward u next => ?_⟩
  obtain rfl := Option.some.inj (first.symm.trans next)
  exact onward

theorem meets_cons_none {ok : σ → ε → Prop} {s : σ} {e : ε} {es : List ε} (refused : step s e = none) :
    Meets step ok s (e :: es) ↔ ok s e := by
  refine ⟨fun met => met.1, fun now => ⟨now, fun u next => ?_⟩⟩
  rw [refused] at next
  cases next

instance decidableMeets {ok : σ → ε → Prop} [∀ s e, Decidable (ok s e)] :
    ∀ s es, Decidable (Meets step ok s es)
  | _, [] => isTrue trivial
  | s, e :: es =>
    match h : step s e with
    | none => decidable_of_iff _ (meets_cons_none h).symm
    | some t =>
      have : Decidable (Meets step ok t es) := decidableMeets t es
      decidable_of_iff _ (meets_cons h).symm

@[simp] theorem run_nil (s : σ) : run step s [] = some s := rfl

theorem run_cons_inv {s u : σ} {e : ε} {es : List ε} (h : run step s (e :: es) = some u) :
    ∃ t, step s e = some t ∧ run step t es = some u :=
  Option.bind_eq_some_iff.mp h

/-- An invariant that every step meeting `ok` keeps holds after every run whose steps meet `ok`. -/
theorem run_invariant {inv : σ → Prop} {ok : σ → ε → Prop}
    (keep : ∀ s e t, inv s → ok s e → step s e = some t → inv t) {s t : σ} {es : List ε}
    (start : inv s) (met : Meets step ok s es) (h : run step s es = some t) : inv t := by
  induction es generalizing s with
  | nil =>
    obtain rfl := Option.some.inj h
    exact start
  | cons e es ih =>
    obtain ⟨m, head, tail⟩ := run_cons_inv h
    exact ih (keep s e m start met.1 head) (met.2 m head) tail

theorem meets_of_forall {ok : σ → ε → Prop} (h : ∀ s e, ok s e) (s : σ) (es : List ε) :
    Meets step ok s es := by
  induction es generalizing s with
  | nil => trivial
  | cons e es ih => exact ⟨h s e, fun t _ => ih t⟩

theorem run_invariant' {inv : σ → Prop} (keep : ∀ s e t, inv s → step s e = some t → inv t)
    {s t : σ} {es : List ε} (start : inv s) (h : run step s es = some t) : inv t :=
  have everywhere : Meets step (fun _ _ => True) s es := meets_of_forall (fun _ _ => trivial) s es
  run_invariant (fun s e t hs _ => keep s e t hs) start everywhere h

theorem meets_and {ok good : σ → ε → Prop} {s : σ} {es : List ε} :
    Meets step (fun s e => ok s e ∧ good s e) s es ↔ Meets step ok s es ∧ Meets step good s es := by
  induction es generalizing s with
  | nil => exact (and_iff_left trivial).symm
  | cons e es ih =>
    simp only [Meets, ih]
    constructor
    · rintro ⟨⟨first, second⟩, onward⟩
      exact ⟨⟨first, fun t next => (onward t next).1⟩, second, fun t next => (onward t next).2⟩
    · rintro ⟨⟨first, onward⟩, second, onward'⟩
      exact ⟨⟨first, second⟩, fun t next => ⟨onward t next, onward' t next⟩⟩

/-- Where the invariant holds, a run that meets one condition meets what follows from it. -/
theorem meets_mono {inv : σ → Prop} {ok good : σ → ε → Prop}
    (keep : ∀ s e t, inv s → ok s e → step s e = some t → inv t)
    (follows : ∀ s e, inv s → ok s e → good s e) {s : σ} {es : List ε} (start : inv s)
    (met : Meets step ok s es) : Meets step good s es := by
  induction es generalizing s with
  | nil => trivial
  | cons e es ih =>
    exact ⟨follows s e start met.1, fun t next => ih (keep s e t start met.1 next) (met.2 t next)⟩

/-- Two conditions that agree wherever the invariant holds are met by the same runs. -/
theorem meets_iff {inv : σ → Prop} {ok good : σ → ε → Prop}
    (keep : ∀ s e t, inv s → ok s e → step s e = some t → inv t)
    (same : ∀ s e, inv s → (good s e ↔ ok s e)) {s : σ} {es : List ε} (start : inv s) :
    Meets step good s es ↔ Meets step ok s es :=
  ⟨meets_mono (fun s e t hs met => keep s e t hs ((same s e hs).mp met)) (fun s e hs => (same s e hs).mp) start,
    meets_mono keep (fun s e hs => (same s e hs).mpr) start⟩

/-- Where each step leads to `P` exactly when it comes from `P` and meets `ok`, a run that started in `P` ends in
`P` exactly when it meets `ok`. -/
theorem run_iff {inv P : σ → Prop} {ok : σ → ε → Prop} (keep : ∀ s e t, inv s → step s e = some t → inv t)
    (same : ∀ s e t, inv s → step s e = some t → (P t ↔ P s ∧ ok s e)) {s t : σ} {es : List ε}
    (start : inv s) (ran : run step s es = some t) : P t ↔ P s ∧ Meets step ok s es := by
  induction es generalizing s with
  | nil =>
    obtain rfl := Option.some.inj ran
    exact (and_iff_left trivial).symm
  | cons e es ih =>
    obtain ⟨u, head, tail⟩ := run_cons_inv ran
    rw [ih (keep s e u start head) tail, same s e u start head, meets_cons head, and_assoc]

/-- Where each step keeps `P` exactly when it meets `ok`, the runs along which `P` holds are those that meet
`ok`. -/
theorem along_iff {inv P : σ → Prop} {ok : σ → ε → Prop}
    (keep : ∀ s e t, inv s → step s e = some t → inv t)
    (same : ∀ s e, inv s → P s → ((∀ t, step s e = some t → P t) ↔ ok s e)) {s : σ} {es : List ε}
    (start : inv s) (now : P s) : Along step P s es ↔ Meets step ok s es := by
  have kept : ∀ s e t, (inv s ∧ P s) → ok s e → step s e = some t → inv t ∧ P t := by
    rintro s e t ⟨valid, holds⟩ met next
    exact ⟨keep s e t valid next, (same s e valid holds).mpr met t next⟩
  have agree : ∀ s e, (inv s ∧ P s) → ((∀ t, step s e = some t → P t) ↔ ok s e) :=
    fun s e both => same s e both.1 both.2
  exact (and_iff_right now).trans (meets_iff kept agree ⟨start, now⟩)

/-! ### Simulation -/

theorem run_append {s t u : σ} {es fs : List ε} (first : run step s es = some t) (second : run step t fs = some u) :
    run step s (es ++ fs) = some u := by
  induction es generalizing s with
  | nil =>
    obtain rfl := Option.some.inj first
    exact second
  | cons e es ih =>
    obtain ⟨m, head, tail⟩ := run_cons_inv first
    rw [List.cons_append, run, head, Option.bind_some, ih tail]

theorem run_singleton (step : σ → ε → Option σ) (s : σ) (e : ε) : run step s [e] = step s e := by
  rw [run]
  cases step s e <;> rfl

/-- Where each step of one machine that meets `ok` is matched by some steps of another, its runs are matched by
runs of the other. -/
theorem run_simulated {τ δ : Type*} {other : τ → δ → Option τ} {R : σ → τ → Prop} {ok : σ → ε → Prop}
    (matched : ∀ s e t a, R s a → ok s e → step s e = some t → ∃ ds b, run other a ds = some b ∧ R t b)
    {s t : σ} {a : τ} {es : List ε} (start : R s a) (met : Meets step ok s es) (ran : run step s es = some t) :
    ∃ ds b, run other a ds = some b ∧ R t b := by
  have keep : ∀ s e t, (∃ ds b, run other a ds = some b ∧ R s b) → ok s e → step s e = some t →
      ∃ ds b, run other a ds = some b ∧ R t b := by
    rintro s e t ⟨ds, b, before, related⟩ now next
    obtain ⟨ds', b', onward, after⟩ := matched s e t b related now next
    exact ⟨ds ++ ds', b', run_append before onward, after⟩
  exact run_invariant keep ⟨[], a, rfl, start⟩ met ran

/-! ### What a state leads to -/

theorem meets_append {ok : σ → ε → Prop} {s t : σ} {es fs : List ε} (first : run step s es = some t) :
    Meets step ok s (es ++ fs) ↔ Meets step ok s es ∧ Meets step ok t fs := by
  induction es generalizing s with
  | nil =>
    obtain rfl := Option.some.inj first
    exact (and_iff_right trivial).symm
  | cons e es ih =>
    obtain ⟨m, head, tail⟩ := run_cons_inv first
    rw [List.cons_append, meets_cons head, meets_cons head, ih tail, and_assoc]

/-- A run whose steps meet `ok` goes from `s` to `t`. -/
def Leads (step : σ → ε → Option σ) (ok : σ → ε → Prop) (s t : σ) : Prop :=
  ∃ es, Meets step ok s es ∧ run step s es = some t

namespace Leads
variable {ok : σ → ε → Prop} {s t u : σ}

theorem refl (s : σ) : Leads step ok s s := ⟨[], trivial, rfl⟩

theorem single {e : ε} (met : ok s e) (next : step s e = some t) : Leads step ok s t :=
  ⟨[e], (meets_cons next).mpr ⟨met, trivial⟩, (run_singleton step s e).trans next⟩

theorem trans (first : Leads step ok s t) (second : Leads step ok t u) : Leads step ok s u := by
  obtain ⟨es, before, reached⟩ := first
  obtain ⟨fs, after, ran⟩ := second
  exact ⟨es ++ fs, (meets_append reached).mpr ⟨before, after⟩, run_append reached ran⟩

end Leads

end Transition
