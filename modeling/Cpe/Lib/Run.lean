import Mathlib.Data.List.Basic

/-! # Runs of a step function

A run folds a step function over a list of events. Two things are said of a
run: what holds in every state it passes through (`Throughout`) and what every
event meets in the state it arrives in (`EachStep`). An invariant gives the
first; a step lemma with an exact condition makes the two equivalent. -/
namespace Cpe.Lib.Run

variable {σ ε : Type}

def run (step : σ → ε → σ) (s : σ) (es : List ε) : σ := es.foldl step s

/-- `P` holds in every state of the run, the first and the last included. -/
def Throughout (step : σ → ε → σ) (P : σ → Prop) (s : σ) (es : List ε) : Prop :=
  ∀ pre post, es = pre ++ post → P (run step s pre)

/-- Every event of the run meets `C` in the state it arrives in. -/
def EachStep (step : σ → ε → σ) (C : σ → ε → Prop) (s : σ) (es : List ε) : Prop :=
  ∀ pre e post, es = pre ++ e :: post → C (run step s pre) e

section
variable {step : σ → ε → σ} {P Q : σ → Prop} {C : σ → ε → Prop} {s : σ} {e : ε} {es : List ε}

@[simp] theorem run_nil : run step s [] = s := rfl

@[simp] theorem run_cons : run step s (e :: es) = run step (step s e) es := rfl

theorem run_append (es' : List ε) :
    run step s (es ++ es') = run step (run step s es) es' := List.foldl_append

theorem throughout_nil : Throughout step P s [] ↔ P s := by
  constructor
  · intro h; exact h [] [] rfl
  · intro h pre post he
    obtain ⟨rfl, rfl⟩ := List.append_eq_nil_iff.mp he.symm
    exact h

theorem throughout_cons :
    Throughout step P s (e :: es) ↔ P s ∧ Throughout step P (step s e) es := by
  constructor
  · intro h
    refine ⟨h [] (e :: es) rfl, ?_⟩
    intro pre post he
    exact h (e :: pre) post (by rw [he]; rfl)
  · rintro ⟨h0, ht⟩ pre post he
    cases pre with
    | nil => exact h0
    | cons x pre =>
      obtain ⟨rfl, htail⟩ := List.cons.inj he
      exact ht pre post htail

theorem eachStep_nil : EachStep step C s [] := by
  intro pre e post he
  simp at he

theorem eachStep_cons :
    EachStep step C s (e :: es) ↔ C s e ∧ EachStep step C (step s e) es := by
  constructor
  · intro h
    refine ⟨h [] e es rfl, ?_⟩
    intro pre x post he
    exact h (e :: pre) x post (by rw [he]; rfl)
  · rintro ⟨h0, ht⟩ pre x post he
    cases pre with
    | nil =>
      obtain ⟨rfl, rfl⟩ := List.cons.inj he
      exact h0
    | cons y pre =>
      obtain ⟨rfl, htail⟩ := List.cons.inj he
      exact ht pre x post htail

theorem eachStep_append {es' : List ε} :
    EachStep step C s (es ++ es') ↔ EachStep step C s es ∧ EachStep step C (run step s es) es' := by
  induction es generalizing s with
  | nil => rw [List.nil_append, and_iff_right eachStep_nil, run_nil]
  | cons x xs ih => rw [List.cons_append, eachStep_cons, eachStep_cons, ih, run_cons, and_assoc]

/-- An invariant holds throughout every run. -/
theorem throughout_of_step (h0 : P s) (hstep : ∀ s e, P s → P (step s e)) :
    Throughout step P s es := by
  induction es generalizing s with
  | nil => exact throughout_nil.mpr h0
  | cons e es ih => exact throughout_cons.mpr ⟨h0, ih (hstep s e h0)⟩

theorem run_of_step (h0 : P s) (hstep : ∀ s e, P s → P (step s e)) : P (run step s es) :=
  throughout_of_step h0 hstep es [] (List.append_nil es).symm

theorem EachStep.of_throughout (h : Throughout step P s es) (hc : ∀ s e, P s → C s e) :
    EachStep step C s es :=
  fun pre e post he => hc _ _ (h pre (e :: post) he)

theorem Throughout.and :
    Throughout step (fun s => P s ∧ Q s) s es ↔ Throughout step P s es ∧ Throughout step Q s es :=
  ⟨fun h => ⟨fun pre post he => (h pre post he).1, fun pre post he => (h pre post he).2⟩,
    fun h pre post he => ⟨h.1 pre post he, h.2 pre post he⟩⟩

/-- **The exact rule.** Under an invariant `Q`, when a step from a `P` state
leads to a `P` state exactly if its event meets `C`, then `P` holds throughout
a run exactly if it holds at the start and every event of the run meets `C`. -/
theorem throughout_iff_eachStep (hq : Q s) (hinv : ∀ s e, Q s → Q (step s e))
    (hstep : ∀ s e, Q s → P s → (P (step s e) ↔ C s e)) :
    Throughout step P s es ↔ P s ∧ EachStep step C s es := by
  induction es generalizing s with
  | nil => rw [throughout_nil, and_iff_left eachStep_nil]
  | cons e es ih =>
    rw [throughout_cons, eachStep_cons, ih (hinv s e hq)]
    constructor
    · rintro ⟨hp, hp', hrest⟩
      exact ⟨hp, (hstep s e hq hp).mp hp', hrest⟩
    · rintro ⟨hp, hc, hrest⟩
      exact ⟨hp, (hstep s e hq hp).mpr hc, hrest⟩

/-- **The exact rule for two machines.** Two machines that read the same events
and stay related as long as the first meets its condition meet their
conditions together. -/
theorem eachStep_iff_eachStep {τ : Type} {step' : τ → ε → τ} {D : τ → ε → Prop} {t : τ}
    {R : σ → τ → Prop} (hr : R s t) (hcond : ∀ s t e, R s t → (C s e ↔ D t e))
    (hstep : ∀ s t e, R s t → C s e → R (step s e) (step' t e)) :
    EachStep step C s es ↔ EachStep step' D t es := by
  induction es generalizing s t with
  | nil => exact ⟨fun _ => eachStep_nil, fun _ => eachStep_nil⟩
  | cons e es ih =>
    rw [eachStep_cons, eachStep_cons, ← hcond s t e hr]
    constructor
    · rintro ⟨hc, hrest⟩
      exact ⟨hc, (ih (hstep s t e hr hc)).mp hrest⟩
    · rintro ⟨hc, hrest⟩
      exact ⟨hc, (ih (hstep s t e hr hc)).mpr hrest⟩

end

/-! ## Machines with outputs -/

section
variable {τ ι κ ω α ρ : Type}

/-- The outputs of a machine along its inputs, each with the state it leaves. -/
def outputs (step : σ → ι → ω × σ) : σ → List ι → List (ω × σ)
  | _, [] => []
  | s, i :: is => step s i :: outputs step (step s i).2 is

/-- **The lockstep rule.** Two machines that are given the two sides of the same
inputs and stay related, with the same outputs, show the same outputs and the
same views of their states along the whole run. -/
theorem outputs_lockstep {step : σ → ι → ω × σ} {step' : τ → κ → ω × τ} {R : σ → τ → Prop}
    {view : σ → ρ} {view' : τ → ρ} {f : α → ι} {g : α → κ} {s : σ} {t : τ} {xs : List α}
    (hr : R s t) (hview : ∀ s t, R s t → view s = view' t)
    (hstep : ∀ s t, ∀ x ∈ xs, R s t →
      (step s (f x)).1 = (step' t (g x)).1 ∧ R (step s (f x)).2 (step' t (g x)).2) :
    (outputs step s (xs.map f)).map (fun o => (o.1, view o.2)) =
      (outputs step' t (xs.map g)).map (fun o => (o.1, view' o.2)) := by
  induction xs generalizing s t with
  | nil => rfl
  | cons x xs ih =>
    obtain ⟨hout, hnext⟩ := hstep s t x List.mem_cons_self hr
    have hrest := ih hnext fun s t y hy => hstep s t y (List.mem_cons_of_mem x hy)
    simp only [List.map_cons, outputs, hout, hview _ _ hnext, hrest]

end

end Cpe.Lib.Run
