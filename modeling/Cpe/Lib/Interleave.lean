import Cpe.Lib.Run
import Mathlib.Logic.Function.Basic

/-! # Interleavings of sequences of atomic steps

An interleaving of the steps `xs` of one thread with the steps of another is a
list of tagged steps whose left parts are `xs`, in order. A run of the
interleaving is projected to the part of the state that only the left steps
change, and split at the left steps. A family of machines takes steps in any
order, each in its own state. -/
namespace Cpe.Lib.Interleave
open Cpe.Lib.Run

variable {α β σ τ : Type}

def lefts (zs : List (α ⊕ β)) : List α := zs.filterMap Sum.getLeft?

/-- `zs` interleaves the left steps `xs`, in order, with any right steps. -/
def Interleaves (xs : List α) (zs : List (α ⊕ β)) : Prop := lefts zs = xs

@[simp] theorem lefts_nil : lefts ([] : List (α ⊕ β)) = [] := rfl

@[simp] theorem lefts_inl (x : α) (zs : List (α ⊕ β)) :
    lefts (.inl x :: zs) = x :: lefts zs := rfl

@[simp] theorem lefts_inr (y : β) (zs : List (α ⊕ β)) : lefts (.inr y :: zs) = lefts zs := rfl

@[simp] theorem lefts_append (zs zs' : List (α ⊕ β)) :
    lefts (zs ++ zs') = lefts zs ++ lefts zs' := List.filterMap_append

/-- What the left thread has done when the interleaving reaches a point is an
initial part of its steps. -/
theorem Interleaves.lefts_initial {xs : List α} {zs pre post : List (α ⊕ β)} (h : Interleaves xs zs)
    (hz : zs = pre ++ post) : lefts pre <+: xs := by
  refine ⟨lefts post, ?_⟩
  rw [← lefts_append, ← hz]
  exact h

/-- An interleaving begins with right steps, up to the first left step. -/
theorem Interleaves.split {x : α} {xs : List α} {zs : List (α ⊕ β)}
    (h : Interleaves (x :: xs) zs) :
    ∃ (ys : List β) (rest : List (α ⊕ β)), zs = ys.map .inr ++ .inl x :: rest ∧
      Interleaves xs rest := by
  unfold Interleaves at h
  induction zs with
  | nil => simp at h
  | cons z zs ih =>
    cases z with
    | inl a =>
      obtain ⟨rfl, ht⟩ := List.cons.inj h
      exact ⟨[], zs, rfl, ht⟩
    | inr b =>
      obtain ⟨ys, rest, rfl, hr⟩ := ih h
      exact ⟨b :: ys, rest, rfl, hr⟩

theorem Interleaves.rest {zs : List (α ⊕ β)} (h : Interleaves [] zs) :
    ∃ ys : List β, zs = ys.map .inr := by
  unfold Interleaves at h
  induction zs with
  | nil => exact ⟨[], rfl⟩
  | cons z zs ih =>
    cases z with
    | inl a => simp at h
    | inr b =>
      obtain ⟨ys, rfl⟩ := ih h
      exact ⟨b :: ys, rfl⟩

/-- A part of the state that the right steps leave alone, and that the left
steps change by `f`, is what the left steps alone make of it. -/
theorem run_proj {step : σ → α ⊕ β → σ} {f : τ → α → τ} (π : σ → τ)
    (hl : ∀ s x, π (step s (.inl x)) = f (π s) x) (hr : ∀ s y, π (step s (.inr y)) = π s)
    (s : σ) (zs : List (α ⊕ β)) : π (run step s zs) = run f (π s) (lefts zs) := by
  induction zs generalizing s with
  | nil => rfl
  | cons z zs ih =>
    rw [run_cons, ih]
    cases z with
    | inl x => rw [hl, lefts_inl, run_cons]
    | inr y => rw [hr, lefts_inr]

/-- A run of right steps only is a run of the right thread. -/
theorem run_rights {step : σ → α ⊕ β → σ} (s : σ) (ys : List β) :
    run step s (ys.map .inr) = run (fun s y => step s (.inr y)) s ys :=
  List.foldl_map

/-- The right steps that are taken when the left steps taken before, `done`
included, satisfy `P`. -/
def rightsWhen (P : List α → Bool) (done : List α) : List (α ⊕ β) → List β
  | [] => []
  | .inl x :: zs => rightsWhen P (done ++ [x]) zs
  | .inr y :: zs => if P done then y :: rightsWhen P done zs else rightsWhen P done zs

section
variable (P : List α → Bool) (done : List α)

@[simp] theorem rightsWhen_nil : rightsWhen P done ([] : List (α ⊕ β)) = [] := rfl

@[simp] theorem rightsWhen_inl (x : α) (zs : List (α ⊕ β)) :
    rightsWhen P done (.inl x :: zs) = rightsWhen P (done ++ [x]) zs := rfl

/-- A block of right steps is taken as a whole or not at all. -/
@[simp] theorem rightsWhen_block (ys : List β) (zs : List (α ⊕ β)) :
    rightsWhen P done (ys.map .inr ++ zs) = (if P done then ys else []) ++ rightsWhen P done zs := by
  induction ys with
  | nil => simp
  | cons y ys ih =>
    rw [List.map_cons, List.cons_append, rightsWhen, ih]
    split
    · rfl
    · rfl

@[simp] theorem rightsWhen_last (ys : List β) :
    rightsWhen P done (ys.map .inr : List (α ⊕ β)) = if P done then ys else [] := by
  have hblock := rightsWhen_block P done ys ([] : List (α ⊕ β))
  rw [List.append_nil, rightsWhen_nil, List.append_nil] at hblock
  exact hblock

end

/-! ## Many machines -/

section
variable {ι ε : Type} [DecidableEq ι]

/-- One machine of a family takes a step. -/
def familyStep (step : σ → ε → σ) (family : ι → σ) (act : ι × ε) : ι → σ :=
  Function.update family act.1 (step (family act.1) act.2)

/-- What holds of each machine still does when the machine of the act keeps it. -/
theorem familyStep_forall {step : σ → ε → σ} {family : ι → σ} {act : ι × ε} {I : ι → σ → Prop}
    (h : ∀ i, I i (family i)) (hact : I act.1 (step (family act.1) act.2)) (i : ι) :
    I i (familyStep step family act i) := by
  by_cases hi : i = act.1
  · rw [hi, familyStep, Function.update_self]
    exact hact
  · rw [familyStep, Function.update_of_ne hi]
    exact h i

/-- The events of one machine, in order. -/
def eventsOf (i : ι) (acts : List (ι × ε)) : List ε :=
  acts.filterMap fun act => if act.1 = i then some act.2 else none

@[simp] theorem eventsOf_nil (i : ι) : eventsOf i ([] : List (ι × ε)) = [] := rfl

@[simp] theorem eventsOf_self (i : ι) (e : ε) (acts : List (ι × ε)) :
    eventsOf i ((i, e) :: acts) = e :: eventsOf i acts := by
  simp [eventsOf]

theorem eventsOf_other {i j : ι} (h : j ≠ i) (e : ε) (acts : List (ι × ε)) :
    eventsOf i ((j, e) :: acts) = eventsOf i acts := by
  simp [eventsOf, h]

/-- **Each machine runs on its own events**, whatever the others do. -/
theorem run_familyStep (step : σ → ε → σ) (family : ι → σ) (acts : List (ι × ε)) (i : ι) :
    run (familyStep step) family acts i = run step (family i) (eventsOf i acts) := by
  induction acts generalizing family with
  | nil => rfl
  | cons act acts ih =>
    obtain ⟨j, e⟩ := act
    rw [run_cons, ih]
    by_cases hj : j = i
    · subst hj
      rw [eventsOf_self, run_cons, familyStep, Function.update_self]
    · rw [eventsOf_other hj, familyStep, Function.update_of_ne (Ne.symm hj)]

end

end Cpe.Lib.Interleave
