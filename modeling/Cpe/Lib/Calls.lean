import Cpe.Lib.Run

/-! # Programs of calls

A program calls its environment and goes on with the answer. An environment is
a relation: for a state and a call, the answers it may give and the states it
may be in then. `wp p Q s` holds when every execution of `p` from `s` ends with
a result and a state in `Q`; it is computed call by call. -/
namespace Cpe.Lib.Calls
open Cpe.Lib.Run

inductive Prog (κ ρ α : Type)
  | ret (a : α)
  | call (c : κ) (next : ρ → Prog κ ρ α)

namespace Prog

variable {κ ρ α β : Type}

def bind : Prog κ ρ α → (α → Prog κ ρ β) → Prog κ ρ β
  | ret a, f => f a
  | call c next, f => call c fun r => (next r).bind f

instance : Monad (Prog κ ρ) where
  pure := ret
  bind := bind

/-- The call alone, with its answer. -/
def ask (c : κ) : Prog κ ρ ρ := call c ret

/-- One program for each input, one after the other, with the results. -/
def all {ι : Type} (f : ι → Prog κ ρ α) : List ι → Prog κ ρ (List α)
  | [] => ret []
  | x :: xs => (f x).bind fun a => (all f xs).bind fun as => ret (a :: as)

/-- A loop whose body gives no result. -/
def each {ι : Type} (f : ι → Prog κ ρ Unit) : List ι → Prog κ ρ Unit
  | [] => ret ()
  | x :: xs => (f x).bind fun _ => each f xs

/-- The programs that go with the steps of a run. -/
def along {τ ε : Type} (calls : τ → ε → Prog κ ρ Unit) (step : τ → ε → τ) :
    τ → List ε → Prog κ ρ Unit
  | _, [] => ret ()
  | t, e :: es => (calls t e).bind fun _ => along calls step (step t e) es

section
variable {σ : Type}

inductive Exec (env : σ → κ → ρ → σ → Prop) : σ → Prog κ ρ α → α → σ → Prop
  | ret (s : σ) (a : α) : Exec env s (.ret a) a s
  | call {s s₁ s' : σ} {c : κ} {r : ρ} {next : ρ → Prog κ ρ α} {a : α} (answer : env s c r s₁)
    (rest : Exec env s₁ (next r) a s') : Exec env s (.call c next) a s'

def wp (env : σ → κ → ρ → σ → Prop) : Prog κ ρ α → (α → σ → Prop) → σ → Prop
  | ret a, Q, s => Q a s
  | call c next, Q, s => ∀ r s', env s c r s' → wp env (next r) Q s'

variable {env : σ → κ → ρ → σ → Prop} {Q Q' : α → σ → Prop} {s : σ}

/-- **`wp` says what executions do.** -/
theorem wp_iff_exec {p : Prog κ ρ α} :
    wp env p Q s ↔ ∀ a s', Exec env s p a s' → Q a s' := by
  induction p generalizing s with
  | ret a =>
    constructor
    · intro h a' s' hexec
      cases hexec
      exact h
    · intro h
      exact h a s (.ret s a)
  | call c next ih =>
    constructor
    · intro h a s' hexec
      cases hexec with
      | call answer rest => exact (ih _).mp (h _ _ answer) a s' rest
    · intro h r s₁ answer
      exact (ih r).mpr fun a s' rest => h a s' (.call answer rest)

@[simp] theorem wp_ret (a : α) : wp env (.ret a) Q s ↔ Q a s := Iff.rfl

@[simp] theorem wp_call (c : κ) (next : ρ → Prog κ ρ α) :
    wp env (.call c next) Q s ↔ ∀ r s', env s c r s' → wp env (next r) Q s' := Iff.rfl

@[simp] theorem wp_ask (c : κ) {Q : ρ → σ → Prop} :
    wp env (ask c) Q s ↔ ∀ r s', env s c r s' → Q r s' := Iff.rfl

theorem wp_bind {p : Prog κ ρ α} {f : α → Prog κ ρ β} {Q : β → σ → Prop} :
    wp env (p.bind f) Q s ↔ wp env p (fun a => wp env (f a) Q) s := by
  induction p generalizing s with
  | ret a => exact Iff.rfl
  | call c next ih => exact forall₂_congr fun r s' => imp_congr_right fun _ => ih r

@[simp] theorem wp_bind' {p : Prog κ ρ α} {f : α → Prog κ ρ β} {Q : β → σ → Prop} :
    wp env (p >>= f) Q s ↔ wp env p (fun a => wp env (f a) Q) s := wp_bind

/-- The rule of consequence. -/
theorem wp_mono {p : Prog κ ρ α} (h : wp env p Q s) (hQ : ∀ a s, Q a s → Q' a s) :
    wp env p Q' s := by
  rw [wp_iff_exec] at h ⊢
  exact fun a s' hexec => hQ a s' (h a s' hexec)

/-- A loop does what a fold does, when its body does what the folded step does. -/
theorem wp_each {ι τ : Type} {f : ι → Prog κ ρ Unit} {g : τ → ι → τ} {R : σ → τ → Prop}
    (hf : ∀ x s t, R s t → wp env (f x) (fun _ s' => R s' (g t x)) s) (xs : List ι) {t : τ}
    (h : R s t) : wp env (each f xs) (fun _ s' => R s' (xs.foldl g t)) s := by
  induction xs generalizing s t with
  | nil => exact h
  | cons x xs ih => exact wp_bind.mpr (wp_mono (hf x s t h) fun _ s₁ h₁ => ih h₁)

/-- Programs that do what the steps do, do along a run what the run does. -/
theorem wp_along {τ ε : Type} {calls : τ → ε → Prog κ ρ Unit} {step : τ → ε → τ} {R : σ → τ → Prop}
    (hstep : ∀ t e s, R s t → wp env (calls t e) (fun _ s' => R s' (step t e)) s) {s : σ} {t : τ}
    (h : R s t) (es : List ε) :
    wp env (along calls step t es) (fun _ s' => R s' (run step t es)) s := by
  induction es generalizing s t with
  | nil => exact h
  | cons e es ih => exact wp_bind.mpr (wp_mono (hstep t e s h) fun _ s₁ h₁ => ih h₁)

end

end Prog

end Cpe.Lib.Calls
