import Cpe.Lib.Interleave

/-! # What a run puts out

Each step of a machine puts out a list of things, and a run puts them out one
step behind the other. A log that each step extends by what it puts out is
extended by a run in the same way. -/
namespace Cpe.Lib.Trace
open Cpe.Lib.Run

variable {σ ε ω α : Type}

def trace (out : σ → ε → List ω) (step : σ → ε → σ) : σ → List ε → List ω
  | _, [] => []
  | s, e :: es => out s e ++ trace out step (step s e) es

section
variable {out : σ → ε → List ω} {step : σ → ε → σ} {s : σ}

@[simp] theorem trace_nil : trace out step s [] = [] := rfl

@[simp] theorem trace_cons (e : ε) (es : List ε) :
    trace out step s (e :: es) = out s e ++ trace out step (step s e) es := rfl

/-- What a run puts out one of its steps has put out. -/
theorem mem_trace {es : List ε} {o : ω} (h : o ∈ trace out step s es) : ∃ s e, o ∈ out s e := by
  induction es generalizing s with
  | nil => cases h
  | cons e es ih =>
    rcases List.mem_append.mp h with hnow | hlater
    · exact ⟨s, e, hnow⟩
    · exact ih hlater

/-- Outputs that are the images of others step by step are their images. -/
theorem trace_map {out' : σ → ε → List α} {I : σ → Prop} {C : σ → ε → Prop} {f : α → ω}
    (hs : I s) (hinv : ∀ s e, I s → C s e → I (step s e))
    (hout : ∀ s e, I s → out s e = (out' s e).map f) {es : List ε} (hc : EachStep step C s es) :
    trace out step s es = (trace out' step s es).map f := by
  induction es generalizing s with
  | nil => rfl
  | cons e es ih =>
    obtain ⟨he, hrest⟩ := eachStep_cons.mp hc
    rw [trace_cons, trace_cons, List.map_append, hout s e hs, ih (hinv s e hs he) hrest]

/-- **The rule for logs.** What a log has more behind a run is what the run has
put out, if steps that put out nothing wrong extend it so. -/
theorem run_log {log : σ → List α} {I : σ → Prop} {P : ω → Prop} {f : ω → α} (hs : I s)
    (hinv : ∀ s e, I s → I (step s e))
    (hlog : ∀ s e, I s → (∀ o ∈ out s e, P o) → log (step s e) = log s ++ (out s e).map f)
    {es : List ε} (h : ∀ o ∈ trace out step s es, P o) :
    log (run step s es) = log s ++ (trace out step s es).map f := by
  induction es generalizing s with
  | nil => rw [run_nil, trace_nil, List.map_nil, List.append_nil]
  | cons e es ih =>
    obtain ⟨hnow, hlater⟩ := List.forall_mem_append.mp h
    rw [run_cons, ih (hinv s e hs) hlater, hlog s e hs hnow, trace_cons, List.map_append,
      List.append_assoc]

end

end Cpe.Lib.Trace
