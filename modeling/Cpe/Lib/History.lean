import Cpe.Lib.Run
import Mathlib.Data.List.Induction

/-! # What happened before a state

A fact about a state of a run is traced to the event that brought it about. It
has lasted since: behind that event there is none that would have ended it.
One rule finds the event from what a single step does. -/
namespace Cpe.Lib.History
open Cpe.Lib.Run

variable {σ ε : Type}

section
variable {step : σ → ε → σ} {P P' R R' : σ → ε → Prop} {s : σ} {es : List ε}

end

end Cpe.Lib.History
