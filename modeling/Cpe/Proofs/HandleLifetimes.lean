import Cpe.Lib.Run
import Cpe.Proofs.HandleSteps

/-! # The lifetimes of handles

Which programs crash, and which keep the rule that the memory of a handle is
given back when the loop has closed it, and only then. -/
namespace Cpe.Proofs.HandleLifetimes
open Cpe.Lib.Run Cpe.Uvpp.Handle Cpe.Proofs.HandleSteps

variable {κ β : Type}

section
variable {w w' : World κ β} {op : Op κ β} {o : κ} {a : Nat}

/-! ## Safety -/

theorem step_running [DecidableEq κ] (hrun : w.crashed = false) (op : Op κ β) :
    w.step op = w.exec op := by
  rw [World.step, if_neg (by simp [hrun])]

end

/-- The test of `uv_is_closing` does not help an object that is closed twice. -/
example : (run World.step (World.empty : World Nat Nat)
    [.construct 0 .Timer true, .close 0 1, .close 0 2]).crashed = true := rfl

/-- Nor is an object of any use whose handle was refused. -/
example : (run World.step (World.empty : World Nat Nat)
    [.construct 0 .Poll false, .start 0 1 true]).crashed = true := rfl

end Cpe.Proofs.HandleLifetimes
