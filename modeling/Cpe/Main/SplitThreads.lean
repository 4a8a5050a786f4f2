import Cpe.Lib.Run
import Cpe.Main.Config
import Mathlib.Logic.Function.Basic

/-! # `split` on several threads

`strtok` keeps one cursor for the process. Each call of `split` makes a copy of
its text, starts `strtok` on it, goes on with the shared cursor until there is
no token, and deletes the copy; other calls may come between any two of these
steps. -/
namespace Cpe.Main
open Cpe.Lib.ByteOrder Cpe.Lib.CString Cpe.Lib.Run

/-- The arguments of a call of `split`. -/
structure SplitCall where
  str : Bytes
  pattern : Bytes

/-- Where a call is: before its first `strtok`, after one that gave a token,
after the one that gave none, and after `delete[]`. -/
inductive Progress
  | ready
  | scanning (resultVec : List Bytes)
  | ended (resultVec : List Bytes)
  | returned (resultVec : List Bytes)
deriving DecidableEq, Repr

variable {κ : Type}

/-- The cursor is in the copy of `owner`, or of a call of the past; `cursor` is
the text from there on. -/
structure Threads (κ : Type) where
  owner : Option κ
  cursor : Bytes
  progress : κ → Progress

def Threads.start : Threads κ := ⟨none, [], fun _ => .ready⟩

/-- The text `strtok(NULL, ..)` finds. A copy that is deleted holds anything. -/
def Threads.seen (deleted : Threads κ → Bytes) (t : Threads κ) : Bytes :=
  match t.owner with
  | none => deleted t
  | some k =>
    match t.progress k with
    | .returned _ => deleted t
    | _ => t.cursor

/-- A call that goes on in its own copy finds the text from the cursor on. -/
theorem seen_own {deleted : Threads κ → Bytes} {t : Threads κ} {who : κ}
    {resultVec : List Bytes} (h : t.progress who = .scanning resultVec)
    (howner : t.owner = some who) : t.seen deleted = t.cursor := by
  unfold Threads.seen
  rw [howner]
  simp only [h]

variable [DecidableEq κ]

/-- A `strtok` call on a text in the copy of `owner`, and the `push_back` of
its token. -/
def Threads.callStrtok (t : Threads κ) (who : κ) (owner : Option κ) (text pattern : Bytes)
    (resultVec : List Bytes) : Threads κ :=
  match strtok text (cstr pattern) with
  | some (tmpStr, rest) =>
    ⟨owner, rest, Function.update t.progress who (.scanning (resultVec ++ [tmpStr]))⟩
  | none => ⟨owner, [], Function.update t.progress who (.ended resultVec)⟩

def Threads.step (calls : κ → SplitCall) (deleted : Threads κ → Bytes) (t : Threads κ) (who : κ) :
    Threads κ :=
  match t.progress who with
  | .ready => t.callStrtok who (some who) (cstr (calls who).str) (calls who).pattern []
  | .scanning resultVec => t.callStrtok who t.owner (t.seen deleted) (calls who).pattern resultVec
  | .ended resultVec => { t with progress := Function.update t.progress who (.returned resultVec) }
  | .returned _ => t

/-- A call after `n` steps that no other call comes between. -/
def alone (calls : κ → SplitCall) (deleted : Threads κ → Bytes) (who : κ) (n : Nat) : Progress :=
  (run (Threads.step calls deleted) Threads.start (List.replicate n who)).progress who

end Cpe.Main
