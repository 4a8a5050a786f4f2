import Cpe.Lib.ByteOrder

/-! # Programs that read memory

A program reads one byte after the other, and the offset of each may depend on
the bytes before it. Its result depends on nothing else: two memories that agree
at the offsets it reads give the same result. -/
namespace Cpe.Lib.Access
open Cpe.Lib.ByteOrder

variable {α β : Type}

inductive Reads (α : Type)
  | done (a : α)
  | byte (off : Nat) (next : Byte → Reads α)

def Reads.run : Reads α → Ptr → α
  | .done a, _ => a
  | .byte off next, mem => (next (mem off)).run mem

/-- The offsets read in a memory, in order. -/
def Reads.offsets : Reads α → Ptr → List Nat
  | .done _, _ => []
  | .byte off next, mem => off :: (next (mem off)).offsets mem

def Reads.bind : Reads α → (α → Reads β) → Reads β
  | .done a, f => f a
  | .byte off next, f => .byte off fun b => (next b).bind f

instance : Monad Reads where
  pure := .done
  bind := .bind

/-- Every offset that is read is below `n`. -/
def Reads.Within (p : Reads α) (mem : Ptr) (n : Nat) : Prop := ∀ off ∈ p.offsets mem, off < n

@[simp] theorem run_pure (a : α) (mem : Ptr) : (pure a : Reads α).run mem = a := rfl

@[simp] theorem offsets_pure (a : α) (mem : Ptr) : (pure a : Reads α).offsets mem = [] := rfl

@[simp] theorem run_bind (p : Reads α) (f : α → Reads β) (mem : Ptr) :
    (p >>= f).run mem = (f (p.run mem)).run mem := by
  induction p with
  | done a => rfl
  | byte off next ih => exact ih (mem off)

@[simp] theorem offsets_bind (p : Reads α) (f : α → Reads β) (mem : Ptr) :
    (p >>= f).offsets mem = p.offsets mem ++ (f (p.run mem)).offsets mem := by
  induction p with
  | done a => rfl
  | byte off next ih => exact congrArg (off :: ·) (ih (mem off))

/-- **Only the bytes read matter**, for the result and for the offsets. -/
theorem run_congr {p : Reads α} {mem mem' : Ptr}
    (h : ∀ off ∈ p.offsets mem, mem off = mem' off) :
    p.run mem = p.run mem' ∧ p.offsets mem = p.offsets mem' := by
  induction p with
  | done a => exact ⟨rfl, rfl⟩
  | byte off next ih =>
    have hoff : mem off = mem' off := h off List.mem_cons_self
    obtain ⟨hrun, hoffsets⟩ := ih (mem off) fun i hi => h i (List.mem_cons_of_mem _ hi)
    unfold Reads.run Reads.offsets
    rw [← hoff]
    exact ⟨hrun, congrArg (off :: ·) hoffsets⟩

theorem Reads.Within.run_eq {p : Reads α} {mem mem' : Ptr} {n : Nat} (h : p.Within mem n)
    (hagree : ∀ i, i < n → mem i = mem' i) : p.run mem = p.run mem' :=
  (run_congr fun off hoff => hagree off (h off hoff)).1

/-! ## Readers -/

def peek (off : Nat) : Reads Byte := .byte off .done

def load16 (off : Nat) : Reads U16 := do
  let b0 ← peek off
  let b1 ← peek (off + 1)
  return le16 b0 b1

def load32 (off : Nat) : Reads U32 := do
  let b0 ← peek off
  let b1 ← peek (off + 1)
  let b2 ← peek (off + 2)
  let b3 ← peek (off + 3)
  return le32 b0 b1 b2 b3

def slice (off : Nat) : Nat → Reads Bytes
  | 0 => return []
  | n + 1 => do
    let b ← peek off
    let bs ← slice (off + 1) n
    return b :: bs

@[simp] theorem run_peek (off : Nat) (mem : Ptr) : (peek off).run mem = mem off := rfl

@[simp] theorem offsets_peek (off : Nat) (mem : Ptr) : (peek off).offsets mem = [off] := rfl

@[simp] theorem run_load16 (off : Nat) (mem : Ptr) : (load16 off).run mem = mem.load16 off := rfl

@[simp] theorem offsets_load16 (off : Nat) (mem : Ptr) :
    (load16 off).offsets mem = List.range' off 2 := rfl

@[simp] theorem run_load32 (off : Nat) (mem : Ptr) : (load32 off).run mem = mem.load32 off := rfl

@[simp] theorem offsets_load32 (off : Nat) (mem : Ptr) :
    (load32 off).offsets mem = List.range' off 4 := rfl

@[simp] theorem offsets_slice (off n : Nat) (mem : Ptr) :
    (slice off n).offsets mem = List.range' off n := by
  induction n generalizing off with
  | zero => rfl
  | succ n ih =>
    rw [slice, offsets_bind, offsets_bind, ih, List.range'_succ]
    simp

@[simp] theorem run_slice (off n : Nat) (mem : Ptr) : (slice off n).run mem = mem.slice off n := by
  induction n generalizing off with
  | zero => rfl
  | succ n ih =>
    rw [slice, run_bind, run_bind, ih, run_peek, run_pure]
    unfold Ptr.slice
    rw [List.range_succ_eq_map, List.map_cons, List.map_map]
    refine congrArg (mem off :: ·) (List.map_congr_left ?_)
    intro i _
    exact congrArg mem (by omega)

end Cpe.Lib.Access
