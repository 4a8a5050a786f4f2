import Cpe.Main.Process
import Cpe.Proofs.FrameTransport

/-! # The read loop

Nothing allocates the packet buffer, so the first frame ends the process. With
a buffer of `4 + PACK_MTU` bytes the loop would give every frame to the send
callback, in order. -/
namespace Cpe.Proofs.ReadLoop
open Cpe.Lib.ByteOrder Cpe.Lib.Run Cpe.Main Cpe.Proofs.FrameTransport

/-- There is a buffer for a length and a frame. -/
def Allocated (p : Process) : Prop := ∃ mem, p.buffer = some mem ∧ 4 + PACK_MTU ≤ mem.length

/-- A read event on a running process goes into an allocated buffer, does not
end the process, and makes one callback, with the length and the frame. -/
def Serves : Option Process → LoopEvent → Prop
  | some p, .readable frame behind =>
    Allocated p ∧ ∃ dest p', p.readEvent frame behind = some p' ∧
      p'.sent = p.sent ++ [(dest, bytes32 (BitVec.ofNat 32 frame.bytes.length) ++ frame.bytes)]
  | _, _ => True

/-- The event is no frame for a running process. -/
def NoRead : Option Process → LoopEvent → Prop
  | some _, .readable _ _ => False
  | _, _ => True

/-- The process has no buffer, if it runs at all. -/
def Unallocated (state : Option Process) : Prop := ∀ p, state = some p → p.buffer = none

section
variable {pf : Platform} {write : Bytes → Int}

theorem readEvent_of_none {p : Process} (h : p.buffer = none) (frame : Frame) (behind : Ptr) :
    p.readEvent frame behind = none := by
  rw [Process.readEvent, h]
  rfl

/-- No callback allocates the buffer. -/
theorem unallocated_step (state : Option Process) (e : LoopEvent) (h : Unallocated state) :
    Unallocated (Process.step pf write state e) := by
  cases state with
  | none => exact h
  | some p =>
    have hp : p.buffer = none := h p rfl
    intro p' hp'
    cases e with
    | readable frame behind =>
      rw [Process.step, readEvent_of_none hp] at hp'
      cases hp'
    | session data len =>
      cases hp'
      exact hp
    | route data len =>
      rw [Process.step] at hp'
      split at hp'
      · cases hp'
      · cases hp'
        exact hp

theorem unallocated_run (pf : Platform) (write : Bytes → Int) (server : Server)
    (es : List LoopEvent) :
    Unallocated (run (Process.step pf write) (some (Process.start server)) es) := by
  apply run_of_step
  · intro p hp
    cases hp
    rfl
  · exact unallocated_step

/-! ## With a buffer -/

/-- A read event with a buffer: one callback, and the buffer is still there. -/
theorem readEvent_of_allocated {p : Process} (h : Allocated p) (frame : Frame) (behind : Ptr) :
    ∃ dest p', p.readEvent frame behind = some p' ∧ Allocated p' ∧
      p'.sent = p.sent ++ [(dest, message frame.bytes)] := by
  obtain ⟨mem, hmem, hsize⟩ := h
  have hmax := frame.max_size
  have hread : readFrame frame.bytes PACK_MTU = some frame.bytes :=
    congrArg some (List.take_of_length_le hmax)
  obtain ⟨dest, s', hsent⟩ := onReadTunTap_eq p.server behind
    (show 4 + frame.bytes.length ≤ mem.length by omega) hread frame.min_size hmax
  have hfirst : (overwrite mem 4 frame.bytes).length = mem.length := overwrite_length (by omega)
  obtain ⟨mem', hmem', hsize'⟩ : ∃ mem', overwrite (overwrite mem 4 frame.bytes) 0
      (bytes32 (BitVec.ofNat 32 frame.bytes.length)) = mem' ∧ mem'.length = mem.length := by
    refine ⟨_, rfl, ?_⟩
    rw [overwrite_length (by rw [bytes32_length, hfirst]; omega), hfirst]
  rw [hmem'] at hsent
  refine ⟨dest, ⟨s', some mem', p.sent ++ [(dest, message frame.bytes)]⟩, ?_,
    ⟨mem', rfl, by omega⟩, rfl⟩
  rw [Process.readEvent, hmem, hsent]
  rfl

/-- **A loop with a buffer** makes one callback for each frame, in order. -/
theorem allocated_run {p : Process} (h : Allocated p) (frames : List (Frame × Ptr)) :
    ∃ p', run (Process.step pf write) (some p) (frames.map fun f => .readable f.1 f.2) = some p' ∧
      Allocated p' ∧
      p'.sent.map Prod.snd = p.sent.map Prod.snd ++ frames.map fun f => message f.1.bytes := by
  induction frames generalizing p with
  | nil => exact ⟨p, rfl, h, (List.append_nil _).symm⟩
  | cons f frames ih =>
    obtain ⟨dest, p', hstep, halloc, hsent⟩ := readEvent_of_allocated h f.1 f.2
    obtain ⟨q, hrun, hq, hall⟩ := ih halloc
    refine ⟨q, ?_, hq, ?_⟩
    · rw [List.map_cons, run_cons, Process.step, hstep, hrun]
    · rw [hall, hsent]
      simp

end

/-- Without a buffer, a read is not served. -/
theorem serves_iff_noRead {state : Option Process} (h : Unallocated state) (e : LoopEvent) :
    Serves state e ↔ NoRead state e := by
  cases state with
  | none => exact Iff.rfl
  | some p =>
    cases e with
    | readable frame behind =>
      have hp : p.buffer = none := h p rfl
      constructor
      · intro hserves
        obtain ⟨⟨mem, hmem, _⟩, _⟩ := hserves
        rw [hp] at hmem
        cases hmem
      · exact False.elim
    | session data len => exact Iff.rfl
    | route data len => exact Iff.rfl

/-- **The built loop serves the frames it reads** exactly if it reads none: if
no frame arrives while the process runs. -/
theorem loop_serves_iff (pf : Platform) (write : Bytes → Int) (fd id : U32) (config : MzConfig)
    (gatewayId : U32) (es : List LoopEvent) :
    EachStep (Process.step pf write) Serves
        (some (Process.start (started pf fd id config gatewayId))) es ↔
      EachStep (Process.step pf write) NoRead
        (some (Process.start (started pf fd id config gatewayId))) es := by
  have hstate := unallocated_run pf write (started pf fd id config gatewayId)
  constructor
  · intro h pre e post he
    exact (serves_iff_noRead (hstate pre) e).mp (h pre e post he)
  · intro h pre e post he
    exact (serves_iff_noRead (hstate pre) e).mpr (h pre e post he)

/-! ## The first packet -/

/-- A packet of 20 bytes. -/
def shortPacket : Frame where
  bytes := 0x45 :: List.replicate 19 0
  min_size := by decide
  max_size := by decide

/-- It is read into no buffer and ends the process. -/
theorem first_packet_ends_process :
    run (Process.step ⟨Cpe.Pro.wire, id⟩ accepting)
        (some (Process.start (started ⟨Cpe.Pro.wire, id⟩ 3 1 {} 9)))
        [.readable shortPacket fun _ => 0] = none ∧
      ¬ EachStep (Process.step ⟨Cpe.Pro.wire, id⟩ accepting) Serves
        (some (Process.start (started ⟨Cpe.Pro.wire, id⟩ 3 1 {} 9)))
        [.readable shortPacket fun _ => 0] := by
  refine ⟨rfl, ?_⟩
  intro h
  obtain ⟨⟨mem, hmem, _⟩, _⟩ := h [] (.readable shortPacket fun _ => 0) [] rfl
  cases hmem

end Cpe.Proofs.ReadLoop
