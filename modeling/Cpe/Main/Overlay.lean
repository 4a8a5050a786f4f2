import Cpe.Lib.Interleave
import Cpe.Main.Process

/-! # The overlay

Many nodes that send each other frames. A node is a process with what it has
written to its device. The library that carries the messages is outside of the
sources: what `FancyJingMsgSendToPeer` is given for an id it may hand to the
route callback of the nodes the id stands for, any number of times and in any
order, or lose. A callback is one step here, though the library runs in a
thread of its own. -/
namespace Cpe.Main
open Cpe.Lib.ByteOrder Cpe.Lib.MemoTable Cpe.Lib.Run Cpe.Lib.Interleave

/-- `ended` after an `exit`. -/
structure Node extends Process where
  written : List Bytes
  ended : Bool

/-- A callback of one node. `frame` is what the device has for the read, and
`write` the result of a write to it: a tun/tap device takes a packet whole, or
refuses it with a negative result. -/
inductive NodeEvent
  | readable (frame : Option Bytes) (behind : Ptr)
  | session (data : Ptr) (len : U32)
  | route (data : Ptr) (len : U32) (write : Bytes → Int)

def Node.onReadable (n : Node) (frame : Option Bytes) (behind : Ptr) : Node :=
  match n.server.onReadTunTap behind n.buffer fun count => frame.map (·.take count) with
  | none => { n with ended := true }
  | some (((dest, msg), server), mem) =>
    { n with server, buffer := some mem, sent := n.sent ++ [(dest, msg)] }

/-- What the device takes is written; a refused write ends the node. -/
def Node.onRoute (n : Node) (data : Ptr) (len : U32) (write : Bytes → Int) : Node :=
  let effect := n.server.recvRouteMsgCallback write data len
  if effect.exits then { n with ended := true }
  else { n with written := n.written ++ effect.written.toList }

def Node.react (pf : Platform) (n : Node) : NodeEvent → Node
  | .readable frame behind => n.onReadable frame behind
  | .session data len => { n with server := n.server.recvSessionMsgCallback pf data len }
  | .route data len write => n.onRoute data len write

def Node.step (pf : Platform) (n : Node) (e : NodeEvent) : Node :=
  if n.ended then n else n.react pf e

/-- A node that has not done anything yet. -/
def Node.start (server : Server) (buffer : Option Bytes) : Node :=
  { server, buffer, sent := [], written := [], ended := false }

/-- The process of a node, as long as it runs. -/
def Node.process? (n : Node) : Option Process := if n.ended then none else some n.toProcess

/-- The same callback of the process, for a frame that one read takes whole. -/
def LoopEvent.toNode (write : Bytes → Int) : LoopEvent → NodeEvent
  | .readable frame behind => .readable (some frame.bytes) behind
  | .session data len => .session data len
  | .route data len => .route data len write

/-- **A node runs as its process does.** -/
theorem process?_step (pf : Platform) (write : Bytes → Int) (n : Node) (e : LoopEvent) :
    (n.step pf (e.toNode write)).process? = Process.step pf write n.process? e := by
  obtain ⟨p, written, ended⟩ := n
  cases ended with
  | true =>
    rw [Node.step, if_pos rfl]
    rfl
  | false =>
    rw [Node.step, if_neg Bool.false_ne_true]
    cases e with
    | readable frame behind =>
      have hread : (fun count => (some frame.bytes).map (·.take count)) = readFrame frame.bytes :=
        rfl
      show Node.process? (Node.onReadable _ (some frame.bytes) behind) = p.readEvent frame behind
      rw [Node.onReadable, Process.readEvent, hread]
      cases p.server.onReadTunTap behind p.buffer (readFrame frame.bytes) with
      | none => rfl
      | some r => rfl
    | session data len => rfl
    | route data len =>
      show Node.process? (Node.onRoute _ data len write) =
        if (p.server.recvRouteMsgCallback write data len).exits then none else some p
      rw [Node.onRoute]
      by_cases hexits : (p.server.recvRouteMsgCallback write data len).exits = true
      · simp only [hexits, if_true, Node.process?]
      · simp only [hexits, Node.process?]
        rfl

/-! ## The network -/

variable {ι : Type}

/-- A callback of one node of the network. -/
def overlayStep [DecidableEq ι] (pf : Platform) : (ι → Node) → ι × NodeEvent → ι → Node :=
  familyStep (Node.step pf)

end Cpe.Main
