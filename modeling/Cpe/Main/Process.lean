import Cpe.Main.Device
import Cpe.Main.Runs

/-! # The process

A server, the packet buffer it reads into, and what it has given to
`m_send_callback`. The loop is the one of libuv, which `server.h` turns on: the
device and the channel call back one at a time, and a callback that closes the
device ends the process. The buffer is the global pointer `buffer`; the array of
that name in `run` belongs to the other loop. -/
namespace Cpe.Main
open Cpe.Lib.ByteOrder Cpe.Lib.Run

structure Process where
  server : Server
  buffer : Option Bytes
  sent : List (U32 × Bytes)

/-- A frame of the sizes the read loop takes whole. -/
structure Frame where
  bytes : Bytes
  min_size : 20 ≤ bytes.length
  max_size : bytes.length ≤ PACK_MTU

/-- A callback of the loop. `behind` is the memory behind the message that is
made of a frame. -/
inductive LoopEvent
  | readable (frame : Frame) (behind : Ptr)
  | session (data : Ptr) (len : U32)
  | route (data : Ptr) (len : U32)

def Process.readEvent (p : Process) (frame : Frame) (behind : Ptr) : Option Process :=
  (p.server.onReadTunTap behind p.buffer (readFrame frame.bytes)).map fun r =>
    { server := r.1.2, buffer := some r.2, sent := p.sent ++ [r.1.1] }

/-- One callback; `none` is the end of the process. -/
def Process.step (pf : Platform) (write : Bytes → Int) : Option Process → LoopEvent → Option Process
  | none, _ => none
  | some p, .readable frame behind => p.readEvent frame behind
  | some p, .session data len =>
    some { p with server := p.server.recvSessionMsgCallback pf data len }
  | some p, .route data len =>
    if (p.server.recvRouteMsgCallback write data len).exits then none else some p

/-- What `main` starts. Nothing before the loop sets `buffer`. -/
def Process.start (server : Server) : Process := { server, buffer := none, sent := [] }

end Cpe.Main
