import Cpe.Main.Overlay
import Cpe.Main.RouteCalls
import Cpe.Main.TapSetup

/-! # The calls of a process

`main` up to its loop with the system calls and the commands it makes, and those
of the loop behind it, which is a node without a packet buffer. What the library
of the channel calls by itself is not among them, nor the `read` and `write` of
a frame and what is closed when the process ends. -/
namespace Cpe.Main
open Cpe.Lib.ByteOrder Cpe.Lib.CString Cpe.Lib.MemoTable Cpe.Lib.Calls Cpe.Lib.Calls.Prog
open Cpe.Uvpp.TunTap

/-- What a process has when it comes to its loop. -/
structure StartUp (S : Type) where
  devName : Bytes
  server : Server
  files : Files S

section
variable {S : Type} [LibConfig S]

end

/-- The calls of one callback of the loop. -/
def Node.eventCalls (pf : Platform) (dev : Bytes) (n : Node) : NodeEvent → Prog Sys Answer Unit
  | .session data len =>
    if n.ended then .ret () else n.server.eventCalls pf dev (.session data (len.setWidth 16))
  | _ => .ret ()

def Node.runCalls (pf : Platform) (dev : Bytes) : Node → List NodeEvent → Prog Sys Answer Unit :=
  along (Node.eventCalls pf dev) (Node.step pf)

/-- All devices have addresses of six bytes. -/
def Addressed (net : Net) : Prop :=
  ∀ name i, net.interfaces name = some i → i.hwaddr.length = 6

/-- A change of a device, on which the routes may be different then. -/
def Net.Changed (name : Bytes) (f : Interface → Interface) (net net' : Net) : Prop :=
  ∃ routes, net' = (net.change name f).setRoutes name routes

end Cpe.Main
