import Cpe.Main.Runs
import Cpe.Uvpp.TunTap

/-! # The calls behind the routes

The loops over the node table with the system calls they make, and the calls of
a whole run. `dev` is the name of the device. -/
namespace Cpe.Main
open Cpe.Lib.ByteOrder Cpe.Lib.CString Cpe.Lib.Number Cpe.Lib.Calls Cpe.Lib.Calls.Prog
open Cpe.Pro Cpe.Uvpp.TunTap

/-- The loop of `add_route_for_nodes` and `del_route_for_nodes`. What a call
returns is not looked at. -/
def Server.routeCalls (route : Bytes → Bytes → Bytes → Prog Sys Answer Int) (dev : Bytes)
    (s : Server) : Prog Sys Answer Unit :=
  s.cpes |> each fun node =>
    if atoi s.nodeId = node.nodeID then .ret ()
    else split node.nodeSubnet (str ",") |> each fun net =>
      match netMeta net with
      | none => .ret ()
      | some (subnet, netmask) =>
        (route dev subnet (valueToIP (bitsetMask netmask))).bind fun _ => .ret ()

def Server.addRouteCalls : Bytes → Server → Prog Sys Answer Unit :=
  Server.routeCalls Uvpp.TunTap.routeAddNet

def Server.delRouteCalls : Bytes → Server → Prog Sys Answer Unit :=
  Server.routeCalls Uvpp.TunTap.routeDelNet

/-- The calls of one statement group of `handle_mesh_notify`. -/
def Server.meshCalls (dev : Bytes) (s : Server) : MeshStep → Prog Sys Answer Unit
  | .clearAndCopy | .initCpes => .ret ()
  | .delRoutes => s.delRouteCalls dev
  | .addRoutes => s.addRouteCalls dev

/-- The calls of one event. -/
def Server.eventCalls (pf : Platform) (dev : Bytes) (s : Server) : Event → Prog Sys Answer Unit
  | .packet _ => .ret ()
  | .session data len =>
    match decodeSession pf data len with
    | .mesh true list => along (Server.meshCalls dev) (Server.meshStep pf list) s meshSteps
    | _ => .ret ()

/-- The calls of a run. -/
def Server.runCalls (pf : Platform) (dev : Bytes) : Server → List Event → Prog Sys Answer Unit :=
  along (Server.eventCalls pf dev) (Server.step pf)

/-! ## A kernel that does what it is asked -/

/-- A socket is not refused, nor a route that is not there yet, nor the removal
of one that is. -/
structure Obliges (os : Os) (c : Sys) (answer : Answer) : Prop where
  socket : c = .socket → 0 ≤ answer.code
  adds : ∀ fd dev dst genmask r, c = .ioctl fd (.SIOCADDRT dev dst genmask) →
    Route.of? dst genmask = some r → r ∉ os.net.routes dev → 0 ≤ answer.code
  deletes : ∀ fd dev dst genmask r, c = .ioctl fd (.SIOCDELRT dev dst genmask) →
    Route.of? dst genmask = some r → r ∈ os.net.routes dev → 0 ≤ answer.code

def Obliging (os : Os) (c : Sys) (answer : Answer) (os' : Os) : Prop :=
  KernelStep os c answer os' ∧ Obliges os c answer

end Cpe.Main
