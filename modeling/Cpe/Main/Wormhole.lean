import Cpe.Main.Config
import Mathlib.Logic.Function.Basic

/-! # Starting and stopping the channel

`start` and `destroy` of `main.cpp` as threads that interleave. A step of a
thread is a call of the channel's library or an assignment; beside them the
network thread runs the library, and the loop sends by it once a `start` has
returned and `send_cb` is registered. The library is known by the order of its
calls. -/
namespace Cpe.Main
open Cpe.Lib.ByteOrder Cpe.Lib.Number Cpe.Lib.InetAddr

/-! ## The library -/

inductive ApiCall
  | FancyJingMsgVersion
  | FancyJingMsgInit (uid virIP mode : U32)
  | FancyJingMsgAddConnAddr (localIp serverIp : Bytes) (port upBw downBw : U16) (priority : Byte)
  | FancyJingMsgRegisterRecvSessionDataCallback
  | FancyJingMsgRegisterRecvRouteDataCallback
  | FancyJingMsgRegisterConnCallback
  | FancyJingMsgRun
  | FancyJingMsgSendToPeer (dest : U32) (data : Bytes)
  | FancyJingMsgStop
  | FancyJingMsgRelease
deriving DecidableEq, Repr

/-- What happens to the library: a call, or the end of `FancyJingMsgRun`. -/
inductive ApiEvent
  | call (c : ApiCall)
  | runReturns
deriving DecidableEq, Repr

/-- The `int`s that `atoi` gives are cut to the widths of the parameters. -/
def TunnelInfo.addConnAddr (t : TunnelInfo) : ApiCall :=
  .FancyJingMsgAddConnAddr t.localIp t.serverIp ((atoi t.serverPort).setWidth 16)
    ((atoi t.upBw).setWidth 16) ((atoi t.downBw).setWidth 16) ((atoi t.priority).setWidth 8)

/-- The calls that `start` makes before there is a network thread. The mode is
kept in 16 bits in between. -/
def MzConfig.setup (config : MzConfig) : List ApiCall :=
  .FancyJingMsgVersion ::
    .FancyJingMsgInit config.userID (htonl (inetAddr config.userIP))
      ((config.connectMode.setWidth 16).setWidth 32) ::
    (config.tunnelList.map TunnelInfo.addConnAddr ++
      [.FancyJingMsgRegisterRecvSessionDataCallback, .FancyJingMsgRegisterRecvRouteDataCallback,
        .FancyJingMsgRegisterConnCallback])

/-! ## Threads -/

inductive NetThread
  | created
  | running
  | finished
deriving DecidableEq, Repr

/-- Where a thread is in `start` or `destroy`. -/
inductive Place
  | outside
  | startLocked (config : MzConfig)
  | calling (config : MzConfig) (left : List ApiCall)
  | spawned
  | destroyLocked
  | stopped
  | joined
  | released
deriving DecidableEq, Repr

/-- The globals, the places of the threads, whether a `start` has returned and
`send_cb` is registered, and what has happened to the library. -/
structure Wormhole (ι : Type) where
  lock : Option ι
  networkThread : Option NetThread
  connected : Bool
  place : ι → Place
  started : Bool
  sendFunc : Bool
  events : List ApiEvent

inductive Action (ι : Type)
  | enterStart (i : ι) (config : MzConfig)
  | enterDestroy (i : ι)
  | next (i : ι)
  | runs
  | returns
  | registers
  | sends (dest : U32) (data : Bytes)

section
variable {ι : Type} [DecidableEq ι]

def Wormhole.goto (w : Wormhole ι) (i : ι) (p : Place) : Wormhole ι :=
  { w with place := Function.update w.place i p }

def Wormhole.note (w : Wormhole ι) (e : ApiEvent) : Wormhole ι :=
  { w with events := w.events ++ [e] }

/-- The end of the function, where the lock is given back. -/
def Wormhole.leave (w : Wormhole ι) (i : ι) : Wormhole ι := { w.goto i .outside with lock := none }

/-- The function is entered behind the lock. -/
def Wormhole.enter (w : Wormhole ι) (i : ι) (p : Place) : Option (Wormhole ι) :=
  if w.lock = none ∧ w.place i = .outside then some { w.goto i p with lock := some i } else none

/-- The next statement of a thread; `none` while it waits. -/
def Wormhole.next (w : Wormhole ι) (i : ι) : Option (Wormhole ι) :=
  match w.place i with
  | .outside => none
  -- `start`
  | .startLocked config =>
    if w.networkThread ≠ none then some { w.leave i with started := true }
    else some (w.goto i (.calling config config.setup))
  | .calling config (c :: left) => some ((w.note (.call c)).goto i (.calling config left))
  | .calling _ [] => some { w.goto i .spawned with networkThread := some .created }
  | .spawned => some { w.leave i with connected := true, started := true }
  -- `destroy`
  | .destroyLocked =>
    if w.connected then some ((w.note (.call .FancyJingMsgStop)).goto i .stopped)
    else some (w.leave i)
  | .stopped =>
    match w.networkThread with
    | none => some (w.goto i .joined)
    | some .finished => some { w.goto i .joined with networkThread := none }
    | some _ => none
  | .joined => some ((w.note (.call .FancyJingMsgRelease)).goto i .released)
  | .released => some { w.leave i with connected := false }

def Wormhole.step (w : Wormhole ι) : Action ι → Option (Wormhole ι)
  | .enterStart i config => w.enter i (.startLocked config)
  | .enterDestroy i => w.enter i .destroyLocked
  | .next i => w.next i
  | .runs =>
    if w.networkThread = some .created then
      some { w.note (.call .FancyJingMsgRun) with networkThread := some .running }
    else none
  | .returns =>
    if w.networkThread = some .running then
      some { w.note .runReturns with networkThread := some .finished }
    else none
  | .registers => if w.started then some { w with sendFunc := true } else none
  -- `send_cb` takes no lock and looks at none of the globals
  | .sends dest data =>
    if w.sendFunc then some (w.note (.call (.FancyJingMsgSendToPeer dest data))) else none

end

/-- Before anything has happened. -/
def Wormhole.initial (ι : Type) : Wormhole ι :=
  { lock := none, networkThread := none, connected := false, place := fun _ => .outside,
    started := false, sendFunc := false, events := [] }

end Cpe.Main
