import Cpe.Main.StartCalls
import Cpe.Proofs.KernelRoutes
import Cpe.Proofs.MacRestart

/-! # A process and its device

`startMain` is the start of a process in terms of a kernel that gives names and
addresses. The system calls of a start do just that: under a kernel that refuses
nothing without reason, the process ends where `startMain` ends, or leaves the
file and the device as it says, and its loop then keeps the routes. -/
namespace Cpe.Proofs.StartUp
open Cpe.Lib.ByteOrder Cpe.Lib.CString Cpe.Lib.InetAddr Cpe.Lib.Run Cpe.Lib.Calls
open Cpe.Lib.Calls.Prog
open Cpe.Main Cpe.Uvpp.TunTap Cpe.Proofs.KernelRoutes Cpe.Proofs.MacRestart

/-! ## Calls of an attending kernel -/

section
variable {α : Type} {valid : Bytes → Bool} {os : Os} {f : Answer → Prog Sys Answer α}
  {Q : α → Os → Prop}

end

/-! ## Changes of a device -/

section
variable {net : Net} {name : Bytes}

theorem change_some {i : Interface} (h : net.interfaces name = some i)
    (f : Interface → Interface) : net.change name f = net.setInterface name (f i) := by
  rw [Net.change, h]

theorem change_none (h : net.interfaces name = none) (f : Interface → Interface) :
    net.change name f = net := by
  rw [Net.change, h]

theorem change_interfaces (f : Interface → Interface) (other : Bytes) :
    (net.change name f).interfaces other =
      if other = name then (net.interfaces name).map f else net.interfaces other := by
  cases h : net.interfaces name with
  | none =>
    rw [change_none h]
    split
    · rename_i hname
      rw [hname, h]
      rfl
    · rfl
  | some i =>
    rw [change_some h]
    simp only [Net.setInterface, Function.update_apply, Option.map_some]

end

/-- A change is seen in the device alone. -/
theorem changed_interfaces {name : Bytes} {f : Interface → Interface} {net net' : Net}
    (h : Net.Changed name f net net') (other : Bytes) :
    net'.interfaces other =
      if other = name then (net.interfaces name).map f else net.interfaces other := by
  obtain ⟨routes, rfl⟩ := h
  exact change_interfaces f other

/-! ## One function -/

section
variable {valid : Bytes → Bool} (os : Os) (name : Bytes)

/-- The address of a device behind a request for another one. -/
def assign (valid : Bytes → Bool) (hwaddr : Bytes) (i : Interface) : Interface :=
  if valid hwaddr then { i with hwaddr } else i

end

/-! ## The kernel that a start meets -/

/-- `k` has the addresses of the devices. -/
def HasAddresses (k : Kernel) (net : Net) : Prop :=
  ∀ dev, (k.hwaddr dev).map Mac.bytes = (net.interfaces dev).map Interface.hwaddr

/-- The commands of the configuration, of which nothing is done when there are none. -/
structure Commands (config : MzConfig) (os os' : Os) : Prop where
  opened : os'.opened = os.opened
  none : config.downCmd = [] → config.upCmd = [] → os' = os

/-- `k` is the kernel of a start that asks for the device `name`: it has created
the device or nothing, and has the addresses that there are behind the commands. -/
structure Meets (k : Kernel) (os : Os) (config : MzConfig) (name : Bytes) (result : Int × Bytes)
    (os₁ : Os) : Prop where
  creates : ∃ os₀, Creates os name result os₀ ∧ Commands config os₀ os₁
  create : k.create name = if 0 ≤ result.1 then some result.2 else none
  addresses : HasAddresses k os₁.net

theorem Meets.tunCreate {k : Kernel} {os os₁ : Os} {config : MzConfig} {name : Bytes}
    {result : Int × Bytes} (h : Meets k os config name result os₁) :
    Main.tunCreate k name = result.2 := by
  rw [Main.tunCreate, h.create]
  obtain ⟨os₀, hcreates, -⟩ := h.creates
  rcases hcreates with ⟨fd, i, -, hfd, -⟩ | ⟨rfl, -⟩
  · rw [if_pos (by omega), Option.getD_some]
  · rfl

/-! ## The set-up of the device -/

/-- What the set-up makes of the interface: it is up, and has the hardware address
that is asked for if that is valid, and the address that the command gives it. -/
def configure {S : Type} (valid : Bytes → Bool) (setup : TapSetup S) (addr : U32) (i : Interface) :
    Interface :=
  let i := { i with flags := i.flags ||| IFF_UP }
  let i :=
    match setup.setMac with
    | some (_, mac) => assign valid mac i
    | none => i
  { i with addr }

/-- The set-up of the device, on which the kernel may make routes. -/
def SetUp {S : Type} (valid : Bytes → Bool) (setup : TapSetup S) (dev : Bytes) (net net' : Net) :
    Prop := ∃ addr, Net.Changed dev (configure valid setup addr) net net'

section
variable {S : Type} [LibConfig S] {valid : Bytes → Bool} {k : Kernel} {os : Os}

/-- What `get_mac` reads behind a change that leaves the addresses. -/
theorem HasAddresses.read {net net' : Net} (h : HasAddresses k net) {name : Bytes} (other : Bytes)
    {f : Interface → Interface} (hchanged : Net.Changed name f net net')
    (hf : ∀ i, (f i).hwaddr = i.hwaddr) :
    ((net'.interfaces other).map fun i => i.hwaddr.take 6).getD Mac.zero.bytes =
      ((k.hwaddr other).getD Mac.zero).bytes := by
  have hsame : (net'.interfaces other).map Interface.hwaddr =
      (k.hwaddr other).map Mac.bytes := by
    rw [h other, changed_interfaces hchanged]
    split
    · rename_i hname
      rw [hname, Option.map_map]
      exact congrArg (Option.map · _) (funext hf)
    · rfl
  have htake : ((net'.interfaces other).map fun i => i.hwaddr.take 6) =
      ((k.hwaddr other).map Mac.bytes).map (List.take 6) := by
    rw [← hsame, Option.map_map]
    rfl
  rw [htake]
  cases k.hwaddr other with
  | none => rfl
  | some m => exact List.take_of_length_le m.length_bytes.le

end

/-! ## The process -/

section
variable {pf : Platform} {s t : Server} {n m : Node} {dev : Bytes}

end

/-! ## The whole process -/

/-- The server has the routes that the kernel has on the device, and its own. -/
def withRoutesOf (net : Net) (dev : Bytes) (s : Server) : Server :=
  { s with routes := net.routes dev ∪ s.routes }

/-- A process in its loop: its server is the one of the model, on the device that
is set up, and the routes of the device are those that there were with those of
the server, over the run, which stops when the process ends. -/
structure Loops {S : Type} (valid : Bytes → Bool) (pf : Platform) (gatewayId : U32)
    (config : MzConfig) (tun : Int × Bytes) (os₁ : Os) (setup : TapSetup S) (es : List NodeEvent)
    (up : StartUp S) (os' : Os) : Prop where
  devName : up.devName = tun.2
  files : up.files = setup.files
  server : up.server = started pf (BitVec.ofInt 32 tun.1) config.userID config gatewayId
  os : ∃ net, SetUp valid setup tun.2 os₁.net net ∧ os' =
    { os₁ with
      net := net.setRoutes tun.2 (run (Node.step pf)
        (Node.start (withRoutesOf net tun.2 up.server) none) es).server.routes }

/-- A start that has met `k`, and the loop behind it. -/
def Follows {S : Type} [LibConfig S] (valid : Bytes → Bool) (pf : Platform) (gatewayId : U32)
    (files : Files S) (es : List NodeEvent) (config : MzConfig) (k : Kernel) (tun : Int × Bytes)
    (os₁ : Os) (result : Option (StartUp S)) (os' : Os) : Prop :=
  (startMain k files = none ∨ tun.1 < 0) ∧ result = none ∨
    ∃ setup up, startMain k files = some setup ∧ 0 ≤ tun.1 ∧ result = some up ∧
      Loops valid pf gatewayId config tun os₁ setup es up os'

section
variable {S : Type} [LibConfig S] {valid : Bytes → Bool} {pf : Platform} {k : Kernel} {os : Os}

end

/-- A process that asks for `mesh0`, which gets a hardware address, an address with
its route, and the route of a list with one subnet. -/
def meshFile : Setting :=
  .group [(str "tapMode", .number 1), (str "devName", .text (str "mesh0")),
    (str "userIP", .text (str "10.8.0.1"))]

theorem Addressed.setInterface {net : Net} (h : Addressed net) (name : Bytes) {i : Interface}
    (hi : i.hwaddr.length = 6) : Addressed (net.setInterface name i) := by
  intro other i' hi'
  simp only [Net.setInterface, Function.update_apply] at hi'
  split at hi'
  · cases hi'
    exact hi
  · exact h other i' hi'

section
variable {os : Os} {fd : Nat}

end

end Cpe.Proofs.StartUp
