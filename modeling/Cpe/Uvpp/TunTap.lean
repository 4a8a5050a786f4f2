import Cpe.Lib.Calls
import Cpe.Main.Server

/-! # Functions on network devices

The functions of `tun_tap.hpp` and `create_tun_device.hpp` as programs of system
calls. The kernel hands out descriptors, serves requests on those that are open,
and may refuse any call. It makes and drops routes by itself, with the addresses
and the flags of a device. A name that is passed is a C string; a network address
is given in host order. -/
namespace Cpe.Uvpp.TunTap
open Cpe.Lib.ByteOrder Cpe.Lib.CString Cpe.Lib.Number Cpe.Lib.InetAddr Cpe.Lib.Calls
open Cpe.Lib.Calls.Prog Cpe.Main

/-! ## The kernel -/

structure Interface where
  flags : U16
  addr : U32
  hwaddr : Bytes

/-- The network devices by their names, and the routes on each. -/
structure Net where
  interfaces : Bytes → Option Interface
  routes : Bytes → Finset Route

def Net.setInterface (net : Net) (name : Bytes) (i : Interface) : Net :=
  { net with interfaces := Function.update net.interfaces name (some i) }

/-- A change of an interface, where there is one. -/
def Net.change (net : Net) (name : Bytes) (f : Interface → Interface) : Net :=
  match net.interfaces name with
  | some i => net.setInterface name (f i)
  | none => net

def Net.setRoutes (net : Net) (dev : Bytes) (routes : Finset Route) : Net :=
  { net with routes := Function.update net.routes dev routes }

structure Os where
  opened : Finset Nat
  net : Net

inductive Request
  | TUNSETIFF (name : Bytes) (flags : U16)
  | SIOCGIFFLAGS (name : Bytes)
  | SIOCSIFFLAGS (name : Bytes) (flags : U16)
  | SIOCSIFADDR (name : Bytes) (addr : U32)
  | SIOCGIFHWADDR (name : Bytes)
  | SIOCSIFHWADDR (name : Bytes) (hwaddr : Bytes)
  | SIOCADDRT (dev : Bytes) (dst genmask : U32)
  | SIOCDELRT (dev : Bytes) (dst genmask : U32)

inductive Sys
  | openTun
  | socket
  | ioctl (fd : Int) (request : Request)
  | close (fd : Int)
  | system (command : Bytes)

/-- What a call returns, and what an `ioctl` leaves in its structure. -/
structure Answer where
  code : Int
  flags : U16 := 0
  data : Bytes := []

/-- A request that is served. With the flags of a device its routes come and go;
with its address also those of other devices that have it as their source. -/
inductive Serves (net : Net) : Request → Answer → Net → Prop
  | TUNSETIFF (name : Bytes) (flags : U16) (created : Bytes) (i : Interface) :
    Serves net (.TUNSETIFF name flags) { code := 0, data := created } (net.setInterface created i)
  | SIOCGIFFLAGS {name : Bytes} {i : Interface} (h : net.interfaces name = some i) :
    Serves net (.SIOCGIFFLAGS name) { code := 0, flags := i.flags } net
  | SIOCSIFFLAGS {name : Bytes} {i : Interface} (h : net.interfaces name = some i) (flags : U16)
    (routes : Finset Route) :
    Serves net (.SIOCSIFFLAGS name flags) { code := 0 }
      ((net.setInterface name { i with flags }).setRoutes name routes)
  | SIOCSIFADDR {name : Bytes} {i : Interface} (h : net.interfaces name = some i) (addr : U32)
    (routes : Bytes → Finset Route) :
    Serves net (.SIOCSIFADDR name addr) { code := 0 }
      { net.setInterface name { i with addr } with routes }
  | SIOCGIFHWADDR {name : Bytes} {i : Interface} (h : net.interfaces name = some i) :
    Serves net (.SIOCGIFHWADDR name) { code := 0, data := i.hwaddr } net
  | SIOCSIFHWADDR {name : Bytes} {i : Interface} (h : net.interfaces name = some i)
    (hwaddr : Bytes) :
    Serves net (.SIOCSIFHWADDR name hwaddr) { code := 0 } (net.setInterface name { i with hwaddr })
  | SIOCADDRT {dst genmask : U32} {r : Route} (h : Route.of? dst genmask = some r) (dev : Bytes) :
    Serves net (.SIOCADDRT dev dst genmask) { code := 0 }
      (net.setRoutes dev (insert r (net.routes dev)))
  | SIOCDELRT {dst genmask : U32} {r : Route} (h : Route.of? dst genmask = some r) {dev : Bytes}
    (present : r ∈ net.routes dev) :
    Serves net (.SIOCDELRT dev dst genmask) { code := 0 }
      (net.setRoutes dev ((net.routes dev).erase r))

/-- What the kernel may do on a call. A command may do anything to the devices. -/
inductive KernelStep (os : Os) : Sys → Answer → Os → Prop
  | openTun {fd : Nat} (fresh : fd ∉ os.opened) :
    KernelStep os .openTun { code := fd } { os with opened := insert fd os.opened }
  | socket {fd : Nat} (fresh : fd ∉ os.opened) :
    KernelStep os .socket { code := fd } { os with opened := insert fd os.opened }
  | ioctl {fd : Nat} (h : fd ∈ os.opened) {request : Request} {answer : Answer} {net : Net}
    (served : Serves os.net request answer net) :
    KernelStep os (.ioctl fd request) answer { os with net }
  | close {fd : Nat} (h : fd ∈ os.opened) (code : Int) :
    KernelStep os (.close fd) { code } { os with opened := os.opened.erase fd }
  | system (command : Bytes) (code : Int) (net : Net) :
    KernelStep os (.system command) { code } { os with net }
  | notOpen {fd : Int} (h : ∀ n ∈ os.opened, fd ≠ (n : Int)) :
    KernelStep os (.close fd) { code := -1 } os
  | refused {c : Sys} (h : ∀ fd, c ≠ .close fd) : KernelStep os c { code := -1 } os

/-! ## The functions -/

def IFF_UP : U16 := 1
def IFF_TAP : U16 := 2
def IFF_NO_PI : U16 := 0x1000

def IFNAMSIZ : Nat := 16

/-- What is returned, and what is in `dev` then. -/
def tunCreate (dev : Bytes) (flags : U16) : Prog Sys Answer (Int × Bytes) := do
  let fd ← ask .openTun
  if fd.code < 0 then return (fd.code, dev)
  let err ← ask (.ioctl fd.code (.TUNSETIFF (dev.take IFNAMSIZ) flags))
  if err.code < 0 then
    let _ ← ask (.close fd.code)
    return (err.code, dev)
  return (fd.code, err.data)

def setIfFlags (ifname : Bytes) (flags : U16) : Prog Sys Answer Int := do
  let sockfd ← ask .socket
  if sockfd.code < 0 then return -1
  let ifr ← ask (.ioctl sockfd.code (.SIOCGIFFLAGS ifname))
  if ifr.code < 0 then
    let _ ← ask (.close sockfd.code)
    return -1
  let set ← ask (.ioctl sockfd.code (.SIOCSIFFLAGS ifname (ifr.flags ||| flags)))
  if set.code < 0 then
    let _ ← ask (.close sockfd.code)
    return -1
  let _ ← ask (.close sockfd.code)
  return 0

/-- One of the four numbers of an address for `inet_pton`. -/
def ptonOctet (s : Bytes) : Option Nat :=
  let (n, rest) := readDigits 10 s
  if s = [] ∨ rest ≠ [] ∨ (s.head? = some 48 ∧ s.length ≠ 1) ∨ 255 < n then none else some n

/-- `inet_pton`, into an address that was zero before. -/
def inetPton (s : Bytes) : U32 :=
  match ((cstr s).splitOn 46).map ptonOctet with
  | [some a, some b, some c, some d] => BitVec.ofNat 32 (((a * 256 + b) * 256 + c) * 256 + d)
  | _ => 0

def setIfAddr (ifname ipaddr : Bytes) : Prog Sys Answer Int := do
  let sockfd ← ask .socket
  if sockfd.code < 0 then return -1
  let ifr ← ask (.ioctl sockfd.code (.SIOCSIFADDR ifname (inetPton ipaddr)))
  if ifr.code < 0 then
    let _ ← ask (.close sockfd.code)
    return -1
  let _ ← ask (.close sockfd.code)
  return 0

/-- Whether the device is up is not looked at. -/
def initTapInterface : Prog Sys Answer Int := do
  let (tun, tunName) ← tunCreate [] (IFF_TAP ||| IFF_NO_PI)
  if tun < 0 then return -1
  let _ ← setIfFlags tunName IFF_UP
  return tun

/-- The end of the three functions on routes, which do not look at what `socket`
returns. -/
def routeRequest (request : Request) : Prog Sys Answer Int := do
  let skfd ← ask .socket
  let rt ← ask (.ioctl skfd.code request)
  if rt.code < 0 then
    let _ ← ask (.close skfd.code)
    return -1
  let _ ← ask (.close skfd.code)
  return 0

def routeAddNet (interfaceName target dstMask : Bytes) : Prog Sys Answer Int :=
  routeRequest (.SIOCADDRT interfaceName (htonl (inetAddr target)) (htonl (inetAddr dstMask)))

/-- The route of one host. -/
def routeAdd (interfaceName : Bytes) : Prog Sys Answer Int :=
  routeAddNet interfaceName (str "10.0.0.1") (str "255.255.255.255")

def routeDelNet (interfaceName target dstMask : Bytes) : Prog Sys Answer Int :=
  routeRequest (.SIOCDELRT interfaceName (htonl (inetAddr target)) (htonl (inetAddr dstMask)))

/-- What is returned, and the bytes at `mac` then. A socket that was refused is
closed. -/
def getMac (interfaceName mac : Bytes) (lenLimit : Nat) : Prog Sys Answer (Int × Bytes) := do
  let sock ← ask .socket
  if sock.code < 0 then
    let _ ← ask (.close sock.code)
    return (-1, mac)
  let ifreq ← ask (.ioctl sock.code (.SIOCGIFHWADDR interfaceName))
  if ifreq.code < 0 then
    let _ ← ask (.close sock.code)
    return (-1, mac)
  let _ ← ask (.close sock.code)
  return (0, ifreq.data.take lenLimit)

def setMac (interfaceName mac : Bytes) : Prog Sys Answer Int := do
  let fd ← ask .socket
  if fd.code < 0 then return -1
  let ret ← ask (.ioctl fd.code (.SIOCSIFHWADDR interfaceName (mac.take 6)))
  let _ ← ask (.close fd.code)
  return ret.code

/-- The function of `create_tun_device.hpp`. -/
def createTunDevice (dev : Bytes) (flags : U16) : Prog Sys Answer (Int × Bytes) := do
  let fd ← ask .openTun
  if fd.code < 0 then return (fd.code, dev)
  let err ← ask (.ioctl fd.code (.TUNSETIFF (dev.take IFNAMSIZ) flags))
  if err.code < 0 then
    let _ ← ask (.close fd.code)
    return (err.code, dev)
  return (fd.code, err.data)

/-! ## Rules for the calls -/

section
variable {α : Type} {os : Os} {f : Answer → Prog Sys Answer α} {Q : α → Os → Prop}

theorem wp_socket
    (got : ∀ fd : Nat, fd ∉ os.opened →
      wp KernelStep (f { code := fd }) Q { os with opened := insert fd os.opened })
    (refused : wp KernelStep (f { code := -1 }) Q os) : wp KernelStep (ask .socket >>= f) Q os := by
  rw [wp_bind', wp_ask]
  intro r s' h
  cases h with
  | socket fresh => exact got _ fresh
  | refused => exact refused

theorem wp_ioctl {fd : Int} {request : Request}
    (served : ∀ answer net, Serves os.net request answer net →
      wp KernelStep (f answer) Q { os with net })
    (refused : wp KernelStep (f { code := -1 }) Q os) :
    wp KernelStep (ask (.ioctl fd request) >>= f) Q os := by
  rw [wp_bind', wp_ask]
  intro r s' h
  cases h with
  | ioctl _ hserved => exact served _ _ hserved
  | refused => exact refused

/-- A descriptor that is not negative is needed for a request. -/
theorem wp_ioctl_negative {fd : Int} (hfd : fd < 0) {request : Request}
    (refused : wp KernelStep (f { code := -1 }) Q os) :
    wp KernelStep (ask (.ioctl fd request) >>= f) Q os := by
  rw [wp_bind', wp_ask]
  intro r s' h
  cases h with
  | ioctl => omega
  | refused => exact refused

/-- A descriptor of its own that a function closes. -/
theorem wp_close {fd : Nat} (fresh : fd ∉ os.opened) {net : Net}
    (closed : ∀ code, wp KernelStep (f { code }) Q { os with net }) :
    wp KernelStep (ask (.close fd) >>= f) Q { opened := insert fd os.opened, net } := by
  rw [wp_bind', wp_ask]
  intro r s' h
  cases h with
  | close hopen code =>
    have hback : (insert fd os.opened).erase fd = os.opened := Finset.erase_insert fresh
    simp only [hback]
    exact closed code
  | notOpen hnot => exact absurd rfl (hnot fd (Finset.mem_insert_self fd os.opened))
  | refused hc => exact absurd rfl (hc fd)

theorem wp_close_negative {fd : Int} (hfd : fd < 0)
    (closed : ∀ code, wp KernelStep (f { code }) Q os) :
    wp KernelStep (ask (.close fd) >>= f) Q os := by
  rw [wp_bind', wp_ask]
  intro r s' h
  cases h with
  | close => omega
  | notOpen => exact closed _
  | refused hc => exact absurd rfl (hc fd)

end

/-! ## What the functions do -/

/-- A function that has done `update` and returns 0, or nothing and returns -1,
and leaves no descriptor behind. -/
def Commits (os : Os) (update : Net → Net → Prop) (code : Int) (os' : Os) : Prop :=
  os'.opened = os.opened ∧
    (code = 0 ∧ update os.net os'.net ∨ code = -1 ∧ os'.net = os.net)

section
variable (os : Os)

/-- The answers of a request that is served have no error. -/
theorem Serves.code {net net' : Net} {request : Request} {answer : Answer}
    (h : Serves net request answer net') : answer.code = 0 := by
  cases h <;> rfl

/-- Without a socket the request is refused, and `close` is called all the same. -/
theorem routeRequest_spec (request : Request) :
    wp KernelStep (routeRequest request)
      (Commits os fun net net' => ∃ answer, Serves net request answer net') os := by
  unfold routeRequest
  refine wp_socket (fun fd fresh => ?_) ?_
  · refine wp_ioctl (fun answer net served => ?_) ?_
    · rw [served.code, if_neg (by simp)]
      exact wp_close fresh fun _ => ⟨rfl, .inl ⟨rfl, _, served⟩⟩
    · exact wp_close fresh fun _ => ⟨rfl, .inr ⟨rfl, rfl⟩⟩
  · exact wp_ioctl_negative (by simp)
      (wp_close_negative (by simp) fun _ => ⟨rfl, .inr ⟨rfl, rfl⟩⟩)

/-- A device and a descriptor for it, or nothing. -/
def Creates (os : Os) (dev : Bytes) (result : Int × Bytes) (os' : Os) : Prop :=
  (∃ fd : Nat, ∃ i, fd ∉ os.opened ∧ result.1 = fd ∧
    os' = ⟨insert fd os.opened, os.net.setInterface result.2 i⟩) ∨ result = (-1, dev) ∧ os' = os

end

end Cpe.Uvpp.TunTap
