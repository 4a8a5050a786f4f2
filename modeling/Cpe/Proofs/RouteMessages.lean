import Cpe.Main.Device
import Cpe.Main.Runs

/-! # Messages of the tunnel

The receiver of a route message has no check of its length: it writes what is
behind the first four bytes, and a write that fails ends the process. Every
short message and every message the device refuses is such a write. -/
namespace Cpe.Proofs.RouteMessages
open Cpe.Lib.ByteOrder Cpe.Main

/-- The writes of a tun/tap device, of a process with `mapped` bytes of memory
behind the prefix of a message. -/
structure TunTap (tapMode : U32) (mapped : Nat) where
  write : Bytes → Int
  refuses_empty : write [] < 0
  refuses_version : tapMode = 0 → ∀ (head : Byte) (tail : Bytes),
    head >>> 4 ≠ 4 → head >>> 4 ≠ 6 → write (head :: tail) < 0
  refuses_unmapped : ∀ bytes, mapped < bytes.length → write bytes < 0

/-- A message is ignored, or the `len - 4` bytes behind its prefix are written,
and the process goes on. -/
def Harmless (effect : RouteEffect) (data : Ptr) (len : U32) : Prop :=
  (effect.written = none ∨
    4 ≤ len.toInt ∧ effect.written = some (data.slice 4 (len.toInt - 4).toNat)) ∧
  effect.exits = false

/-- A message that the device takes. -/
structure Accepted {tapMode : U32} {mapped : Nat} (device : TunTap tapMode mapped) (data : Ptr)
    (len : U32) : Prop where
  body : 4 < len.toInt
  fits : len.toInt ≤ 65535
  mapped : len.toInt - 4 ≤ mapped
  version : tapMode = 0 → data 4 >>> 4 = 4 ∨ data 4 >>> 4 = 6
  taken : 0 ≤ device.write (data.slice 4 (len.toInt - 4).toNat)

section
variable {tapMode : U32} {mapped : Nat} {device : TunTap tapMode mapped} {data : Ptr} {len : U32}

/-- What the device takes it cannot refuse. -/
theorem accepted_of_taken (hmin : 4 ≤ len.toInt) (hfits : len.toInt ≤ 65535)
    (htaken : 0 ≤ device.write (data.slice 4 (len.toInt - 4).toNat)) :
    Accepted device data len := by
  have hsize := slice_length data 4 (len.toInt - 4).toNat
  have hbody : 4 < len.toInt := by
    by_contra hle
    have hzero : (len.toInt - 4).toNat = 0 := by omega
    have hempty : data.slice 4 (len.toInt - 4).toNat = [] := by
      rw [hzero]
      rfl
    rw [hempty] at htaken
    exact absurd device.refuses_empty (by omega)
  have hmapped : len.toInt - 4 ≤ mapped := by
    by_contra hgt
    have hlong : mapped < (data.slice 4 (len.toInt - 4).toNat).length := by omega
    exact absurd (device.refuses_unmapped _ hlong) (by omega)
  have hversion : tapMode = 0 → data 4 >>> 4 = 4 ∨ data 4 >>> 4 = 6 := by
    intro htun
    by_contra hnone
    obtain ⟨hfour, hsix⟩ := not_or.mp hnone
    obtain ⟨n, hn⟩ : ∃ n, (len.toInt - 4).toNat = n + 1 := ⟨(len.toInt - 4).toNat - 1, by omega⟩
    have hcons : data.slice 4 (len.toInt - 4).toNat =
        data 4 :: (List.range n).map fun i => data (4 + (i + 1)) := by
      rw [hn, Ptr.slice, List.range_succ_eq_map, List.map_cons, List.map_map]
      rfl
    have hrefused := device.refuses_version htun (data 4)
      ((List.range n).map fun i => data (4 + (i + 1))) hfour hsix
    rw [hcons] at htaken
    omega
  exact ⟨hbody, hfits, hmapped, hversion, htaken⟩

/-- The bytes the code hands to `write`. -/
theorem recvRouteMsgCallback_open {s : Server} (hfd : s.tunTapDevFd ≠ 0) (write : Bytes → Int)
    (data : Ptr) (len : U32) :
    s.recvRouteMsgCallback write data len =
      { written := some (data.slice 4 ((len.toInt % 65536 - 4) % 2 ^ 64).toNat)
        exits := decide (write (data.slice 4 ((len.toInt % 65536 - 4) % 2 ^ 64).toNat) < 0) } := by
  rw [Server.recvRouteMsgCallback, Server.handleRouteDataRecv, if_neg hfd, toNat_setWidth_int]

/-- A write of the right bytes is one of a length that the cut leaves alone. -/
theorem fits_of_slice_eq (hmin : 4 ≤ len.toInt)
    (h : data.slice 4 ((len.toInt % 65536 - 4) % 2 ^ 64).toNat =
      data.slice 4 (len.toInt - 4).toNat) : len.toInt ≤ 65535 := by
  have hlen := congrArg List.length h
  rw [slice_length, slice_length] at hlen
  have hlt : len.toInt < 2 ^ 31 := BitVec.toInt_lt
  omega

end

/-- **A route message is harmless** exactly if there is no device, or the
device takes what is behind the prefix and the length is one of 5 to 65535. -/
theorem route_message_harmless_iff (s : Server) (mapped : Nat)
    (device : TunTap s.config.tapMode mapped) (data : Ptr) (len : U32) :
    Harmless (s.recvRouteMsgCallback device.write data len) data len ↔
      s.tunTapDevFd = 0 ∨ Accepted device data len := by
  by_cases hfd : s.tunTapDevFd = 0
  · have hignored : s.recvRouteMsgCallback device.write data len = ⟨none, false⟩ := by
      rw [Server.recvRouteMsgCallback, Server.handleRouteDataRecv, if_pos hfd]
    rw [hignored]
    exact iff_of_true ⟨.inl rfl, rfl⟩ (.inl hfd)
  · rw [recvRouteMsgCallback_open hfd, or_iff_right hfd]
    constructor
    · intro h
      obtain ⟨hwritten, hexits⟩ := h
      rcases hwritten with hnone | ⟨hmin, hsome⟩
      · cases hnone
      · have hslice := Option.some.inj hsome
        have htaken := of_decide_eq_false hexits
        rw [hslice] at htaken
        exact accepted_of_taken hmin (fits_of_slice_eq hmin hslice) (by omega)
    · intro h
      have hbody := h.body
      have hfits := h.fits
      have hcount : (len.toInt % 65536 - 4) % 2 ^ 64 = len.toInt - 4 := by omega
      have htaken := h.taken
      rw [hcount]
      refine ⟨.inr ⟨by omega, rfl⟩, ?_⟩
      exact decide_eq_false (by omega)

/-! ## A message without a packet -/

/-- A device in TUN mode behind 65535 bytes of memory. -/
def plainTun : TunTap 0 65535 where
  write bytes :=
    match bytes with
    | [] => -1
    | head :: tail =>
      if head >>> 4 ≠ 4 ∧ head >>> 4 ≠ 6 ∨ 65535 < (head :: tail).length then -1
      else (head :: tail).length
  refuses_empty := by decide
  refuses_version := by
    intro _ head tail hfour hsix
    simp only [if_pos (Or.inl (And.intro hfour hsix))]
    decide
  refuses_unmapped := by
    intro bytes hlong
    cases bytes with
    | nil => simp at hlong
    | cons head tail =>
      simp only [if_pos (Or.inr hlong)]
      decide

def tunServer : Server := started ⟨Cpe.Pro.wire, id⟩ 3 1 {} 9

/-- The length of nothing stops the peer. -/
theorem empty_packet_stops_server :
    ¬ Harmless (tunServer.recvRouteMsgCallback plainTun.write (Ptr.ofBytes (bytes32 0)) 4)
      (Ptr.ofBytes (bytes32 0)) 4 := by
  intro h
  obtain ⟨_, hexits⟩ := h
  exact absurd hexits (by decide +kernel)

/-- The first byte of an IPv4 header and 19 more. -/
def ipv4Message : Bytes := bytes32 20 ++ 0x45 :: List.replicate 19 0

/-- An IPv4 packet of 20 bytes does no harm. -/
theorem ipv4_packet_harmless :
    Harmless (tunServer.recvRouteMsgCallback plainTun.write (Ptr.ofBytes ipv4Message) 24)
      (Ptr.ofBytes ipv4Message) 24 :=
  (route_message_harmless_iff tunServer 65535 plainTun (Ptr.ofBytes ipv4Message) 24).mpr
    (.inr
      { body := by decide
        fits := by decide
        mapped := by decide
        version := fun _ => .inl (by decide)
        taken := by decide +kernel })

end Cpe.Proofs.RouteMessages
