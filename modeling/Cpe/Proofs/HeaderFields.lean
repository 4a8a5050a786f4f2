import Cpe.Main.Reads
import Cpe.Main.TapSetup

/-! # The fields of an IPv4 frame

Three of the four values that the TAP dispatch copies out of a frame are the
encoded ones. The offset of `ip_proto` counts 12 bytes of Ethernet header where
the offset of the destination counts 14, and reads the low byte of the fragment
offset. -/
namespace Cpe.Proofs.HeaderFields
open Cpe.Lib.ByteOrder Cpe.Lib.Access Cpe.Main

structure Ipv4Header where
  version : BitVec 4
  ihl : BitVec 4
  tos : Byte
  totalLength : U16
  identification : U16
  flags : BitVec 3
  fragmentOffset : BitVec 13
  ttl : Byte
  protocol : Byte
  checksum : U16
  source : U32
  destination : U32
  options : Bytes

def Ipv4Header.encode (h : Ipv4Header) : Bytes :=
  [h.version ++ h.ihl, h.tos] ++ netBytes16 h.totalLength ++ netBytes16 h.identification ++
    netBytes16 (h.flags ++ h.fragmentOffset) ++ [h.ttl, h.protocol] ++ netBytes16 h.checksum ++
    netBytes32 h.source ++ netBytes32 h.destination ++ h.options

/-- An Ethernet II frame with an IPv4 packet. -/
structure Ipv4Frame where
  destination : Mac
  source : Mac
  header : Ipv4Header
  payload : Bytes

def Ipv4Frame.ethernet (f : Ipv4Frame) : Bytes :=
  f.destination.bytes ++ f.source.bytes ++ netBytes16 ETH_P_IP

def Ipv4Frame.encode (f : Ipv4Frame) : Bytes := f.ethernet ++ (f.header.encode ++ f.payload)

/-- The four values as they were encoded. -/
def Ipv4Frame.fields (f : Ipv4Frame) : TapFields :=
  ⟨f.destination.bytes, ETH_P_IP, some (f.header.protocol, f.header.destination)⟩

theorem byte_zero_append (flags : BitVec 3) (fragmentOffset : BitVec 13) :
    byte (flags ++ fragmentOffset) 0 = fragmentOffset.setWidth 8 := by
  apply BitVec.eq_of_getLsbD_eq
  intro i hi
  have hlow : i < 13 := by omega
  have happend := BitVec.getLsbD_append (i := i) (x := flags) (y := fragmentOffset)
  rw [if_pos hlow] at happend
  simp [byte, hi, happend]

theorem ethernet_length (f : Ipv4Frame) : f.ethernet.length = 14 := by
  simp [Ipv4Frame.ethernet, netBytes16, f.destination.length_bytes, f.source.length_bytes]

/-- The 20 bytes in front of the options. -/
theorem encode_length (h : Ipv4Header) : 20 ≤ h.encode.length := by
  simp [Ipv4Header.encode, netBytes16, netBytes32]

theorem frame_length (f : Ipv4Frame) : 34 ≤ f.encode.length := by
  have hethernet := ethernet_length f
  have hheader := encode_length f.header
  rw [Ipv4Frame.encode, List.length_append, List.length_append]
  omega

section
variable {f : Ipv4Frame} {mem : Ptr} (hmem : mem.StartsWith f.encode)
include hmem

theorem tapDestMac_encode : tapDestMac mem = f.destination.bytes := by
  have hlength := frame_length f
  have hmac := f.destination.length_bytes
  rw [tapDestMac, slice_startsWith hmem (by omega), List.drop_zero, Ipv4Frame.encode,
    Ipv4Frame.ethernet, List.append_assoc, List.append_assoc, List.take_left' hmac]

theorem tapProto_encode : tapProto mem = ETH_P_IP := by
  have hlength := frame_length f
  have hmacs : (f.destination.bytes ++ f.source.bytes).length = 12 := by
    rw [List.length_append, f.destination.length_bytes, f.source.length_bytes]
  rw [tapProto, htons_load16 hmem (by omega), Ipv4Frame.encode, Ipv4Frame.ethernet,
    List.append_assoc, ← hmacs]
  exact (net16_append _ 0).trans (net16_netBytes16 ETH_P_IP _)

theorem tapDestIP_encode : tapDestIP mem = f.header.destination := by
  have hlength := frame_length f
  rw [tapDestIP, htonl_load32 hmem (by omega), Ipv4Frame.encode,
    show 30 = f.ethernet.length + 16 by rw [ethernet_length], net32_append]
  exact net32_netBytes32 f.header.destination (f.header.options ++ f.payload)

/-- What stands at the offset of `ip_proto`. -/
theorem ipProto_encode : mem (12 + 9) = f.header.fragmentOffset.setWidth 8 := by
  have hlength := frame_length f
  rw [hmem (12 + 9) (by omega), Ipv4Frame.encode,
    show 12 + 9 = f.ethernet.length + 7 by rw [ethernet_length],
    List.getD_append_right _ _ _ _ (Nat.le_add_right _ _), Nat.add_sub_cancel_left,
    ← byte_zero_append f.header.flags]
  rfl

/-- **The values copied out of a frame.** -/
theorem tapFields_encode :
    tapFields.run mem =
      ⟨f.destination.bytes, ETH_P_IP,
        some (f.header.fragmentOffset.setWidth 8, f.header.destination)⟩ := by
  rw [tapFields_run, tapProto_encode hmem, if_pos rfl, tapDestMac_encode hmem,
    tapDestIP_encode hmem, ipProto_encode hmem]

end

/-- **The fields of a frame are extracted** as they were encoded exactly if the
low byte of the fragment offset is the protocol. -/
theorem fields_extracted_iff (f : Ipv4Frame) (mem : Ptr) (hmem : mem.StartsWith f.encode) :
    tapFields.run mem = f.fields ↔ f.header.fragmentOffset.setWidth 8 = f.header.protocol := by
  rw [tapFields_encode hmem, Ipv4Frame.fields]
  constructor
  · intro h
    injection h with _ _ hip
    exact congrArg Prod.fst (Option.some.inj hip)
  · intro h
    rw [h]

/-! ## Whole packets and fragments -/

/-- A UDP packet of no bytes, with a fragment offset. -/
def udpFrame (fragmentOffset : BitVec 13) : Ipv4Frame where
  destination := ⟨[2, 0, 0, 0, 0, 6], rfl⟩
  source := ⟨[2, 0, 0, 0, 0, 5], rfl⟩
  header :=
    { version := 4, ihl := 5, tos := 0, totalLength := 20, identification := 0, flags := 0
      fragmentOffset := fragmentOffset, ttl := 64, protocol := 17, checksum := 0
      source := 0x0a000001, destination := 0x0a000002, options := [] }
  payload := []

/-- A packet that is no fragment is extracted with protocol 0. -/
theorem udp_protocol_lost :
    tapFields.run (Ptr.ofBytes (udpFrame 0).encode) ≠ (udpFrame 0).fields := by
  decide +kernel

theorem fragment_extracted :
    tapFields.run (Ptr.ofBytes (udpFrame 17).encode) = (udpFrame 17).fields :=
  (fields_extracted_iff (udpFrame 17) (Ptr.ofBytes (udpFrame 17).encode)
    (ofBytes_startsWith _)).mpr (by decide)

end Cpe.Proofs.HeaderFields
