import Cpe.Main.Device
import Cpe.Main.Runs

/-! # A frame through the tunnel

The sender reads a frame with one read of `PACK_MTU` bytes and puts its length
in front; the receiver writes what is behind the length. A frame that the read
takes whole arrives unchanged. In TAP mode the device also delivers longer ones:
its MTU does not count the Ethernet header. -/
namespace Cpe.Proofs.FrameTransport
open Cpe.Lib.ByteOrder Cpe.Main

/-- The frames a device with an MTU of 1500 bytes delivers. -/
def Deliverable (s : Server) (frame : Bytes) : Prop :=
  if s.config.tapMode = 0 then 20 ≤ frame.length ∧ frame.length ≤ 1500
  else 34 ≤ frame.length ∧ frame.length ≤ 1514

/-- The message for a read, `bytes32` of its length and the bytes. -/
def message (data : Bytes) : Bytes := bytes32 (BitVec.ofNat 32 data.length) ++ data

/-- The frame crosses: a message is sent, its first four bytes are the length of
the frame, and the peer writes exactly the frame to its device. -/
def Crosses (s peer : Server) (behind : Ptr) (buffer : Bytes) (write : Bytes → Int)
    (frame : Bytes) : Prop :=
  ∃ dest msg s' mem,
    s.onReadTunTap behind (some buffer) (readFrame frame) = some (((dest, msg), s'), mem) ∧
      msg.take 4 = bytes32 (BitVec.ofNat 32 frame.length) ∧
      (peer.recvRouteMsgCallback write (Ptr.ofBytes msg) (BitVec.ofNat 32 msg.length)).written =
        some frame

theorem message_length (data : Bytes) : (message data).length = data.length + 4 := by
  rw [message, List.length_append, bytes32_length, Nat.add_comm]

theorem overwrite_length {mem data : Bytes} {off : Nat} (h : off + data.length ≤ mem.length) :
    (overwrite mem off data).length = mem.length := by
  simp only [overwrite, List.length_append, List.length_take, List.length_drop]
  omega

/-- The buffer after the read and the copy of the length begins with the
message. -/
theorem overwrite_message {buffer : Bytes} (data : Bytes) (h : 4 ≤ buffer.length) :
    (overwrite (overwrite buffer 4 data) 0 (bytes32 (BitVec.ofNat 32 data.length))).take
      (data.length + 4) = message data := by
  have hhead : (buffer.take 4).length = 4 := List.length_take_of_le h
  have hread : (overwrite buffer 4 data).drop 4 = data ++ buffer.drop (4 + data.length) := by
    rw [overwrite, List.append_assoc, List.drop_left' hhead]
  have hcopy : overwrite (overwrite buffer 4 data) 0 (bytes32 (BitVec.ofNat 32 data.length)) =
      message data ++ buffer.drop (4 + data.length) := by
    rw [overwrite, bytes32_length, Nat.zero_add, hread, List.take_zero, List.nil_append, message,
      List.append_assoc]
  rw [hcopy, List.take_left' (message_length data)]

/-- A dispatch passes the message on as it is. -/
theorem handlePacketFromDev_msg (s : Server) (behind : Ptr) (msg : Bytes) :
    ∃ dest s', s.handlePacketFromDev behind msg = ((dest, msg), s') := by
  unfold Server.handlePacketFromDev
  simp only
  split
  · exact ⟨_, _, rfl⟩
  · split
    · exact ⟨_, _, rfl⟩
    · exact ⟨_, _, rfl⟩

/-- What a read of `data` sends. -/
theorem onReadTunTap_eq (s : Server) (behind : Ptr) {buffer data : Bytes}
    {read : Nat → Option Bytes} (hbuffer : 4 + data.length ≤ buffer.length)
    (hread : read PACK_MTU = some data) (hmin : 20 ≤ data.length) (hmax : data.length ≤ PACK_MTU) :
    ∃ dest s', s.onReadTunTap behind (some buffer) read =
      some (((dest, message data), s'),
        overwrite (overwrite buffer 4 data) 0 (bytes32 (BitVec.ofNat 32 data.length))) := by
  have hle : data.length ≤ 1500 := hmax
  have hof : (BitVec.ofNat 32 data.length).toNat = data.length := by bv_omega
  have hnat : (BitVec.ofNat 32 data.length + 4).toNat = data.length + 4 := by bv_omega
  have hint : ¬ (BitVec.ofNat 32 data.length).toInt < 20 := by
    rw [BitVec.toInt_eq_toNat_of_lt (by omega), hof]
    omega
  obtain ⟨dest, s', hdest⟩ := handlePacketFromDev_msg s behind (message data)
  refine ⟨dest, s', ?_⟩
  have hroom : ¬ buffer.length < 4 + data.length := by omega
  simp only [Server.onReadTunTap, hread, Option.bind_eq_bind, Option.bind_some, hroom, hint,
    if_false, hnat, overwrite_message data (show 4 ≤ buffer.length by omega), hdest]
  rfl

/-- What the peer writes for a message. -/
theorem recvRouteMsgCallback_message {peer : Server} (hfd : peer.tunTapDevFd ≠ 0)
    (write : Bytes → Int) {data : Bytes} (h : data.length ≤ PACK_MTU) :
    (peer.recvRouteMsgCallback write (Ptr.ofBytes (message data))
      (BitVec.ofNat 32 (message data).length)).written = some data := by
  have hle : data.length ≤ 1500 := h
  have hlen : ((BitVec.ofNat 32 (message data).length).setWidth 16).toNat = data.length + 4 := by
    rw [message_length, BitVec.toNat_setWidth, BitVec.toNat_ofNat]
    omega
  have hcount : (((data.length + 4 : Nat) : Int) - 4) % 2 ^ 64 = data.length := by omega
  have hslice : (Ptr.ofBytes (message data)).slice 4 data.length = data := by
    rw [slice_ofBytes (by rw [message_length]; omega), message,
      List.drop_left' (bytes32_length _), List.take_length]
  unfold Server.recvRouteMsgCallback Server.handleRouteDataRecv
  rw [if_neg hfd, hlen, hcount, Int.toNat_natCast]
  exact congrArg some hslice

section
variable {s peer : Server} {behind : Ptr} {buffer frame : Bytes} {write : Bytes → Int}

theorem Deliverable.min_length (h : Deliverable s frame) : 20 ≤ frame.length := by
  unfold Deliverable at h
  split at h <;> omega

/-- What is sent and what is written for any frame: its first `PACK_MTU` bytes. -/
theorem crossing_take (s peer : Server) (behind : Ptr) (write : Bytes → Int)
    (hbuffer : 4 + PACK_MTU ≤ buffer.length) (hfd : peer.tunTapDevFd ≠ 0)
    (hmin : 20 ≤ frame.length) :
    ∃ dest s' mem, s.onReadTunTap behind (some buffer) (readFrame frame) =
        some (((dest, message (frame.take PACK_MTU)), s'), mem) ∧
      (peer.recvRouteMsgCallback write (Ptr.ofBytes (message (frame.take PACK_MTU)))
        (BitVec.ofNat 32 (message (frame.take PACK_MTU)).length)).written =
          some (frame.take PACK_MTU) := by
  have hlen : (frame.take PACK_MTU).length = min 1500 frame.length := List.length_take
  have hle : (frame.take PACK_MTU).length ≤ PACK_MTU := List.length_take_le _ _
  have hread : readFrame frame PACK_MTU = some (frame.take PACK_MTU) := rfl
  have hroom : 4 + (frame.take PACK_MTU).length ≤ buffer.length := by omega
  obtain ⟨dest, s', hsent⟩ := onReadTunTap_eq s behind hroom hread (by omega) hle
  exact ⟨dest, s', _, hsent, recvRouteMsgCallback_message hfd write hle⟩

theorem length_le_of_crosses (hbuffer : 4 + PACK_MTU ≤ buffer.length)
    (hfd : peer.tunTapDevFd ≠ 0) (hmin : 20 ≤ frame.length)
    (h : Crosses s peer behind buffer write frame) : frame.length ≤ PACK_MTU := by
  obtain ⟨dest, s', mem, hsent, hwritten⟩ :=
    crossing_take s peer behind write hbuffer hfd hmin
  obtain ⟨dest', msg, s'', mem', hsent', _, hfull⟩ := h
  rw [hsent] at hsent'
  obtain ⟨⟨⟨_, rfl⟩, _⟩, _⟩ := hsent'
  rw [hwritten] at hfull
  have hlen := congrArg List.length (Option.some.inj hfull)
  rw [List.length_take] at hlen
  omega

theorem crosses_of_length_le (hbuffer : 4 + PACK_MTU ≤ buffer.length)
    (hfd : peer.tunTapDevFd ≠ 0) (hmin : 20 ≤ frame.length) (hle : frame.length ≤ PACK_MTU) :
    Crosses s peer behind buffer write frame := by
  obtain ⟨dest, s', mem, hsent, hwritten⟩ :=
    crossing_take s peer behind write hbuffer hfd hmin
  rw [List.take_of_length_le hle] at hsent hwritten
  refine ⟨dest, message frame, s', mem, hsent, ?_, hwritten⟩
  rw [message, List.take_left' (bytes32_length _)]

end

/-- **A frame crosses the tunnel unchanged** exactly if one read takes it whole. -/
theorem frame_crosses_iff (s peer : Server) (behind : Ptr) (buffer frame : Bytes)
    (write : Bytes → Int) (hbuffer : 4 + PACK_MTU ≤ buffer.length)
    (hfd : peer.tunTapDevFd ≠ 0) (hframe : Deliverable s frame) :
    Crosses s peer behind buffer write frame ↔ frame.length ≤ PACK_MTU :=
  ⟨length_le_of_crosses hbuffer hfd hframe.min_length,
    crosses_of_length_le hbuffer hfd hframe.min_length⟩

/-! ## A full frame in TAP mode -/

/-- A server in TAP mode, before any session message. -/
def tapServer : Server := started ⟨Cpe.Pro.wire, id⟩ 3 1 { tapMode := 1 } 9

/-- A device that takes every write whole. -/
def accepting (bytes : Bytes) : Int := bytes.length

/-- A frame with its header and 1500 bytes of payload. -/
def fullFrame : Bytes := List.replicate 1514 1

/-- Its last 14 bytes are lost. -/
theorem full_tap_frame_cut :
    Deliverable tapServer fullFrame ∧
      ¬ Crosses tapServer tapServer (fun _ => 0) (List.replicate 1504 0) accepting fullFrame := by
  have hlen : fullFrame.length = 1514 := List.length_replicate
  refine ⟨?_, ?_⟩
  · show 34 ≤ fullFrame.length ∧ fullFrame.length ≤ 1514
    omega
  · intro h
    have hle := length_le_of_crosses (by rw [List.length_replicate]; decide) (by decide)
      (by omega) h
    have hmtu : PACK_MTU = 1500 := rfl
    omega

/-- A frame of 1500 bytes crosses. -/
theorem tap_frame_whole :
    Crosses tapServer tapServer (fun _ => 0) (List.replicate 1504 0) accepting
      (List.replicate 1500 1) := by
  have hlen : (List.replicate 1500 1 : Bytes).length = 1500 := List.length_replicate
  have hframe : Deliverable tapServer (List.replicate 1500 1) := by
    show 34 ≤ (List.replicate 1500 1 : Bytes).length ∧ (List.replicate 1500 1 : Bytes).length ≤ 1514
    omega
  refine (frame_crosses_iff tapServer tapServer (fun _ => 0) (List.replicate 1504 0)
    (List.replicate 1500 1) accepting (by rw [List.length_replicate]; decide) (by decide)
    hframe).mpr ?_
  exact hlen.le

end Cpe.Proofs.FrameTransport
