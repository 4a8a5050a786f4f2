import Cpe.Main.Dispatch

/-! # The device path

From the device to a message for the tunnel, and from a message of the tunnel
back to a device. `none` is the end of the process. -/
namespace Cpe.Main
open Cpe.Lib.ByteOrder

def PACK_MTU : Nat := 1500

/-- Memory after a copy of `data` to offset `off`, where there is room for it. -/
def overwrite (mem : Bytes) (off : Nat) (data : Bytes) : Bytes :=
  mem.take off ++ data ++ mem.drop (off + data.length)

/-- The memory of a string from `c_str()` on. -/
def cstrPtr (msg : Bytes) (behind : Ptr) : Ptr := fun i =>
  if i < msg.length then msg.getD i 0 else if i = msg.length then 0 else behind i

/-- The peer and the message that `m_send_callback` is given, and the state. -/
def Server.handlePacketFromDev (s : Server) (behind : Ptr) (msg : Bytes) :
    (U32 × Bytes) × Server :=
  let packet := (cstrPtr msg behind).add 4
  if s.config.onlyAcc ≠ 0 then ((s.gatewayId, msg), s)
  else if s.config.tapMode ≠ 0 then
    let (dest, s) := s.getDestIDFromTapPacket packet
    ((dest, msg), s)
  else
    let (dest, s) := s.getDestIDFromTunPacket packet
    ((dest, msg), s)

/-- A tun/tap device gives one frame for each read, as far as it fits. -/
def readFrame (frame : Bytes) (n : Nat) : Option Bytes := some (frame.take n)

/-- `on_read_tun_tap`, with the packet buffer, if there is one, and the `read`
of the device, which fails or gives at most as many bytes as asked for. A read
into no buffer fails, and one that runs over the end of the buffer is taken for
the end of the process, as nothing is promised behind it. -/
def Server.onReadTunTap (s : Server) (behind : Ptr) (buffer : Option Bytes)
    (read : Nat → Option Bytes) : Option (((U32 × Bytes) × Server) × Bytes) := do
  let mem ← buffer
  let data ← read PACK_MTU
  if mem.length < 4 + data.length then none
  else
    let bufread : U32 := BitVec.ofNat 32 data.length
    let mem := overwrite (overwrite mem 4 data) 0 (bytes32 bufread)
    if bufread.toInt < 20 then none
    else
      let msg := mem.take (bufread + 4).toNat
      return (s.handlePacketFromDev behind msg, mem)

/-- What `handle_route_data_recv` does: the bytes it writes to the device, and
whether it ends the process because the write failed. -/
structure RouteEffect where
  written : Option Bytes
  exits : Bool

/-- `len - 4` is an `int`, taken as a `size_t`. -/
def Server.handleRouteDataRecv (s : Server) (write : Bytes → Int) (data : Ptr) (len : U16) :
    RouteEffect :=
  if s.tunTapDevFd = 0 then ⟨none, false⟩
  else
    let count := (((len.toNat : Int) - 4) % 2 ^ 64).toNat
    let bytes := data.slice 4 count
    ⟨some bytes, write bytes < 0⟩

/-- `RecvRouteMsgCallback`: the `int` length is cut to 16 bits. -/
def Server.recvRouteMsgCallback (s : Server) (write : Bytes → Int) (data : Ptr) (len : U32) :
    RouteEffect :=
  s.handleRouteDataRecv write data (len.setWidth 16)

end Cpe.Main
