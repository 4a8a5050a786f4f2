import Cpe.Lib.InetAddr

/-! # Configuration and text helpers

The configuration record of `config.h` with its defaults, `mzConfig::split`,
and the address texts of `util.hpp`. -/
namespace Cpe.Main
open Cpe.Lib.ByteOrder Cpe.Lib.CString Cpe.Lib.Number Cpe.Lib.InetAddr

structure ServerInfo where
  ip : Bytes
  port : U32
deriving DecidableEq, Repr

structure TunnelInfo where
  localIp : Bytes
  serverIp : Bytes
  serverPort : Bytes
  upBw : Bytes
  downBw : Bytes
  priority : Bytes
deriving DecidableEq, Repr

structure NodeInfo where
  nodeID : U32
  virtualIP : Bytes
  subNet : Bytes
  netMask : U32
  macAddr : Bytes
deriving DecidableEq, Repr

/-- `mzConfig` as `reset` and the default constructors of its members leave it. -/
structure MzConfig where
  userID : U32 := 0
  connectMode : U32 := 0
  timerInterval : U32 := 0
  packetSize : U32 := 0
  gatewayBw : U32 := 0
  gateWay : U32 := 0
  meshBw : U32 := 0
  debug : U32 := 0
  thread : U32 := 0
  netMask : U32 := 24
  sleepMs : U32 := 10
  tapMode : U32 := 0
  bondMode : U32 := 0
  statistics : U32 := 0
  onlyAcc : U32 := 0
  venderID : Bytes := []
  userIP : Bytes := []
  devName : Bytes := []
  logFile : Bytes := str "./app.log"
  statFile : Bytes := str "./stat.log"
  meshFile : Bytes := str "./mesh.txt"
  upCmd : Bytes := []
  downCmd : Bytes := []
  confPath : Bytes := []
  macAddr : Bytes := []
  encrypt : Bytes := []
  outDevNameMaster : Bytes := []
  outDevNameSlave : Bytes := []
  tunnelList : List TunnelInfo := []
  serverList : List ServerInfo := []
  nodeInfoList : List NodeInfo := []
deriving DecidableEq, Repr

/-- `mzConfig::split`: the tokens of a copy of `str.c_str()`. -/
def split (s pattern : Bytes) : List Bytes := strtoks (cstr s).length (cstr s) (cstr pattern)

theorem split_eq (s pattern : Bytes) : split s pattern = pieces (cstr pattern) (cstr s) :=
  strtoks_eq _ _ _ (Nat.le_refl _)

/-- `ValueToIP`: the bytes of the value, the most significant first. -/
def valueToIP (nValue : U32) : Bytes :=
  decimal ((nValue &&& 0xff000000) >>> 24).toNat ++ str "." ++
  decimal ((nValue &&& 0x00ff0000) >>> 16).toNat ++ str "." ++
  decimal ((nValue &&& 0x0000ff00) >>> 8).toNat ++ str "." ++
  decimal (nValue &&& 0x000000ff).toNat

theorem byte_toNat_lt (x : U32) (i : Nat) : (byte x i).toNat < 256 := (byte x i).isLt

/-- Masking one byte and shifting it down selects it. -/
theorem masked_byte (x m : U32) (i : Nat) (h : m >>> (8 * i) = 0xff) :
    ((x &&& m) >>> (8 * i)).toNat = (byte x i).toNat := by
  rw [BitVec.ushiftRight_and_distrib, h, BitVec.toNat_and, BitVec.toNat_ushiftRight, byte,
    BitVec.extractLsb'_toNat]
  exact Nat.and_two_pow_sub_one_eq_mod _ 8

/-- An address text is the dotted quad of the address bytes. -/
theorem valueToIP_eq (x : U32) :
    valueToIP x =
      quad (byte x 3).toNat (byte x 2).toNat (byte x 1).toNat (byte x 0).toNat := by
  have h3 := masked_byte x 0xff000000 3 (by decide)
  have h2 := masked_byte x 0x00ff0000 2 (by decide)
  have h1 := masked_byte x 0x0000ff00 1 (by decide)
  have h0 := masked_byte x 0x000000ff 0 (by decide)
  rw [Nat.mul_zero, BitVec.ushiftRight_zero] at h0
  rw [valueToIP, h3, h2, h1, h0, quad_eq]
  simp [str]

/-- The text of a value denotes it. -/
theorem inetAddr_valueToIP (x : U32) : htonl (inetAddr (valueToIP x)) = x := by
  rw [valueToIP_eq, inetAddr_quad (byte_toNat_lt x 3) (byte_toNat_lt x 2) (byte_toNat_lt x 1)
    (byte_toNat_lt x 0), htonl_le32]
  simp only [BitVec.ofNat_toNat, BitVec.setWidth_eq]
  exact le32_byte x

end Cpe.Main
