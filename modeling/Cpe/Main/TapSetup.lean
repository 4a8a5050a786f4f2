import Cpe.Main.LoadConfig

/-! # Setting up the device

What `main` does with the configured device name and MAC address before the
loop: `Server::Server` creates the device and `init_tap_tun_dev` sets its
address, or writes the address that the kernel gave it to the configuration
file. `none` is a process that ends, or a copy that overruns its array. -/
namespace Cpe.Main
open Cpe.Lib.ByteOrder Cpe.Lib.CString Cpe.Lib.Number

structure Mac where
  bytes : Bytes
  length_bytes : bytes.length = 6
deriving DecidableEq

theorem Mac.eq_of_bytes {m m' : Mac} (h : m.bytes = m'.bytes) : m = m' := by
  cases m
  cases m'
  cases h
  rfl

def Mac.zero : Mac := ⟨[0, 0, 0, 0, 0, 0], rfl⟩

/-- The kernel while one process starts: the name it gives a device that is
asked for, if it creates it, and the addresses of its devices by their names. -/
structure Kernel where
  create : Bytes → Option Bytes
  hwaddr : Bytes → Option Mac
  created : ∀ {name dev}, create name = some dev → (hwaddr dev).isSome

def IFNAMSIZ : Nat := 16

/-- `tun_create`: what is in `dev` behind the call. -/
def tunCreate (k : Kernel) (dev : Bytes) : Bytes := (k.create dev).getD dev

/-- `get_mac`: what is in `mac` behind the call. -/
def getMac (k : Kernel) (interfaceName : Bytes) (mac : Mac) : Mac :=
  (k.hwaddr (cstr interfaceName)).getD mac

def hexMacAddr (macAddr : Bytes) : Bytes :=
  if macAddr.length ≠ 6 then str "mac addr error"
  else (str ":").intercalate (macAddr.map hex2)

/-- Is there no address in the configuration? -/
def MzConfig.noMac (c : MzConfig) : Bool :=
  c.macAddr.length = 0 || c.macAddr = str "00:00:00:00:00:00"

/-- The bytes of a text of six pieces. -/
def macBytes (macAddr : Bytes) : Option Bytes :=
  let byteArray := split macAddr (str ":")
  if byteArray.length ≠ 6 then none
  else some (byteArray.map fun b => BitVec.ofInt 8 (strtol 16 b))

/-- The device and the address that `set_mac` is given, if it is called, and
the files. -/
structure TapSetup (S : Type) where
  setMac : Option (Bytes × Bytes)
  files : Files S

section
variable {S : Type} [LibConfig S]

def initTapTunDev (k : Kernel) (config : MzConfig) (devName : Bytes) (files : Files S) :
    Option (TapSetup S) :=
  -- `set_if_flags` fails without the device
  if k.hwaddr devName = none then none
  else if config.tapMode = 0 then some { setMac := none, files }
  else if config.noMac then
    -- the device is asked for under the configured name
    let mac := getMac k config.devName Mac.zero
    some { setMac := none, files := (config.setMacAddr files (hexMacAddr mac.bytes)).2 }
  else do
    let mac ← macBytes config.macAddr
    return { setMac := some (devName, mac), files }

/-- `main` up to the end of the constructor of `Server`. -/
def startMain (k : Kernel) (files : Files S) : Option (TapSetup S) :=
  match ({} : MzConfig).loadConfig files (str "mingzhui.cfg") with
  | .error _ => none
  | .ok (ret, config) =>
    if ret ≠ 0 then none
    else do
      let devName ← strcpy 128 (if config.devName.length ≠ 0 then config.devName else str "tunUDP")
      -- `set_tun_name`, into `m_tun_tap_dev_name`
      let devName ← strcpy IFNAMSIZ devName
      initTapTunDev k config (tunCreate k devName) files

/-- Two starts, the second from the files that the first leaves: what the second
gives to `set_mac`. -/
def restartMac (k k' : Kernel) (files : Files S) : Option (Bytes × Bytes) := do
  let first ← startMain k files
  let second ← startMain k' first.files
  second.setMac

end

/-! ## The text of an address -/

theorem length_map_hex2 (m : Mac) : (m.bytes.map hex2).length = 6 := by
  rw [List.length_map, m.length_bytes]

theorem hexMacAddr_eq (m : Mac) :
    hexMacAddr m.bytes = (str ":").intercalate (m.bytes.map hex2) := by
  rw [hexMacAddr, if_neg (by simp [m.length_bytes])]

theorem no_nul_hexMacAddr (m : Mac) : 0#8 ∉ hexMacAddr m.bytes := by
  rw [hexMacAddr_eq]
  intro h
  have hjoined : 0#8 ∈ [58#8].intercalate (m.bytes.map hex2) := h
  rcases mem_intercalate hjoined with h | ⟨t, ht, h⟩
  · exact absurd h (by decide)
  · obtain ⟨b, -, rfl⟩ := List.mem_map.mp ht
    exact not_mem_hex2 rfl b h

theorem split_hexMacAddr (m : Mac) : split (hexMacAddr m.bytes) (str ":") = m.bytes.map hex2 := by
  have hpieces : ∀ t ∈ m.bytes.map hex2, 58#8 ∉ t := by
    intro t ht
    obtain ⟨b, -, rfl⟩ := List.mem_map.mp ht
    exact not_mem_hex2 rfl b
  have hnonempty : (m.bytes.map hex2).filter (· ≠ []) = m.bytes.map hex2 := by
    rw [List.filter_eq_self]
    intro t ht
    obtain ⟨b, -, rfl⟩ := List.mem_map.mp ht
    rfl
  rw [split_eq, cstr_eq_self (no_nul_hexMacAddr m), hexMacAddr_eq]
  exact (pieces_intercalate 58 _ hpieces).trans hnonempty

/-- **A printed address is read back.** -/
theorem macBytes_hexMacAddr (m : Mac) : macBytes (hexMacAddr m.bytes) = some m.bytes := by
  rw [macBytes, split_hexMacAddr]
  simp only [length_map_hex2, ne_eq, not_true_eq_false, if_false, List.map_map, Option.some.injEq]
  refine (List.map_congr_left fun b _ => ?_).trans (List.map_id m.bytes)
  simp only [Function.comp_apply, strtol_hex2, BitVec.ofInt_natCast, BitVec.ofNat_toNat,
    BitVec.setWidth_eq, id_eq]

theorem hexMacAddr_inj {m m' : Mac} (h : hexMacAddr m.bytes = hexMacAddr m'.bytes) : m = m' := by
  have hread := macBytes_hexMacAddr m
  rw [h, macBytes_hexMacAddr] at hread
  exact (Mac.eq_of_bytes (Option.some.inj hread)).symm

theorem hexMacAddr_zero : hexMacAddr Mac.zero.bytes = str "00:00:00:00:00:00" := by decide

/-- A printed address is taken for none exactly if it is the zero address. -/
theorem noMac_hexMacAddr (c : MzConfig) (m : Mac) :
    { c with macAddr := hexMacAddr m.bytes }.noMac = true ↔ m = Mac.zero := by
  have hnonempty : hexMacAddr m.bytes ≠ [] := by
    intro h
    have hread := macBytes_hexMacAddr m
    rw [h] at hread
    exact absurd hread (by simp [macBytes, split, strtoks, cstr])
  simp only [MzConfig.noMac, Bool.or_eq_true, decide_eq_true_eq, List.length_eq_zero_iff,
    hnonempty, false_or, ← hexMacAddr_zero]
  constructor
  · exact hexMacAddr_inj
  · intro h
    rw [h]

end Cpe.Main
