import Cpe.Main.TapSetup

/-! # A generated address after a restart

A TAP device without a configured address gets one from the kernel, and the
server writes it to its file for the next start. It asks the kernel for the
device that the file names, which need not be the device it has created. -/
namespace Cpe.Proofs.MacRestart
open Cpe.Lib.ByteOrder Cpe.Lib.CString Cpe.Main

variable {S : Type} [LibConfig S]

def configName : Bytes := str "mingzhui.cfg"

/-- The configuration that a file gives a new process. -/
def booted (root : S) : MzConfig := loaded root { confPath := cstr configName }

/-- The name that a new process asks a device for. -/
def requested (root : S) : Bytes :=
  if (booted root).devName.length ≠ 0 then cstr (booted root).devName else str "tunUDP"

/-- A configuration in TAP mode without an address, and two starts in which the
kernel creates the device. The address of the first is not zero. -/
structure GeneratedMac (k k' : Kernel) (files : Files S) (root : S) (dev dev' : Bytes)
    (m : Mac) : Prop where
  file : files configName = .parsed root
  valid : Valid root
  tapMode : (booted root).tapMode ≠ 0
  noMac : (booted root).noMac = true
  created : k.create (requested root) = some dev
  assigned : k.hwaddr dev = some m
  nonzero : m ≠ Mac.zero
  recreated : k'.create (requested root) = some dev'

/-! ## One start -/

theorem cstr_configName : cstr configName = configName := by decide

theorem startMain_eq {files : Files S} {root : S} (hfile : files configName = .parsed root)
    (hvalid : Valid root) (k : Kernel) :
    startMain k files =
      if (requested root).length < IFNAMSIZ then
        initTapTunDev k (booted root) (tunCreate k (requested root)) files
      else none := by
  have hread : files (cstr configName) = .parsed root := by
    rw [cstr_configName]
    exact hfile
  have hload : ({} : MzConfig).loadConfig files (str "mingzhui.cfg") = .ok (0, booted root) :=
    loadConfig_eq hread hvalid {}
  have hname : cstr (if (booted root).devName.length ≠ 0 then (booted root).devName
      else str "tunUDP") = requested root := by
    rw [requested, apply_ite cstr]
    rfl
  rw [startMain, hload]
  simp only [ne_eq, not_true_eq_false, if_false, Option.bind_eq_bind]
  rw [← Option.bind_assoc, strcpy_bind (by decide), strcpy, hname]
  by_cases hfit : (requested root).length < IFNAMSIZ
  · rw [if_pos hfit, if_pos hfit, Option.bind_some]
  · rw [if_neg hfit, if_neg hfit, Option.bind_none]

/-! ## The edited file -/

/-- The root setting that `setMacAddr` leaves. -/
def withMac (root : S) (mac : Bytes) : S :=
  LibConfig.addText
    (if (LibConfig.lookup root (str "macAddr")).isSome then LibConfig.remove root (str "macAddr")
      else root) (str "macAddr") (cstr mac)

theorem setMacAddr_eq {files : Files S} {root : S} (hfile : files configName = .parsed root)
    (mac : Bytes) :
    (booted root).setMacAddr files mac =
      (0, Function.update files configName (.parsed (withMac root mac))) := by
  have hpath : cstr (booted root).confPath = configName := by
    have hconf : (booted root).confPath = cstr configName := rfl
    rw [hconf, cstr_cstr, cstr_configName]
  rw [MzConfig.setMacAddr, hpath, hfile]
  rfl

section
variable [LawfulLibConfig S]

theorem lookup_withMac_ne (root : S) (mac : Bytes) {name : Bytes} (hname : name ≠ str "macAddr") :
    LibConfig.lookup (withMac root mac) name = LibConfig.lookup root name := by
  rw [withMac, LawfulLibConfig.lookup_addText_ne _ hname]
  split
  · exact LawfulLibConfig.lookup_remove_ne root hname
  · rfl

theorem text_withMac (root : S) (mac : Bytes) :
    text (withMac root mac) "macAddr" = some (cstr mac) := by
  refine LawfulLibConfig.lookup_addText_self ?_ (cstr mac)
  split
  · exact LawfulLibConfig.lookup_remove_self root _
  · rename_i hnone
    simpa using hnone

theorem assigned_ne_macAddr : ∀ name ∈ assignedNames, str name ≠ str "macAddr" := by decide

/-- The edit leaves a valid file, -/
theorem valid_withMac {root : S} (h : Valid root) (mac : Bytes) : Valid (withMac root mac) := by
  intro name hname setting hsetting
  rw [lookup_withMac_ne root mac (assigned_ne_macAddr name hname)] at hsetting
  exact h name hname setting hsetting

/-- with the address, -/
theorem macAddr_withMac (root : S) (mac : Bytes) :
    (booted (withMac root mac)).macAddr = cstr mac := by
  have hfield : (booted (withMac root mac)).macAddr =
      (text (withMac root mac) "macAddr").getD [] := rfl
  rw [hfield, text_withMac, Option.getD_some]

/-- the mode -/
theorem tapMode_withMac (root : S) (mac : Bytes) :
    (booted (withMac root mac)).tapMode = (booted root).tapMode := by
  have hfield : ∀ root : S, (booted root).tapMode = (number root "tapMode").getD 0 := fun _ => rfl
  rw [hfield, hfield, number, number, lookup_withMac_ne root mac (by decide)]

/-- and the device name that it had. -/
theorem requested_withMac (root : S) (mac : Bytes) :
    requested (withMac root mac) = requested root := by
  have hfield : ∀ root : S, (booted root).devName = (text root "devName").getD [] := fun _ => rfl
  rw [requested, requested, hfield, hfield, text, text, lookup_withMac_ne root mac (by decide)]

end

/-! ## Two starts -/

/-- A start from a file with an address sets it, unless it is zero. -/
theorem setMac_withMac [LawfulLibConfig S] {files : Files S} {root : S} {x : Mac}
    (hfile : files configName = .parsed (withMac root (hexMacAddr x.bytes)))
    (hvalid : Valid root) (htap : (booted root).tapMode ≠ 0)
    (hfit : (requested root).length < IFNAMSIZ) {k : Kernel} {dev : Bytes}
    (hcreate : k.create (requested root) = some dev) :
    (startMain k files).bind (·.setMac) =
      if x = Mac.zero then none else some (dev, x.bytes) := by
  have hdev : tunCreate k (requested root) = dev := by
    rw [tunCreate, hcreate, Option.getD_some]
  have hknown : k.hwaddr dev ≠ none := Option.isSome_iff_ne_none.mp (k.created hcreate)
  have hmac : (booted (withMac root (hexMacAddr x.bytes))).macAddr = hexMacAddr x.bytes := by
    rw [macAddr_withMac, cstr_eq_self (no_nul_hexMacAddr x)]
  have hnoMac : (booted (withMac root (hexMacAddr x.bytes))).noMac = true ↔ x = Mac.zero := by
    have hprinted := noMac_hexMacAddr (booted (withMac root (hexMacAddr x.bytes))) x
    rw [← hmac] at hprinted
    exact hprinted
  rw [← tapMode_withMac root (hexMacAddr x.bytes)] at htap
  rw [startMain_eq hfile (valid_withMac hvalid _), requested_withMac, if_pos hfit, hdev,
    initTapTunDev, if_neg hknown, if_neg htap]
  by_cases hzero : x = Mac.zero
  · rw [if_pos (hnoMac.mpr hzero), if_pos hzero]
    rfl
  · rw [if_neg (fun hno => hzero (hnoMac.mp hno)), if_neg hzero, hmac, macBytes_hexMacAddr]
    rfl

/-- The address that a first start takes for the one of its device. -/
def written (k : Kernel) (root : S) : Mac := getMac k (booted root).devName Mac.zero

namespace GeneratedMac
variable {k k' : Kernel} {files : Files S} {root : S} {dev dev' : Bytes} {m : Mac}

theorem first_start (h : GeneratedMac k k' files root dev dev' m)
    (hfit : (requested root).length < IFNAMSIZ) :
    startMain k files = some {
      setMac := none
      files := Function.update files configName
        (.parsed (withMac root (hexMacAddr (written k root).bytes))) } := by
  have hdev : tunCreate k (requested root) = dev := by
    rw [tunCreate, h.created, Option.getD_some]
  have hknown : k.hwaddr dev ≠ none := Option.isSome_iff_ne_none.mp (k.created h.created)
  rw [startMain_eq h.file h.valid, if_pos hfit, hdev, initTapTunDev, if_neg hknown,
    if_neg h.tapMode, if_pos h.noMac]
  simp only [setMacAddr_eq h.file]
  rfl

theorem second_start [LawfulLibConfig S] (h : GeneratedMac k k' files root dev dev' m)
    (hfit : (requested root).length < IFNAMSIZ) :
    restartMac k k' files =
      if written k root = Mac.zero then none else some (dev', (written k root).bytes) := by
  rw [restartMac, h.first_start hfit]
  exact setMac_withMac (Function.update_self configName _ files) h.valid h.tapMode hfit h.recreated

end GeneratedMac

/-- The first start writes the address of its device exactly if the kernel has
it under the configured name. -/
theorem written_eq_iff {k : Kernel} {root : S} {m : Mac} (hm : m ≠ Mac.zero) :
    written k root = m ↔ k.hwaddr (cstr (booted root).devName) = some m := by
  rw [written, getMac]
  cases k.hwaddr (cstr (booted root).devName) with
  | none => simpa using hm.symm
  | some x => simp

/-- **A generated address survives a restart** exactly if the configured name,
which fits its array, is the one of a device with that address. -/
theorem generated_mac_kept_iff [LawfulLibConfig S] {k k' : Kernel} {files : Files S} {root : S}
    {dev dev' : Bytes} {m : Mac} (h : GeneratedMac k k' files root dev dev' m) :
    restartMac k k' files = some (dev', m.bytes) ↔
      (requested root).length < IFNAMSIZ ∧
        k.hwaddr (cstr (booted root).devName) = some m := by
  rw [← written_eq_iff h.nonzero]
  by_cases hfit : (requested root).length < IFNAMSIZ
  · rw [h.second_start hfit]
    simp only [hfit, true_and]
    by_cases hzero : written k root = Mac.zero
    · rw [if_pos hzero, hzero]
      exact iff_of_false (by simp) h.nonzero.symm
    · rw [if_neg hzero]
      simp only [Option.some.injEq, Prod.mk.injEq, true_and]
      exact ⟨Mac.eq_of_bytes, congrArg Mac.bytes⟩
  · have hnone : restartMac k k' files = none := by
      rw [restartMac, startMain_eq h.file h.valid, if_neg hfit]
      rfl
    rw [hnone]
    exact iff_of_false (by simp) (fun hkept => hfit hkept.1)

/-! ## Two devices -/

/-- A kernel with one device, which gets the name that it is asked for under. -/
def oneDevice (dev : Bytes) (m : Mac) : Kernel where
  create name := if name = dev then some name else none
  hwaddr name := if name = dev then some m else none
  created := by
    intro name given hcreate
    by_cases hname : name = dev
    · rw [if_pos hname] at hcreate
      rw [if_pos ((Option.some.inj hcreate).symm.trans hname)]
      rfl
    · rw [if_neg hname] at hcreate
      cases hcreate

def generated : Mac := ⟨[0x52, 0x17, 0xa6, 0x8d, 0x1a, 0x22], rfl⟩

def other : Mac := ⟨[0x02, 0, 0, 0, 0, 1], rfl⟩

/-- TAP mode, with a device name and without. -/
def namedFile : Setting := .group [(str "tapMode", .number 1), (str "devName", .text (str "mesh0"))]

def unnamedFile : Setting := .group [(str "tapMode", .number 1)]

/-- Two starts with such a kernel, in TAP mode and without an address. -/
theorem oneDevice_generated {root : Setting} {dev : Bytes} (hvalid : Valid root)
    (htap : (booted root).tapMode ≠ 0) (hmac : (booted root).noMac = true)
    (hdev : requested root = dev) : GeneratedMac (oneDevice dev generated) (oneDevice dev other)
      (onDisk configName root) root dev dev generated where
  file := if_pos cstr_configName.symm
  valid := hvalid
  tapMode := htap
  noMac := hmac
  created := by
    rw [hdev]
    exact if_pos rfl
  assigned := if_pos rfl
  nonzero := by decide
  recreated := by
    rw [hdev]
    exact if_pos rfl

/-- A device with a configured name gets its address back. -/
theorem named_mac_kept :
    restartMac (oneDevice (str "mesh0") generated) (oneDevice (str "mesh0") other)
      (onDisk configName namedFile) = some (str "mesh0", generated.bytes) := by
  have h : GeneratedMac (oneDevice (str "mesh0") generated) (oneDevice (str "mesh0") other)
      (onDisk configName namedFile) namedFile (str "mesh0") (str "mesh0") generated :=
    oneDevice_generated (by decide) (by decide) (by decide) (by decide)
  exact (generated_mac_kept_iff h).mpr (by decide)

/-- Without a configured name the device is `tunUDP`, but the kernel is asked
for the address of a device without a name. -/
theorem unnamed_mac_lost :
    GeneratedMac (oneDevice (str "tunUDP") generated) (oneDevice (str "tunUDP") other)
      (onDisk configName unnamedFile) unnamedFile (str "tunUDP") (str "tunUDP") generated ∧
    restartMac (oneDevice (str "tunUDP") generated) (oneDevice (str "tunUDP") other)
      (onDisk configName unnamedFile) = none := by
  have h : GeneratedMac (oneDevice (str "tunUDP") generated) (oneDevice (str "tunUDP") other)
      (onDisk configName unnamedFile) unnamedFile (str "tunUDP") (str "tunUDP") generated :=
    oneDevice_generated (by decide) (by decide) (by decide) (by decide)
  have hzero : written (oneDevice (str "tunUDP") generated) unnamedFile = Mac.zero := by decide
  have hsecond := h.second_start (by decide)
  rw [if_pos hzero] at hsecond
  exact ⟨h, hsecond⟩

end Cpe.Proofs.MacRestart
