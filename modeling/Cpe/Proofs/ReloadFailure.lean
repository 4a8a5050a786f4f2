import Cpe.Main.LoadConfig

/-! # Reloads that fail

`reload` resets the configuration before it knows that the file can be read,
and does not look at the result of `loadConfig`. -/
namespace Cpe.Proofs.ReloadFailure
open Cpe.Lib.ByteOrder Cpe.Lib.CString Cpe.Main

/-- `readFile` throws. -/
def Unloadable {S : Type} : FileContent S → Prop
  | .unreadable | .malformed => True
  | .parsed _ => False

/-- Every field that `reset` names has the value of a new configuration. -/
def Unset (c : MzConfig) : Prop :=
  c = {
    venderID := c.venderID
    confPath := c.confPath
    macAddr := c.macAddr
    outDevNameMaster := c.outDevNameMaster
    outDevNameSlave := c.outDevNameSlave
    tunnelList := c.tunnelList
    serverList := c.serverList
    nodeInfoList := c.nodeInfoList }

instance (c : MzConfig) : Decidable (Unset c) := inferInstanceAs (Decidable (c = _))

theorem reset_eq_self_iff (c : MzConfig) : c.reset = c ↔ Unset c := eq_comm

section
variable {S : Type} [LibConfig S] {files : Files S}

/-- A load that fails changes nothing but an empty path. -/
theorem loadConfig_unloadable {fileName : Bytes} (h : Unloadable (files (cstr fileName)))
    (c : MzConfig) :
    c.loadConfig files fileName = .ok (EXIT_FAILURE,
      if c.confPath.length = 0 then { c with confPath := cstr fileName } else c) := by
  unfold MzConfig.loadConfig
  cases hfile : files (cstr fileName) with
  | unreadable => rfl
  | malformed => rfl
  | parsed root =>
    rw [hfile] at h
    exact h.elim

/-- What is left behind a reload that fails. -/
theorem reload_unloadable {c : MzConfig} (hpath : c.confPath.length ≠ 0)
    (h : Unloadable (files (cstr c.confPath))) : c.reload files = .ok c.reset := by
  have hreset : c.reset.confPath.length ≠ 0 := hpath
  rw [MzConfig.reload, if_neg hpath, loadConfig_unloadable h, if_neg hreset]
  rfl

/-- **A reload that fails keeps the configuration** exactly if there was nothing
in it to reset. -/
theorem failed_reload_keeps_iff (c : MzConfig) (files : Files S) (hpath : c.confPath.length ≠ 0)
    (h : Unloadable (files (cstr c.confPath))) : c.reload files = .ok c ↔ Unset c := by
  rw [reload_unloadable hpath h, Except.ok.injEq]
  exact reset_eq_self_iff c

end

/-! ## A user id -/

def noFiles : Files Setting := fun _ => .unreadable

def userConfig : MzConfig := { confPath := str "mingzhui.cfg", userID := 7 }

/-- The user id of a running configuration is gone when the file cannot be read. -/
theorem user_id_lost :
    Unloadable (noFiles (cstr userConfig.confPath)) ∧
      ¬ userConfig.reload noFiles = .ok userConfig := by
  have hfile : Unloadable (noFiles (cstr userConfig.confPath)) := trivial
  refine ⟨hfile, ?_⟩
  intro h
  rw [reload_unloadable (by decide) hfile, Except.ok.injEq] at h
  exact absurd (congrArg MzConfig.userID h) (by decide)

/-- Only a vender id, which no reload resets. -/
def venderConfig : MzConfig := { confPath := str "mingzhui.cfg", venderID := str "mz" }

theorem vender_id_kept : venderConfig.reload noFiles = .ok venderConfig :=
  (failed_reload_keeps_iff venderConfig noFiles (by decide) trivial).mpr (by decide)

end Cpe.Proofs.ReloadFailure
