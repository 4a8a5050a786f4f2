import Cpe.Main.LoadConfig

/-! # Reload and fresh load

`reset` leaves the vender id, the MAC address, the two output devices and the
tunnels as they are, and a load only replaces what its file sets, and appends
the tunnels. A sequence of reloads ends where a fresh load of the last file does
exactly if nothing of the earlier files is left in these five. -/
namespace Cpe.Proofs.Reload
open Cpe.Lib.ByteOrder Cpe.Lib.CString Cpe.Main

variable {S : Type} [LibConfig S]

/-- A new configuration loads the first content of the file, and reloads after
each change. -/
def loadThenReload (path : Bytes) : List S → Except MzConfig MzConfig
  | [] => .ok {}
  | first :: rest => do
    let (_, c) ← ({} : MzConfig).loadConfig (onDisk path first) path
    rest.foldlM (fun c root => c.reload (onDisk path root)) c

/-- The texts that `reset` does not reset. -/
def keptTexts : List String := ["venderID", "macAddr", "outDevNameMaster", "outDevNameSlave"]

/-- The last text that a sequence of files has for a setting. -/
def lastText (roots : List S) (name : String) : Bytes :=
  roots.foldl (fun old root => (text root name).getD old) []

/-- Nothing of the earlier files is left behind the last one. -/
structure Forgotten (earlier : List S) (last : S) : Prop where
  tunnels : ∀ root ∈ earlier, tunnelsOf root = []
  texts : ∀ name ∈ keptTexts, (text last name).isSome ∨ lastText earlier name = []

/-! ## Two files -/

def venderFile (userID : U32) (venderID : Bytes) : Setting :=
  .group [(str "userID", .number userID), (str "venderID", .text venderID)]

def tunnelFile : Setting :=
  .group [(str "tunnel_list", .list [.group [
    (str "local_ip", .text (str "10.0.0.1")), (str "server_ip", .text (str "1.2.3.4")),
    (str "server_port", .text (str "443")), (str "up_bandwidth", .text (str "10")),
    (str "down_bandwidth", .text (str "10")), (str "priority", .text (str "1"))]])]

/-! ## Loads as one step -/

/-- A configuration that has been given its path. -/
def named (path : Bytes) : MzConfig := { confPath := cstr path }

/-- A reset and a load. -/
def reloaded (c : MzConfig) (root : S) : MzConfig := loaded root c.reset

section
variable {path : Bytes}

theorem reload_eq (hpath : cstr path ≠ []) {root : S} (hroot : Valid root) {c : MzConfig}
    (hc : c.confPath = cstr path) : c.reload (onDisk path root) = .ok (reloaded c root) := by
  have hlen : ¬ (cstr path).length = 0 := fun h => hpath (List.length_eq_zero_iff.mp h)
  have hfile : onDisk path root (cstr (cstr path)) = .parsed root := by
    rw [cstr_cstr]
    exact onDisk_path path root
  have hreset : c.reset.confPath = cstr path := hc
  rw [MzConfig.reload, hc, if_neg hlen, loadConfig_eq hfile hroot, hreset, if_neg hlen]
  rfl

theorem foldlM_reload (hpath : cstr path ≠ []) (roots : List S)
    (hvalid : ∀ root ∈ roots, Valid root) {c : MzConfig} (hc : c.confPath = cstr path) :
    roots.foldlM (fun c root => c.reload (onDisk path root)) c =
      Except.ok (roots.foldl reloaded c) := by
  induction roots generalizing c with
  | nil => rfl
  | cons root roots ih =>
    rw [List.foldlM_cons, reload_eq hpath (hvalid root List.mem_cons_self) hc, List.foldl_cons]
    exact ih (fun other hother => hvalid other (List.mem_cons_of_mem root hother)) hc

/-- **Every load, the first one too, is a reset and a load.** -/
theorem loadThenReload_eq (hpath : cstr path ≠ []) (roots : List S) (hroots : roots ≠ [])
    (hvalid : ∀ root ∈ roots, Valid root) :
    loadThenReload path roots = .ok (roots.foldl reloaded (named path)) := by
  cases roots with
  | nil => exact absurd rfl hroots
  | cons first rest =>
    have hfirst : ({} : MzConfig).loadConfig (onDisk path first) path =
        .ok (0, reloaded (named path) first) :=
      loadConfig_eq (onDisk_path path first) (hvalid first List.mem_cons_self) {}
    rw [loadThenReload, hfirst, List.foldl_cons]
    exact foldlM_reload hpath rest
      (fun other hother => hvalid other (List.mem_cons_of_mem first hother)) rfl

end

/-! ## What is left of earlier files -/

/-- The text of a setting that `reset` leaves. -/
def keptText (c : MzConfig) : String → Bytes
  | "venderID" => c.venderID
  | "macAddr" => c.macAddr
  | "outDevNameMaster" => c.outDevNameMaster
  | "outDevNameSlave" => c.outDevNameSlave
  | _ => []

/-- The configuration that a sequence of loads leaves, as far as the next reset
does not overwrite it. -/
structure Kept (path : Bytes) (roots : List S) (c : MzConfig) : Prop where
  confPath : c.confPath = cstr path
  texts : ∀ name ∈ keptTexts, keptText c name = lastText roots name
  tunnels : c.tunnelList = roots.flatMap tunnelsOf
  servers : c.serverList = []
  nodes : c.nodeInfoList = []

theorem forall_keptTexts {P : String → Prop} : (∀ name ∈ keptTexts, P name) ↔
    P "venderID" ∧ P "macAddr" ∧ P "outDevNameMaster" ∧ P "outDevNameSlave" := by
  simp only [keptTexts, List.forall_mem_cons, List.not_mem_nil, false_implies, implies_true,
    and_true]

theorem lastText_append (roots : List S) (root : S) (name : String) :
    lastText (roots ++ [root]) name = (text root name).getD (lastText roots name) := by
  rw [lastText, List.foldl_append]
  rfl

/-- A reload replaces what its file has and keeps the rest of the four texts. -/
theorem keptText_reloaded (c : MzConfig) (root : S) : ∀ name ∈ keptTexts,
    keptText (reloaded c root) name = (text root name).getD (keptText c name) :=
  forall_keptTexts.mpr ⟨rfl, rfl, rfl, rfl⟩

theorem Kept.step {path : Bytes} {roots : List S} {c : MzConfig} (h : Kept path roots c)
    (root : S) : Kept path (roots ++ [root]) (reloaded c root) where
  confPath := h.confPath
  texts name hname := by
    rw [keptText_reloaded c root name hname, h.texts name hname, lastText_append]
  tunnels := by
    have htunnels : (reloaded c root).tunnelList = c.tunnelList ++ tunnelsOf root := rfl
    rw [htunnels, h.tunnels, List.flatMap_append, List.flatMap_singleton]
  servers := h.servers
  nodes := h.nodes

theorem kept_named (path : Bytes) : Kept path ([] : List S) (named path) where
  confPath := rfl
  texts := forall_keptTexts.mpr ⟨rfl, rfl, rfl, rfl⟩
  tunnels := rfl
  servers := rfl
  nodes := rfl

/-- **What every sequence of loads keeps.** -/
theorem kept_foldl (path : Bytes) (roots : List S) :
    Kept path roots (roots.foldl reloaded (named path)) := by
  induction roots using List.reverseRecOn with
  | nil => exact kept_named path
  | append_singleton roots root ih =>
    rw [List.foldl_append, List.foldl_cons, List.foldl_nil]
    exact ih.step root

/-! ## When nothing is left -/

attribute [ext] MzConfig

/-- What a reset resets is the same after every load of a file. -/
theorem reloaded_ext {c c' : MzConfig} {root : S} (hpath : c.confPath = c'.confPath)
    (hservers : c.serverList = c'.serverList) (hnodes : c.nodeInfoList = c'.nodeInfoList)
    (htunnels : (reloaded c root).tunnelList = (reloaded c' root).tunnelList)
    (htexts : ∀ name ∈ keptTexts,
      keptText (reloaded c root) name = keptText (reloaded c' root) name) :
    reloaded c root = reloaded c' root := by
  obtain ⟨hvender, hmac, hmaster, hslave⟩ := forall_keptTexts.mp htexts
  apply MzConfig.ext
  case venderID => exact hvender
  case macAddr => exact hmac
  case outDevNameMaster => exact hmaster
  case outDevNameSlave => exact hslave
  case tunnelList => exact htunnels
  case confPath => exact hpath
  case serverList => exact hservers
  case nodeInfoList => exact hnodes
  all_goals rfl

theorem getD_eq_nil_iff (t : Option Bytes) (old : Bytes) :
    t.getD old = t.getD [] ↔ t.isSome ∨ old = [] := by
  cases t with
  | none => simp
  | some t => simp

/-- Loading over what earlier files left is a fresh load exactly if they left
nothing. -/
theorem Kept.reloaded_eq_iff {path : Bytes} {earlier : List S} {c : MzConfig}
    (h : Kept path earlier c) (last : S) :
    reloaded c last = reloaded (named path) last ↔ Forgotten earlier last := by
  have hnew := kept_named (S := S) path
  have htext : ∀ name ∈ keptTexts,
      (keptText (reloaded c last) name = keptText (reloaded (named path) last) name ↔
        (text last name).isSome ∨ lastText earlier name = []) := by
    intro name hname
    rw [keptText_reloaded c last name hname, keptText_reloaded (named path) last name hname,
      h.texts name hname, hnew.texts name hname]
    exact getD_eq_nil_iff (text last name) (lastText earlier name)
  have htunnels : (reloaded c last).tunnelList = (reloaded (named path) last).tunnelList ↔
      ∀ root ∈ earlier, tunnelsOf root = [] := by
    rw [(h.step last).tunnels, (hnew.step last).tunnels, List.flatMap_append, List.nil_append,
      List.append_left_eq_self, List.flatMap_eq_nil_iff]
  constructor
  · intro heq
    refine ⟨htunnels.mp (by rw [heq]), fun name hname => (htext name hname).mp (by rw [heq])⟩
  · intro hforgotten
    exact reloaded_ext (h.confPath.trans hnew.confPath.symm) (h.servers.trans hnew.servers.symm)
      (h.nodes.trans hnew.nodes.symm) (htunnels.mpr hforgotten.tunnels)
      (fun name hname => (htext name hname).mpr (hforgotten.texts name hname))

/-- **Reloads end where a fresh load of the last file does exactly if the
earlier files left nothing.** -/
theorem reloads_fresh_iff {path : Bytes} (hpath : cstr path ≠ []) (earlier : List S) (last : S)
    (hearlier : ∀ root ∈ earlier, Valid root) (hlast : Valid last) :
    loadThenReload path (earlier ++ [last]) = loadThenReload path [last] ↔
      Forgotten earlier last := by
  have hone : ∀ root ∈ [last], Valid root := List.forall_mem_singleton.mpr hlast
  have hall : ∀ root ∈ earlier ++ [last], Valid root :=
    List.forall_mem_append.mpr ⟨hearlier, hone⟩
  rw [loadThenReload_eq hpath _ (by simp) hall, loadThenReload_eq hpath _ (by simp) hone,
    List.foldl_append, Except.ok.injEq]
  simp only [List.foldl_cons, List.foldl_nil]
  exact (kept_foldl path earlier).reloaded_eq_iff last

/-- A vender id that the next file has too, and user ids. -/
theorem vender_replaced :
    Valid (venderFile 7 (str "a")) ∧ Valid (venderFile 8 (str "b")) ∧
    (loadThenReload (str "mingzhui.cfg") ([venderFile 7 (str "a")] ++ [venderFile 8 (str "b")]) =
      loadThenReload (str "mingzhui.cfg") [venderFile 8 (str "b")] ↔
      Forgotten [venderFile 7 (str "a")] (venderFile 8 (str "b"))) ∧
    Forgotten [venderFile 7 (str "a")] (venderFile 8 (str "b")) := by
  have hearlier : ∀ root ∈ [venderFile 7 (str "a")], Valid root := by decide
  refine ⟨by decide, by decide, reloads_fresh_iff (by decide) _ _ hearlier (by decide), ?_, ?_⟩
  · exact List.forall_mem_singleton.mpr rfl
  · exact forall_keptTexts.mpr ⟨.inl rfl, .inr rfl, .inr rfl, .inr rfl⟩

/-- A file with one tunnel, loaded and reloaded unchanged, has it twice. -/
theorem unchanged_tunnel_doubled :
    Valid tunnelFile ∧
    loadThenReload (str "mingzhui.cfg") [tunnelFile, tunnelFile] ≠
      loadThenReload (str "mingzhui.cfg") [tunnelFile] := by
  have hvalid : Valid tunnelFile := by decide
  have hpath : cstr (str "mingzhui.cfg") ≠ [] := by decide
  refine ⟨hvalid, ?_⟩
  intro h
  rw [loadThenReload_eq hpath _ (by simp) (by simpa using hvalid),
    loadThenReload_eq hpath _ (by simp) (by simpa using hvalid), Except.ok.injEq] at h
  have htunnels := congrArg (·.tunnelList.length) h
  exact absurd htunnels (by decide)

/-! ## A file that does not change -/

theorem lastText_replicate {root : S} {name : String} (h : text root name = none) (n : Nat) :
    lastText (List.replicate n root) name = [] := by
  induction n with
  | zero => rfl
  | succ n ih => rw [List.replicate_succ', lastText_append, h, Option.getD_none, ih]

/-- **Reloads of an unchanged file** are idempotent exactly if it has no
tunnels. -/
theorem forgotten_unchanged_iff (root : S) (n : Nat) :
    Forgotten (List.replicate (n + 1) root) root ↔ tunnelsOf root = [] := by
  constructor
  · intro h
    exact h.tunnels root (by simp)
  · intro h
    refine ⟨fun other hother => by rw [List.eq_of_mem_replicate hother, h], fun name _ => ?_⟩
    -- a text that this file has not is in none of the files before
    cases htext : text root name with
    | some t => exact .inl rfl
    | none => exact .inr (lastText_replicate htext (n + 1))

end Cpe.Proofs.Reload
