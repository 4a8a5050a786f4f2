import Cpe.Main.LoadConfig

/-! # Settings of the wrong type

The settings of a file are read in two ways. `lookupValue` leaves a field alone
when its setting is missing or of another type. The conversion of a setting
throws when its type is another one, and its `try` block catches missing
settings only. -/
namespace Cpe.Proofs.BadSettings
open Cpe.Lib.ByteOrder Cpe.Lib.CString Cpe.Main

section
variable {S : Type} [LibConfig S]

/-- The configuration with every setting of a file that has the type of its
field, and the tunnels. -/
def stored (root : S) (c : MzConfig) : MzConfig :=
  { c with
    userID := (number root "userID").getD c.userID
    gateWay := (number root "gateWay").getD c.gateWay
    tapMode := (number root "tapMode").getD c.tapMode
    onlyAcc := (number root "onlyAcc").getD c.onlyAcc
    bondMode := (number root "bondMode").getD c.bondMode
    statistics := (number root "statistics").getD c.statistics
    meshBw := (number root "meshBw").getD c.meshBw
    connectMode := (number root "connectMode").getD c.connectMode
    timerInterval := (number root "timerInterval").getD c.timerInterval
    sleepMs := (number root "sleepMs").getD c.sleepMs
    gatewayBw := (number root "gatewayBw").getD c.gatewayBw
    netMask := (number root "netMask").getD c.netMask
    debug := (number root "debug").getD c.debug
    thread := (number root "thread").getD c.thread
    devName := (text root "devName").getD c.devName
    macAddr := (text root "macAddr").getD c.macAddr
    venderID := (text root "venderID").getD c.venderID
    userIP := (text root "userIP").getD c.userIP
    outDevNameMaster := (text root "outDevNameMaster").getD c.outDevNameMaster
    outDevNameSlave := (text root "outDevNameSlave").getD c.outDevNameSlave
    upCmd := (text root "upCmd").getD c.upCmd
    downCmd := (text root "downCmd").getD c.downCmd
    logFile := (text root "logFile").getD c.logFile
    statFile := (text root "statFile").getD c.statFile
    meshFile := (text root "meshFile").getD c.meshFile
    encrypt := (text root "encrypt").getD c.encrypt
    tunnelList := c.tunnelList ++ tunnelsOf root }

theorem loaded_eq_stored (root : S) (c : MzConfig) : loaded root c = stored root c := rfl

/-! ## Statements that throw -/

/-- A setting that its statement cannot convert. -/
def Throws (root : S) : Statement → Prop
  | .assign name _ => ∃ setting, LibConfig.lookup root (str name) = some setting ∧
      LibConfig.toUInt setting = none
  | _ => False

theorem exec_throws {root : S} {statement : Statement} (h : Throws root statement) (c : MzConfig) :
    statement.exec root c = .error c := by
  cases statement with
  | assign name field =>
    obtain ⟨setting, hlookup, hbad⟩ := h
    simp only [Statement.exec, hlookup, hbad]
  | valueUInt name field => exact h.elim
  | valueText name field => exact h.elim
  | tunnels => exact h.elim

/-- A sequence that runs through has no statement that throws. -/
theorem foldlM_ok {root : S} {statements : List Statement} {c c' : MzConfig}
    (h : statements.foldlM (fun c statement => statement.exec root c) c = .ok c') :
    ∀ statement ∈ statements, ¬ Throws root statement := by
  induction statements generalizing c with
  | nil =>
    intro statement hmem
    cases hmem
  | cons first rest ih =>
    rw [List.foldlM_cons] at h
    cases hexec : first.exec root c with
    | error c₁ =>
      rw [hexec] at h
      cases h
    | ok c₁ =>
      rw [hexec] at h
      intro statement hmem
      rcases List.mem_cons.mp hmem with rfl | hmem
      · intro hthrows
        rw [exec_throws hthrows] at hexec
        cases hexec
      · exact ih h statement hmem

theorem valid_iff_no_throw {root : S} :
    Valid root ↔ ∀ statement ∈ loadStatements, ¬ Throws root statement := by
  constructor
  · intro hvalid statement hmem hthrows
    cases statement with
    | assign name field =>
      obtain ⟨setting, hlookup, hbad⟩ := hthrows
      have hname : name ∈ assignedNames := List.mem_filterMap.mpr ⟨_, hmem, rfl⟩
      have hnumber := hvalid name hname setting hlookup
      rw [hbad] at hnumber
      cases hnumber
    | valueUInt name field => exact hthrows
    | valueText name field => exact hthrows
    | tunnels => exact hthrows
  · intro h name hname setting hlookup
    obtain ⟨statement, hmem, hassigned⟩ := List.mem_filterMap.mp hname
    cases statement with
    | assign name' field =>
      cases hassigned
      have hthrows := h _ hmem
      cases hbad : LibConfig.toUInt setting with
      | none => exact absurd ⟨setting, hlookup, hbad⟩ hthrows
      | some value => rfl
    | valueUInt name' field => cases hassigned
    | valueText name' field => cases hassigned
    | tunnels => cases hassigned

/-- **A file that parses is absorbed**, with result 0 and every setting that has
the type of its field, exactly if no setting that is converted outside of
`lookupValue` has another type. -/
theorem loadConfig_absorbs_iff {files : Files S} {fileName : Bytes} {root : S}
    (hfile : files (cstr fileName) = .parsed root) (c : MzConfig) :
    c.loadConfig files fileName =
        .ok (0, stored root
          (if c.confPath.length = 0 then { c with confPath := cstr fileName } else c)) ↔
      Valid root := by
  constructor
  · intro hload
    rw [valid_iff_no_throw]
    unfold MzConfig.loadConfig at hload
    rw [hfile] at hload
    simp only at hload
    cases hrun : loadStatements.foldlM (fun c statement => statement.exec root c)
        (if c.confPath.length = 0 then { c with confPath := cstr fileName } else c) with
    | error c₁ =>
      rw [hrun] at hload
      cases hload
    | ok c₁ => exact foldlM_ok hrun
  · intro hvalid
    rw [← loaded_eq_stored]
    exact loadConfig_eq hfile hvalid c

end

/-! ## The types of libconfig -/

def TypedSetting.IsInt : TypedSetting → Prop
  | .typeInt _ => True
  | _ => False

/-- With the types of libconfig: every setting that is converted is an integer. -/
theorem valid_typed_iff (root : TypedSetting) :
    Valid root ↔ ∀ name ∈ assignedNames, ∀ setting,
      LibConfig.lookup root (str name) = some setting → TypedSetting.IsInt setting := by
  have hint : ∀ setting : TypedSetting,
      (LibConfig.toUInt setting).isSome = true ↔ TypedSetting.IsInt setting := by
    intro setting
    cases setting with
    | typeInt value => exact ⟨fun _ => trivial, fun _ => rfl⟩
    | _ => exact ⟨fun h => (Bool.false_ne_true h).elim, False.elim⟩
  simp only [Valid, hint]

/-- A user id in quotes. -/
def quotedFile : TypedSetting := .typeGroup [(str "userID", .typeString (str "7"))]

/-- It is an exception that nothing catches. -/
theorem quoted_id_throws :
    ¬ ({} : MzConfig).loadConfig (onDisk (str "mingzhui.cfg") quotedFile) (str "mingzhui.cfg") =
      .ok (0, stored quotedFile { confPath := cstr (str "mingzhui.cfg") }) := by
  intro h
  cases h

/-- A user id, a device name that is no text, a list with a tunnel and a number. -/
def mixedFile : TypedSetting :=
  .typeGroup [(str "userID", .typeInt 7), (str "devName", .typeFloat 0),
    (str "tunnel_list", .typeList [.typeInt 1, .typeGroup [
      (str "local_ip", .typeString (str "10.0.0.1")),
      (str "server_ip", .typeString (str "1.2.3.4")), (str "server_port", .typeString (str "443")),
      (str "up_bandwidth", .typeString (str "10")),
      (str "down_bandwidth", .typeString (str "10")), (str "priority", .typeString (str "1"))]])]

theorem mixed_file_absorbed :
    ({} : MzConfig).loadConfig (onDisk (str "mingzhui.cfg") mixedFile) (str "mingzhui.cfg") =
      .ok (0, stored mixedFile { confPath := cstr (str "mingzhui.cfg") }) :=
  (loadConfig_absorbs_iff (onDisk_path (str "mingzhui.cfg") mixedFile) {}).mpr (by decide)

end Cpe.Proofs.BadSettings
