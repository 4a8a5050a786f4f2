import Cpe.Main.Config
import Mathlib.Logic.Function.Basic

/-! # Loading the configuration file

`loadConfig` is a sequence of `try` blocks, one for each setting, and a loop
over the tunnels. The file is read by libconfig++, of which the repository has
the declarations only: what the program calls of it is the class `LibConfig`. -/
namespace Cpe.Main
open Cpe.Lib.ByteOrder Cpe.Lib.CString

/-- Settings: a member by its name, the value as a number or a text if it is
one, the elements of a list or a group (none for other settings), and the two
edits. -/
class LibConfig (S : Type) where
  lookup : S → Bytes → Option S
  toUInt : S → Option U32
  toText : S → Option Bytes
  elements : S → List S
  remove : S → Bytes → S
  addText : S → Bytes → Bytes → S

/-- What `readFile` makes of a file: an exception or the root setting. -/
inductive FileContent (S : Type)
  | unreadable
  | malformed
  | parsed (root : S)

abbrev Files (S : Type) := Bytes → FileContent S

/-- The file at `path` has this content, and there is no other one. -/
def onDisk {S : Type} (path : Bytes) (root : S) : Files S := fun name =>
  if name = cstr path then .parsed root else .unreadable

theorem onDisk_path {S : Type} (path : Bytes) (root : S) :
    onDisk path root (cstr path) = .parsed root := if_pos rfl

/-- What an edit does to the members of a group. -/
class LawfulLibConfig (S : Type) [LibConfig S] : Prop where
  lookup_remove_self (s : S) (name : Bytes) : LibConfig.lookup (LibConfig.remove s name) name = none
  lookup_remove_ne (s : S) {name other : Bytes} (h : other ≠ name) :
    LibConfig.lookup (LibConfig.remove s name) other = LibConfig.lookup s other
  lookup_addText_self {s : S} {name : Bytes} (h : LibConfig.lookup s name = none) (value : Bytes) :
    (LibConfig.lookup (LibConfig.addText s name value) name).bind LibConfig.toText = some value
  lookup_addText_ne (s : S) {name other : Bytes} (h : other ≠ name) (value : Bytes) :
    LibConfig.lookup (LibConfig.addText s name value) other = LibConfig.lookup s other

/-- Settings as a tree: a group has one member for each of its names. -/
inductive Setting
  | number (value : U32)
  | text (value : Bytes)
  | list (elements : List Setting)
  | group (members : List (Bytes × Setting))

def Setting.members : Setting → List (Bytes × Setting)
  | .group members => members
  | _ => []

instance : LibConfig Setting where
  lookup s name := s.members.lookup name
  toUInt
    | .number value => some value
    | _ => none
  toText
    | .text value => some value
    | _ => none
  elements
    | .list elements => elements
    | .group members => members.map Prod.snd
    | _ => []
  remove s name := .group (s.members.filter (·.1 ≠ name))
  addText s name value := .group (s.members ++ [(name, .text value)])

theorem lookup_filter_ne {β : Type} (members : List (Bytes × β)) {name other : Bytes}
    (h : other ≠ name) : (members.filter (·.1 ≠ name)).lookup other = members.lookup other := by
  induction members with
  | nil => rfl
  | cons member members ih =>
    obtain ⟨key, value⟩ := member
    by_cases hkey : key = name
    · have hother : (other == key) = false := by
        rw [hkey]
        exact beq_false_of_ne h
      rw [List.filter_cons_of_neg (by simp [hkey]), ih, List.lookup_cons, hother]
    · rw [List.filter_cons_of_pos (by simp [hkey]), List.lookup_cons, List.lookup_cons, ih]

theorem lookup_filter_self {β : Type} (members : List (Bytes × β)) (name : Bytes) :
    (members.filter (·.1 ≠ name)).lookup name = none := by
  rw [List.lookup_eq_none_iff]
  intro member hmember
  have hne : member.1 ≠ name := by simpa using (List.mem_filter.mp hmember).2
  simpa using fun h => hne h.symm

instance : LawfulLibConfig Setting where
  lookup_remove_self s name := lookup_filter_self s.members name
  lookup_remove_ne s _ _ h := lookup_filter_ne s.members h
  lookup_addText_self {s name} h value := by
    have hadd : (s.members ++ [(name, Setting.text value)]).lookup name =
        some (.text value) := by
      have hnone : s.members.lookup name = none := h
      rw [List.lookup_append, hnone]
      simp
    exact congrArg (·.bind LibConfig.toText) hadd
  lookup_addText_ne s name other h value := by
    have hadd : (s.members ++ [(name, Setting.text value)]).lookup other =
        s.members.lookup other := by
      rw [List.lookup_append, List.lookup_cons, beq_false_of_ne h]
      exact Option.or_none
    exact hadd

/-- Settings with the types of `libconfig::Setting`. A conversion to another
type is an exception. -/
inductive TypedSetting
  | typeInt (value : U32)
  | typeInt64 (value : BitVec 64)
  | typeFloat (value : BitVec 64)
  | typeString (value : Bytes)
  | typeBoolean (value : Bool)
  | typeGroup (members : List (Bytes × TypedSetting))
  | typeArray (elements : List TypedSetting)
  | typeList (elements : List TypedSetting)

def TypedSetting.members : TypedSetting → List (Bytes × TypedSetting)
  | .typeGroup members => members
  | _ => []

/-- A negative integer is taken for an `unsigned int` as it is. -/
instance : LibConfig TypedSetting where
  lookup s name := s.members.lookup name
  toUInt
    | .typeInt value => some value
    | _ => none
  toText
    | .typeString value => some value
    | _ => none
  elements
    | .typeArray elements | .typeList elements => elements
    | .typeGroup members => members.map Prod.snd
    | _ => []
  remove s name := .typeGroup (s.members.filter (·.1 ≠ name))
  addText s name value := .typeGroup (s.members ++ [(name, .typeString value)])

/-! ## The statements -/

/-- A member of `mzConfig`. -/
structure Field (α : Type) where
  get : MzConfig → α
  set : α → MzConfig → MzConfig
  set_get : ∀ c, set (get c) c = c

/-- The `try` blocks `field = cfg.lookup(name)` and `cfg.lookupValue(name,
field)`, and the loop over `tunnel_list`. -/
inductive Statement
  | assign (name : String) (field : Field U32)
  | valueUInt (name : String) (field : Field U32)
  | valueText (name : String) (field : Field Bytes)
  | tunnels

section
variable {S : Type} [LibConfig S]

def number (root : S) (name : String) : Option U32 :=
  (LibConfig.lookup root (str name)).bind LibConfig.toUInt

def text (root : S) (name : String) : Option Bytes :=
  (LibConfig.lookup root (str name)).bind LibConfig.toText

/-- A tunnel with all its texts; others are skipped. -/
def tunnelInfo (tunnel : S) : Option TunnelInfo := do
  let localIp ← text tunnel "local_ip"
  let serverIp ← text tunnel "server_ip"
  let serverPort ← text tunnel "server_port"
  let upBw ← text tunnel "up_bandwidth"
  let downBw ← text tunnel "down_bandwidth"
  let priority ← text tunnel "priority"
  return { localIp, serverIp, serverPort, upBw, downBw, priority }

def tunnelsOf (root : S) : List TunnelInfo :=
  match LibConfig.lookup root (str "tunnel_list") with
  | none => []
  | some tunnels => (LibConfig.elements tunnels).filterMap tunnelInfo

/-- A statement on the configuration. A missing setting is caught. One of
another type is an exception that nobody catches where the setting itself is
converted, and leaves the field where `lookupValue` does it. -/
def Statement.exec (root : S) : Statement → MzConfig → Except MzConfig MzConfig
  | .assign name field, c =>
    match LibConfig.lookup root (str name) with
    | none => .ok c
    | some setting =>
      match LibConfig.toUInt setting with
      | none => .error c
      | some value => .ok (field.set value c)
  | .valueUInt name field, c =>
    match number root name with
    | none => .ok c
    | some value => .ok (field.set value c)
  | .valueText name field, c =>
    match text root name with
    | none => .ok c
    | some value => .ok (field.set value c)
  | .tunnels, c => .ok { c with tunnelList := c.tunnelList ++ tunnelsOf root }

end

/-- The statements of `loadConfig` behind `readFile`. -/
def loadStatements : List Statement := [
  .assign "userID" ⟨(·.userID), fun v c => { c with userID := v }, fun _ => rfl⟩,
  .assign "gateWay" ⟨(·.gateWay), fun v c => { c with gateWay := v }, fun _ => rfl⟩,
  .assign "tapMode" ⟨(·.tapMode), fun v c => { c with tapMode := v }, fun _ => rfl⟩,
  .assign "onlyAcc" ⟨(·.onlyAcc), fun v c => { c with onlyAcc := v }, fun _ => rfl⟩,
  .assign "bondMode" ⟨(·.bondMode), fun v c => { c with bondMode := v }, fun _ => rfl⟩,
  .assign "statistics" ⟨(·.statistics), fun v c => { c with statistics := v }, fun _ => rfl⟩,
  .assign "meshBw" ⟨(·.meshBw), fun v c => { c with meshBw := v }, fun _ => rfl⟩,
  .assign "connectMode" ⟨(·.connectMode), fun v c => { c with connectMode := v }, fun _ => rfl⟩,
  .assign "timerInterval"
    ⟨(·.timerInterval), fun v c => { c with timerInterval := v }, fun _ => rfl⟩,
  .assign "sleepMs" ⟨(·.sleepMs), fun v c => { c with sleepMs := v }, fun _ => rfl⟩,
  .assign "gatewayBw" ⟨(·.gatewayBw), fun v c => { c with gatewayBw := v }, fun _ => rfl⟩,
  .valueText "devName" ⟨(·.devName), fun v c => { c with devName := v }, fun _ => rfl⟩,
  .valueText "macAddr" ⟨(·.macAddr), fun v c => { c with macAddr := v }, fun _ => rfl⟩,
  .valueText "venderID" ⟨(·.venderID), fun v c => { c with venderID := v }, fun _ => rfl⟩,
  .valueText "userIP" ⟨(·.userIP), fun v c => { c with userIP := v }, fun _ => rfl⟩,
  .assign "netMask" ⟨(·.netMask), fun v c => { c with netMask := v }, fun _ => rfl⟩,
  .valueText "outDevNameMaster"
    ⟨(·.outDevNameMaster), fun v c => { c with outDevNameMaster := v }, fun _ => rfl⟩,
  .valueText "outDevNameSlave"
    ⟨(·.outDevNameSlave), fun v c => { c with outDevNameSlave := v }, fun _ => rfl⟩,
  .valueText "upCmd" ⟨(·.upCmd), fun v c => { c with upCmd := v }, fun _ => rfl⟩,
  .valueText "downCmd" ⟨(·.downCmd), fun v c => { c with downCmd := v }, fun _ => rfl⟩,
  .valueText "logFile" ⟨(·.logFile), fun v c => { c with logFile := v }, fun _ => rfl⟩,
  .valueText "statFile" ⟨(·.statFile), fun v c => { c with statFile := v }, fun _ => rfl⟩,
  .valueText "meshFile" ⟨(·.meshFile), fun v c => { c with meshFile := v }, fun _ => rfl⟩,
  .valueText "encrypt" ⟨(·.encrypt), fun v c => { c with encrypt := v }, fun _ => rfl⟩,
  .valueUInt "debug" ⟨(·.debug), fun v c => { c with debug := v }, fun _ => rfl⟩,
  .valueUInt "thread" ⟨(·.thread), fun v c => { c with thread := v }, fun _ => rfl⟩,
  .tunnels]

/-! ## Load, reset, reload -/

def EXIT_FAILURE : Int := 1

section
variable {S : Type} [LibConfig S]

/-- `loadConfig`: its result and the configuration, or an exception. -/
def MzConfig.loadConfig (c : MzConfig) (files : Files S) (fileName : Bytes) :
    Except MzConfig (Int × MzConfig) :=
  let c := if c.confPath.length = 0 then { c with confPath := cstr fileName } else c
  match files (cstr fileName) with
  | .unreadable | .malformed => .ok (EXIT_FAILURE, c)
  | .parsed root => do
    let c ← loadStatements.foldlM (fun c statement => statement.exec root c) c
    return (0, c)

def MzConfig.reset (c : MzConfig) : MzConfig :=
  { c with
    userID := 0
    connectMode := 0
    timerInterval := 0
    packetSize := 0
    gateWay := 0
    meshBw := 0
    gatewayBw := 0
    netMask := 24
    debug := 0
    thread := 0
    sleepMs := 10
    tapMode := 0
    bondMode := 0
    statistics := 0
    onlyAcc := 0
    userIP := []
    devName := []
    upCmd := []
    downCmd := []
    encrypt := []
    logFile := str "./app.log"
    statFile := str "./stat.log"
    meshFile := str "./mesh.txt" }

/-- `reload`, which ignores the result of `loadConfig`. -/
def MzConfig.reload (c : MzConfig) (files : Files S) : Except MzConfig MzConfig :=
  if c.confPath.length = 0 then .ok c
  else (c.reset.loadConfig files c.confPath).map Prod.snd

/-- `setMacAddr`: its result and the files. -/
def MzConfig.setMacAddr (c : MzConfig) (files : Files S) (mac : Bytes) : Int × Files S :=
  match files (cstr c.confPath) with
  | .unreadable | .malformed => (EXIT_FAILURE, files)
  | .parsed root =>
    let root :=
      if (LibConfig.lookup root (str "macAddr")).isSome then
        LibConfig.remove root (str "macAddr")
      else root
    let root := LibConfig.addText root (str "macAddr") (cstr mac)
    (0, Function.update files (cstr c.confPath) (.parsed root))

/-! ## What a load does -/

/-- The settings that are converted outside of `lookupValue`. -/
def Statement.assigned? : Statement → Option String
  | .assign name _ => some name
  | _ => none

def assignedNames : List String := loadStatements.filterMap Statement.assigned?

/-- A file whose numbers are numbers, so that no exception leaves `loadConfig`. -/
def Valid (root : S) : Prop :=
  ∀ name ∈ assignedNames, ∀ setting, LibConfig.lookup root (str name) = some setting →
    (LibConfig.toUInt setting).isSome

theorem valid_iff_all {root : S} :
    Valid root ↔ ∀ name ∈ assignedNames,
      ((LibConfig.lookup root (str name)).all fun setting =>
        (LibConfig.toUInt setting).isSome) = true := by
  refine forall₂_congr fun name _ => ?_
  cases LibConfig.lookup root (str name) with
  | none => simp
  | some setting => simp

instance (root : S) : Decidable (Valid root) := decidable_of_iff _ valid_iff_all.symm

/-- A statement without exceptions: a setting replaces its field. -/
def Statement.apply (root : S) : Statement → MzConfig → MzConfig
  | .assign name field, c => field.set ((number root name).getD (field.get c)) c
  | .valueUInt name field, c => field.set ((number root name).getD (field.get c)) c
  | .valueText name field, c => field.set ((text root name).getD (field.get c)) c
  | .tunnels, c => { c with tunnelList := c.tunnelList ++ tunnelsOf root }

def loaded (root : S) (c : MzConfig) : MzConfig :=
  loadStatements.foldl (fun c statement => statement.apply root c) c

theorem exec_eq {root : S} (h : Valid root) {statement : Statement}
    (hmem : statement ∈ loadStatements) (c : MzConfig) :
    statement.exec root c = .ok (statement.apply root c) := by
  cases statement with
  | assign name field =>
    have hname : name ∈ assignedNames := List.mem_filterMap.mpr ⟨_, hmem, rfl⟩
    rw [Statement.exec, Statement.apply, number]
    cases hlookup : LibConfig.lookup root (str name) with
    | none => simp [field.set_get]
    | some setting =>
      obtain ⟨value, hvalue⟩ := Option.isSome_iff_exists.mp (h name hname setting hlookup)
      simp [hvalue]
  | valueUInt name field =>
    rw [Statement.exec, Statement.apply]
    cases number root name with
    | none => simp [field.set_get]
    | some value => rfl
  | valueText name field =>
    rw [Statement.exec, Statement.apply]
    cases text root name with
    | none => simp [field.set_get]
    | some value => rfl
  | tunnels => rfl

/-- The statements of a valid file run through. -/
theorem foldlM_exec {root : S} (h : Valid root) (statements : List Statement)
    (hsub : ∀ statement ∈ statements, statement ∈ loadStatements) (c : MzConfig) :
    statements.foldlM (fun c statement => statement.exec root c) c =
      .ok (statements.foldl (fun c statement => statement.apply root c) c) := by
  induction statements generalizing c with
  | nil => rfl
  | cons statement statements ih =>
    rw [List.foldlM_cons, exec_eq h (hsub statement List.mem_cons_self), List.foldl_cons]
    exact ih (fun other hother => hsub other (List.mem_cons_of_mem statement hother)) _

/-- **A valid file is loaded** over the configuration there is. -/
theorem loadConfig_eq {files : Files S} {fileName : Bytes} {root : S}
    (hfile : files (cstr fileName) = .parsed root) (h : Valid root) (c : MzConfig) :
    c.loadConfig files fileName =
      .ok (0, loaded root
        (if c.confPath.length = 0 then { c with confPath := cstr fileName } else c)) := by
  unfold MzConfig.loadConfig
  rw [hfile]
  simp only
  rw [foldlM_exec h loadStatements (fun _ hmem => hmem)]
  rfl

end

end Cpe.Main
