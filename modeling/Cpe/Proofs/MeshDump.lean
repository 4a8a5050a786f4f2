import Cpe.Main.Lookup
import Cpe.Main.Signals

/-! # The file of the node table

What `SIGUSR2` writes of the nodes is read back, line by line, with the readers
that the program has for numbers, addresses and MAC addresses. -/
namespace Cpe.Proofs.MeshDump
open Cpe.Lib.ByteOrder Cpe.Lib.CString Cpe.Lib.Number Cpe.Lib.InetAddr Cpe.Main

/-! ## Reading -/

/-- The id, the address and the MAC address in a line. -/
def readNode (line : Bytes) : Option (U32 × U32 × Option Bytes) :=
  match pieces (str " ") line with
  | _ :: id :: ip :: mac :: _ =>
    some (BitVec.ofNat 32 (strtoul 10 (id.drop 3)).1, htonl (inetAddr (ip.drop 3)),
      macBytes (mac.drop 9))
  | _ => none

/-- The first line tells the time. -/
def readMesh (text : Bytes) : List (U32 × U32 × Option Bytes) :=
  (text.splitOn 10).tail.filterMap readNode

/-- What a line tells of a node. -/
def told (node : CpeNode) : U32 × U32 × Option Bytes :=
  (node.nodeID, node.nodeVirtualIP,
    if node.nodeMacAddr.length = 6 then some node.nodeMacAddr else none)

/-! ## Lines -/

theorem decimal_free {b : Byte} (hb : digitVal b = 36) (n : Nat) : b ∉ decimal n := by
  intro hmem
  have hlt := (decimal_digits n).digitVal_lt hmem
  omega

theorem valueToIP_free {b : Byte} (hb : digitVal b = 36) (hdot : b ≠ 46) (x : U32) :
    b ∉ valueToIP x := by
  rw [valueToIP_eq]
  intro hmem
  rcases mem_intercalate hmem with rfl | ⟨t, ht, hmem⟩
  · exact hdot rfl
  · simp only [List.mem_cons, List.not_mem_nil, or_false] at ht
    rcases ht with rfl | rfl | rfl | rfl <;> exact decimal_free hb _ hmem

theorem hexMacAddr_free {b : Byte} (hb : digitVal b = 36) (hcolon : b ≠ 58) {m : Bytes}
    (hm : m.length = 6) : b ∉ hexMacAddr m := by
  rw [hexMacAddr, if_neg (by simp [hm])]
  intro hmem
  rcases mem_intercalate hmem with rfl | ⟨t, ht, hmem⟩
  · exact hcolon rfl
  · obtain ⟨c, -, rfl⟩ := List.mem_map.mp ht
    exact not_mem_hex2 hb c hmem

/-- The end of a line: a MAC address, or the error. -/
def macWords (macAddr : Bytes) : List Bytes :=
  if macAddr.length = 6 then [str "mac-addr:" ++ hexMacAddr macAddr]
  else [str "mac-addr:mac", str "addr", str "error"]

def words (node : CpeNode) : List Bytes :=
  str "[cpes-mesh-info]" :: (str "id:" ++ decimal node.nodeID.toNat) ::
    (str "ip:" ++ valueToIP node.nodeVirtualIP) :: macWords node.nodeMacAddr

theorem meshLine_eq (node : CpeNode) : node.meshLine = [32].intercalate (words node) := by
  by_cases hm : node.nodeMacAddr.length = 6
  · simp [CpeNode.meshLine, words, macWords, hm, List.intercalate, str]
  · simp [CpeNode.meshLine, words, macWords, hm, hexMacAddr, List.intercalate, str]

/-- A space or the end of a line is in no word. -/
theorem words_free {node : CpeNode} {b : Byte} (hb : b = 32 ∨ b = 10) {word : Bytes}
    (hword : word ∈ words node) : b ∉ word := by
  have hdigit : digitVal b = 36 := by rcases hb with rfl | rfl <;> rfl
  have hdot : b ≠ 46 := by rcases hb with rfl | rfl <;> decide
  have hcolon : b ≠ 58 := by rcases hb with rfl | rfl <;> decide
  have hid : b ∉ str "id:" ∧ b ∉ str "ip:" ∧ b ∉ str "mac-addr:" ∧ b ∉ str "[cpes-mesh-info]" ∧
      b ∉ str "mac-addr:mac" ∧ b ∉ str "addr" ∧ b ∉ str "error" := by
    rcases hb with rfl | rfl <;> decide
  obtain ⟨hid, hip, hmac, hhead, hnone, haddr, herror⟩ := hid
  have happend : ∀ xs ys : Bytes, b ∉ xs → b ∉ ys → b ∉ xs ++ ys := by
    intro xs ys hxs hys hmem
    rcases List.mem_append.mp hmem with hmem | hmem
    · exact hxs hmem
    · exact hys hmem
  simp only [words, List.mem_cons] at hword
  rcases hword with rfl | rfl | rfl | hword
  · exact hhead
  · exact happend _ _ hid (decimal_free hdigit _)
  · exact happend _ _ hip (valueToIP_free hdigit hdot _)
  · by_cases hm : node.nodeMacAddr.length = 6
    · rw [macWords, if_pos hm, List.mem_singleton] at hword
      rw [hword]
      exact happend _ _ hmac (hexMacAddr_free hdigit hcolon hm)
    · rw [macWords, if_neg hm] at hword
      simp only [List.mem_cons, List.not_mem_nil, or_false] at hword
      rcases hword with rfl | rfl | rfl
      · exact hnone
      · exact haddr
      · exact herror

theorem pieces_meshLine (node : CpeNode) : pieces (str " ") node.meshLine = words node := by
  have hspace : str " " = [32] := rfl
  rw [meshLine_eq, hspace, pieces_intercalate 32 _ fun t ht => words_free (.inl rfl) ht]
  refine List.filter_eq_self.mpr fun t ht => ?_
  simp only [words, List.mem_cons] at ht
  rcases ht with rfl | rfl | rfl | ht
  · rfl
  · simp [str]
  · simp [str]
  · by_cases hm : node.nodeMacAddr.length = 6
    · rw [macWords, if_pos hm, List.mem_singleton] at ht
      simp [ht, str]
    · rw [macWords, if_neg hm] at ht
      simp only [List.mem_cons, List.not_mem_nil, or_false] at ht
      rcases ht with rfl | rfl | rfl <;> rfl

theorem meshLine_no_newline (node : CpeNode) : 10 ∉ node.meshLine := by
  rw [meshLine_eq]
  intro hmem
  rcases mem_intercalate hmem with h | ⟨t, ht, hmem⟩
  · exact absurd h (by decide)
  · exact words_free (.inr rfl) ht hmem

theorem macBytes_meshWord (m : Bytes) :
    ∃ word rest, macWords m = word :: rest ∧
      macBytes (word.drop 9) = if m.length = 6 then some m else none := by
  by_cases hm : m.length = 6
  · refine ⟨_, [], by rw [macWords, if_pos hm], ?_⟩
    rw [if_pos hm]
    exact macBytes_hexMacAddr ⟨m, hm⟩
  · refine ⟨_, _, by rw [macWords, if_neg hm], ?_⟩
    rw [if_neg hm]
    rfl

/-- A line is read back. -/
theorem readNode_meshLine (node : CpeNode) : readNode node.meshLine = some (told node) := by
  obtain ⟨word, rest, hwords, hmac⟩ := macBytes_meshWord node.nodeMacAddr
  have hid : strtoul 10 (decimal node.nodeID.toNat) = (node.nodeID.toNat, []) := by
    have hread := (decimal_digits node.nodeID.toNat).readDigits [] (by simp)
    rw [List.append_nil] at hread
    rw [strtoul, if_neg (by simp), if_pos (by simp), hread]
  have hdrop : ∀ text : Bytes, (str "id:" ++ text).drop 3 = text ∧ (str "ip:" ++ text).drop 3 = text :=
    fun text => ⟨rfl, rfl⟩
  simp only [readNode, pieces_meshLine, words, hwords, (hdrop _).1, (hdrop _).2, hid, hmac,
    inetAddr_valueToIP, told, BitVec.ofNat_toNat, BitVec.setWidth_eq]

/-! ## The file -/

/-- The lines of the file: one for the time, one for each node, two empty ones. -/
def meshLines (s : Server) (currentTime : Bytes) : List Bytes :=
  (currentTime ++ str "print cpe node mesh info, mesh node num:" ++ decimal s.cpes.length) ::
    (s.cpes.map CpeNode.meshLine ++ [[], []])

theorem meshInfo_eq (s : Server) (currentTime : Bytes) :
    s.meshInfo currentTime = (meshLines s currentTime).flatMap fun line => line ++ [10] := by
  simp [Server.meshInfo, meshLines, List.flatMap_map, str]

theorem meshLines_free {s : Server} {currentTime : Bytes} (htime : 10 ∉ currentTime) {line : Bytes}
    (hline : line ∈ meshLines s currentTime) : 10 ∉ line := by
  simp only [meshLines, List.mem_cons, List.mem_append, List.mem_map, List.not_mem_nil,
    or_false] at hline
  rcases hline with rfl | ⟨node, -, rfl⟩ | rfl | rfl
  · intro hmem
    rcases List.mem_append.mp hmem with hmem | hmem
    · rcases List.mem_append.mp hmem with hmem | hmem
      · exact htime hmem
      · exact absurd hmem (by decide)
    · exact decimal_free rfl _ hmem
  · exact meshLine_no_newline node
  · exact List.not_mem_nil
  · exact List.not_mem_nil

/-- **The file of `SIGUSR2` is read back**: it tells the id, the address and the
MAC address of every node in the table, in order. -/
theorem mesh_file_reads_back {S : Type} [LibConfig S] (s : Server) (files : Files S)
    (currentTime : Bytes) (htime : 10 ∉ currentTime) :
    ∃ text, s.onSignal files currentTime SIGUSR2 = some (s, some (cstr s.config.meshFile, text)) ∧
      readMesh text = s.cpes.map told := by
  refine ⟨s.meshInfo currentTime, rfl, ?_⟩
  have hlines : ((s.cpes.map CpeNode.meshLine).filterMap readNode) = s.cpes.map told := by
    rw [List.filterMap_map]
    have hread : readNode ∘ CpeNode.meshLine = some ∘ told := funext readNode_meshLine
    rw [hread, List.filterMap_eq_map]
  have hempty : readNode [] = none := rfl
  rw [readMesh, meshInfo_eq, splitOn_lines fun line hline => meshLines_free htime hline, meshLines,
    List.cons_append, List.tail_cons, List.append_assoc, List.filterMap_append, hlines]
  simp [hempty]

/-- A node with a MAC address, and one with an id that is no `int` and without. -/
def twoNodes : Server :=
  { Server.create ⟨Pro.wire, id⟩ 3 1 {} with
    cpes := [⟨2, 0x0a000002, 0, 0, [], [0xff, 0x80, 0x00, 0x0a, 0x20, 0x01]⟩,
      ⟨0xffffffff, 0xc0a80001, 0, 0, [], []⟩] }

theorem two_nodes_read_back :
    ∃ text, twoNodes.onSignal (fun _ => .unreadable : Files Setting) (str "10:38 ") SIGUSR2 =
        some (twoNodes, some (str "./mesh.txt", text)) ∧
      readMesh text = [(2, 0x0a000002, some [0xff, 0x80, 0x00, 0x0a, 0x20, 0x01]),
        (0xffffffff, 0xc0a80001, none)] :=
  mesh_file_reads_back twoNodes _ (str "10:38 ") (by decide)

end Cpe.Proofs.MeshDump
