import Cpe.Main.Runs

/-! # The grammar of session frames

A session frame is a 16-bit body length, a 16-bit type and the body. The parser
gets the length of the buffer cut to 16 bits and compares it with the length in
the header plus four, which needs 17: buffers outside of 16 bits are taken for
short ones. -/
namespace Cpe.Proofs.SessionFrames
open Cpe.Lib.ByteOrder Cpe.Lib.CString Cpe.Lib.MemoTable Cpe.Pro Cpe.Main

/-- The types that have a case in the `switch`. -/
def handledTypes : List U16 :=
  [MESSAGETYPE.MESSAGE_CPE_CHANGE_NOTIFY.value, MESSAGETYPE.MESSAGE_KEEPALIVE_TCP_RES.value,
    MESSAGETYPE.MESSAGE_KEEPALIVE_UDP_RES.value]

/-- What the case of a type does with the body. -/
def handleBody (pf : Platform) (s : Server) (packUri : U16) (buff : Bytes) : Server :=
  if packUri = MESSAGETYPE.MESSAGE_CPE_CHANGE_NOTIFY.value then
    let (parsed, notify) := pf.proto.cpeNodeChangeNotify buff
    if !parsed then s else s.handleMeshNotify pf notify.data
  else
    let (parsed, pong) := pf.proto.keepAliveRes buff
    if !parsed then s
    else if pong.metaInfo.length = 0 then s
    else s.handleOnlineCpesNotify pf pong.metaInfo

/-- The type and the body that the parser hands to a case, if it does. -/
def dispatched (data : Ptr) (len : U32) : Option (U16 × Bytes) :=
  (sessionFrame data (len.setWidth 16)).filter fun frame => frame.1 ∈ handledTypes

/-- The body length in the header. -/
def headerLen (data : Ptr) : Nat := (data.load16 0).toNat

def headerType (data : Ptr) : U16 := data.load16 2

/-- A buffer of `len` bytes that is a frame of a handled type. -/
def IsFrame (data : Ptr) (len : U32) : Prop :=
  4 < len.toInt ∧ len.toInt = 4 + headerLen data ∧ headerType data ∈ handledTypes

instance (data : Ptr) (len : U32) : Decidable (IsFrame data len) :=
  inferInstanceAs (Decidable (_ ∧ _ ∧ _))

/-- The grammar: the type and the bytes from 4 to `len - 1` of a frame. -/
def framed (data : Ptr) (len : U32) : Option (U16 × Bytes) :=
  if IsFrame data len then some (headerType data, data.slice 4 (len.toInt - 4).toNat) else none

/-- A buffer whose length does not fit 16 bits, and either is the right one for
its header or leaves the right one when it is cut. -/
def Misread (data : Ptr) (len : U32) : Prop :=
  (len.toInt < 0 ∨ 65535 < len.toInt) ∧
    (len.toInt = 4 + headerLen data ∨
      0 < headerLen data ∧ len.toInt % 65536 = 4 + headerLen data)

section
variable {data : Ptr} {len : U32}

theorem mem_handledTypes {uri : U16} :
    uri ∈ handledTypes ↔ uri = MESSAGETYPE.MESSAGE_CPE_CHANGE_NOTIFY.value ∨
      uri = MESSAGETYPE.MESSAGE_KEEPALIVE_TCP_RES.value ∨
      uri = MESSAGETYPE.MESSAGE_KEEPALIVE_UDP_RES.value := by
  simp only [handledTypes, List.mem_cons, List.not_mem_nil, or_false]

/-- The callback ignores a message or runs the case of its type on its body. -/
theorem recvSessionMsgCallback_eq (pf : Platform) (s : Server) (data : Ptr) (len : U32) :
    s.recvSessionMsgCallback pf data len =
      match dispatched data len with
      | none => s
      | some (packUri, buff) => handleBody pf s packUri buff := by
  have hnot : ∀ uri : U16, uri ∉ handledTypes →
      uri ≠ MESSAGETYPE.MESSAGE_CPE_CHANGE_NOTIFY.value ∧
      ¬ (uri = MESSAGETYPE.MESSAGE_KEEPALIVE_TCP_RES.value ∨
        uri = MESSAGETYPE.MESSAGE_KEEPALIVE_UDP_RES.value) := by
    intro uri huri
    rw [mem_handledTypes, not_or] at huri
    exact huri
  unfold Server.recvSessionMsgCallback Server.handleSessionDataRecv dispatched sessionFrame
  by_cases hshort : len.setWidth 16 ≤ 4
  · have hlen : ¬ 4 < len.setWidth 16 := BitVec.not_lt.mpr hshort
    rw [if_pos hshort, if_neg (fun h => hlen h.1)]
    rfl
  · have hlen : 4 < len.setWidth 16 := BitVec.not_le.mp hshort
    simp only [hshort, if_false, hlen, true_and]
    by_cases hpack : (len.setWidth 16).toNat = (data.load16 0).toNat + 4
    · simp only [hpack, ne_eq, not_true_eq_false, if_false, if_true, Option.filter_some,
        decide_eq_true_eq]
      by_cases htype : data.load16 2 ∈ handledTypes
      · rw [if_pos htype]
        by_cases hnotify : data.load16 2 = MESSAGETYPE.MESSAGE_CPE_CHANGE_NOTIFY.value
        · simp only [hnotify, if_true, handleBody]
        · have hpong := (mem_handledTypes.mp htype).resolve_left hnotify
          simp only [hnotify, hpong, if_true, if_false, handleBody]
      · obtain ⟨hnotify, hpong⟩ := hnot _ htype
        rw [if_neg htype, if_neg hnotify, if_neg hpong]
    · simp only [hpack, ne_eq, not_false_eq_true, if_true, if_false]
      rfl

/-! ## Sixteen bits -/

theorem headerLen_lt (data : Ptr) : headerLen data < 65536 := (data.load16 0).isLt

/-- The parser accepts the frames of handled types whose cut length fits. -/
theorem dispatched_eq (data : Ptr) (len : U32) :
    dispatched data len =
      if 4 < len.toInt % 65536 ∧ len.toInt % 65536 = 4 + headerLen data ∧
          headerType data ∈ handledTypes then
        some (headerType data, data.slice 4 (len.toInt % 65536 - 4).toNat)
      else none := by
  have hcut := toNat_setWidth_int len
  have hshort : 4 < len.setWidth 16 ↔ 4 < len.toInt % 65536 := by
    rw [BitVec.lt_def, ← hcut]
    exact Int.ofNat_lt.symm
  have hfits : (len.setWidth 16).toNat = (data.load16 0).toNat + 4 ↔
      len.toInt % 65536 = 4 + headerLen data := by
    rw [← hcut, headerLen]
    omega
  have hsize : (len.setWidth 16).toNat - 4 = (len.toInt % 65536 - 4).toNat := by omega
  unfold dispatched sessionFrame
  rw [hsize]
  simp only [hshort, hfits]
  by_cases h : 4 < len.toInt % 65536 ∧ len.toInt % 65536 = 4 + headerLen data
  · rw [if_pos h, Option.filter_some]
    by_cases htype : data.load16 2 ∈ handledTypes
    · rw [if_pos (decide_eq_true htype), if_pos ⟨h.1, h.2, htype⟩]
      rfl
    · rw [if_neg (fun h' => htype (of_decide_eq_true h')), if_neg (fun h' => htype h'.2.2)]
  · rw [if_neg h, if_neg (fun h' => h ⟨h'.1, h'.2.1⟩)]
    rfl

/-- Inside of 16 bits the cut changes nothing. -/
theorem dispatched_eq_framed_of_fits (h0 : 0 ≤ len.toInt) (h1 : len.toInt ≤ 65535) :
    dispatched data len = framed data len := by
  have hcut : len.toInt % 65536 = len.toInt := by omega
  rw [dispatched_eq, hcut]
  rfl

/-- A buffer of a handled type that is misread is taken by one side only. -/
theorem dispatched_ne_framed (htype : headerType data ∈ handledTypes) (h : Misread data len) :
    dispatched data len ≠ framed data len := by
  obtain ⟨hout, hlen⟩ := h
  have hheader := headerLen_lt data
  rw [dispatched_eq, framed]
  rcases hlen with hwhole | ⟨hpos, hcut⟩
  · have hframe : IsFrame data len := ⟨by omega, hwhole, htype⟩
    rw [if_neg (by omega), if_pos hframe]
    exact (Option.some_ne_none _).symm
  · have hframe : ¬ IsFrame data len := by
      intro hframe
      obtain ⟨_, hwhole, _⟩ := hframe
      omega
    rw [if_pos ⟨by omega, hcut, htype⟩, if_neg hframe]
    exact Option.some_ne_none _

/-- A buffer outside of 16 bits that is not misread is taken by no side. -/
theorem dispatched_eq_framed_of_outside (hout : len.toInt < 0 ∨ 65535 < len.toInt)
    (h : ¬ (headerType data ∈ handledTypes ∧ Misread data len)) :
    dispatched data len = framed data len := by
  have hnone : ¬ (4 < len.toInt % 65536 ∧ len.toInt % 65536 = 4 + headerLen data ∧
      headerType data ∈ handledTypes) := by
    intro hcut
    obtain ⟨hshort, hfits, htype⟩ := hcut
    exact h ⟨htype, hout, .inr ⟨by omega, hfits⟩⟩
  have hframe : ¬ IsFrame data len := by
    intro hframe
    obtain ⟨_, hwhole, htype⟩ := hframe
    exact h ⟨htype, hout, .inl hwhole⟩
  rw [dispatched_eq, framed, if_neg hnone, if_neg hframe]

end

/-- **The parser accepts its grammar**, type and body, exactly for the messages
of an unhandled type and the buffers that are not misread. -/
theorem parser_exact_iff (data : Ptr) (len : U32) :
    (∀ (pf : Platform) (s : Server), s.recvSessionMsgCallback pf data len =
      match dispatched data len with
      | none => s
      | some (packUri, buff) => handleBody pf s packUri buff) ∧
    (dispatched data len = framed data len ↔
      ¬ (headerType data ∈ handledTypes ∧ Misread data len)) := by
  refine ⟨fun pf s => recvSessionMsgCallback_eq pf s data len, ?_⟩
  constructor
  · intro h hmisread
    exact dispatched_ne_framed hmisread.1 hmisread.2 h
  · intro h
    by_cases hout : len.toInt < 0 ∨ 65535 < len.toInt
    · exact dispatched_eq_framed_of_outside hout h
    · exact dispatched_eq_framed_of_fits (by omega) (by omega)

/-! ## A body of 65532 bytes -/

/-- A mesh notify of 65532 bytes, with its header. -/
def largeNotify : Ptr :=
  Ptr.ofBytes (bytes16 65532 ++ bytes16 MESSAGETYPE.MESSAGE_CPE_CHANGE_NOTIFY.value ++
    List.replicate 65532 0)

/-- It is a frame, and is taken for an empty message. -/
theorem large_notify_ignored :
    IsFrame largeNotify 65536 ∧ dispatched largeNotify 65536 = none ∧
      ¬ dispatched largeNotify 65536 = framed largeNotify 65536 := by
  have hframe : IsFrame largeNotify 65536 := by decide +kernel
  have hnone : dispatched largeNotify 65536 = none := by decide +kernel
  refine ⟨hframe, hnone, ?_⟩
  rw [hnone, framed, if_pos hframe]
  exact (Option.some_ne_none _).symm

end Cpe.Proofs.SessionFrames
