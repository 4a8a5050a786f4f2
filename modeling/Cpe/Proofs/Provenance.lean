import Cpe.Lib.History
import Cpe.Main.Overlay
import Cpe.Proofs.PacketBounds

/-! # Why a frame goes where it goes

In every mode a node either does not look a frame up, or answers from its cache
or its table. The table is the one the node started with or that of the last
list it has taken. An id in the cache was the answer of such a table at an
earlier frame to the same address, and since then the node has taken no mesh
list. -/
namespace Cpe.Proofs.Provenance
open Cpe.Lib.ByteOrder Cpe.Lib.CString Cpe.Lib.MemoTable Cpe.Lib.Run Cpe.Lib.History Cpe.Main
open Cpe.Proofs.FrameTransport Cpe.Proofs.PacketBounds Cpe.Proofs.TapCache Cpe.Proofs.TapClasses

/-! ## A dispatch in every mode -/

/-- The message made of a frame, and what a dispatch sees of it. -/
def messageOf (frame : Bytes) : Bytes := message (frame.take PACK_MTU)

def packetOf (frame : Bytes) (behind : Ptr) : Ptr := packetIn (frame.take PACK_MTU) behind

/-- The address and the MAC a packet is looked up by, when it is looked up. -/
def lookupKey (s : Server) (packet : Ptr) : Option (U32 × Bytes) :=
  if s.config.onlyAcc ≠ 0 then none
  else if s.config.tapMode = 0 then some (tunDestIP packet, defaultMac)
  else if Unicast packet then some (tapDestIP packet, tapDestMac packet)
  else none

/-- The frames that go to every peer: IPv4 behind the unicast addresses, but
for the ends of the multicast range, and five other EtherTypes. -/
def Flooded (packet : Ptr) : Prop :=
  tapProto packet = ETH_P_IP ∧ ¬ tapDestIP packet < 0xE0000000 ∧ ¬ RangeEnd (tapDestIP packet) ∨
    FloodedType (tapProto packet)

instance (packet : Ptr) : Decidable (Flooded packet) := inferInstanceAs (Decidable (_ ∨ _))

/-- The id of the first node of the table that matches. -/
def tableId (s : Server) (key : U32 × Bytes) : Option U32 :=
  (s.hit key.1 key.2 s.cpes).map CpeNode.nodeID

/-- What the table and the gateway settings say. -/
def tableAnswer (s : Server) (key : U32 × Bytes) : U32 := (tableId s key).getD s.fallback

/-- What a dispatch does with the packet of a frame. -/
theorem handlePacketFromDev_eq (s : Server) (frame : Bytes) (behind : Ptr) :
    s.handlePacketFromDev behind (messageOf frame) =
      if s.config.onlyAcc ≠ 0 then ((s.gatewayId, messageOf frame), s)
      else if s.config.tapMode ≠ 0 then
        (((s.getDestIDFromTapPacket (packetOf frame behind)).1, messageOf frame),
          (s.getDestIDFromTapPacket (packetOf frame behind)).2)
      else
        (((s.getDestIDFromTunPacket (packetOf frame behind)).1, messageOf frame),
          (s.getDestIDFromTunPacket (packetOf frame behind)).2) := rfl

section
variable {s : Server} {frame : Bytes} {behind : Ptr}

theorem dispatch_looked_up {key : U32 × Bytes}
    (h : lookupKey s (packetOf frame behind) = some key) :
    s.handlePacketFromDev behind (messageOf frame) =
      ((s.ip2nodeidCache.answer key.1 (tableAnswer s key), messageOf frame),
        { s with
          ip2nodeidCache := s.ip2nodeidCache.learn (keepsId s.gatewayId) key.1
            (tableAnswer s key) }) := by
  unfold lookupKey at h
  split at h
  · cases h
  rename_i hmode
  have hacc : s.config.onlyAcc = 0 := not_not.mp hmode
  have huncached : ∀ ip mac, s.uncached ip mac = tableAnswer s (ip, mac) := uncached_eq hacc
  rw [handlePacketFromDev_eq]
  simp only [hacc, ne_eq, not_true_eq_false, if_false]
  split at h
  · rename_i htap
    cases h
    have htun : s.TunMode := ⟨htap, hacc⟩
    simp only [htap, not_true_eq_false, if_false, getDestIDFromTunPacket_eq htun,
      Server.tunLookup, huncached]
  · rename_i htap
    split at h
    · rename_i hunicast
      cases h
      simp only [htap, not_false_eq_true, if_true, getDestIDFromTapPacket_eq hacc hunicast,
        tapLookup, huncached]
    · cases h

/-- The id of a frame that is not looked up. -/
theorem tap_unlooked {packet : Ptr} (h : ¬ Unicast packet) :
    s.getDestIDFromTapPacket packet = (if Flooded packet then floodId else 0, s) := by
  unfold Server.getDestIDFromTapPacket
  by_cases hproto : tapProto packet = ETH_P_IP
  · have hip : ¬ tapDestIP packet < 0xE0000000 := fun hlt => h ⟨hproto, hlt⟩
    have hlink : ¬ FloodedType ETH_P_IP := by decide
    simp only [Flooded, hproto, hip, hlink, if_true, if_false, true_and, or_false]
    by_cases hend : RangeEnd (tapDestIP packet)
    · rcases hend with hlow | hhigh
      · simp [hlow, RangeEnd]
      · simp [hhigh, RangeEnd]
    · obtain ⟨hlow, hhigh⟩ := not_or.mp hend
      by_cases hmid : tapDestIP packet < 0xF0000000
      · rw [if_pos ⟨by bv_omega, hmid⟩, if_pos ⟨not_false, hend⟩]
        rfl
      · rw [if_neg (fun hin => hmid hin.2), if_pos (by bv_omega), if_pos ⟨not_false, hend⟩]
        rfl
  · simp only [Flooded, hproto, if_false, false_and, false_or]
    by_cases hlink : FloodedType (tapProto packet)
    · rw [if_pos hlink]
      exact if_pos hlink
    · rw [if_neg hlink]
      exact if_neg hlink

/-- Why a frame is not looked up, and the id it goes to then. -/
inductive Unlooked (s : Server) (packet : Ptr) (dest : U32) : Prop
  | gatewayOnly (hacc : s.config.onlyAcc ≠ 0) (hdest : dest = s.gatewayId)
  | flooded (hmode : s.config.onlyAcc = 0 ∧ s.config.tapMode ≠ 0) (hclass : Flooded packet)
      (hdest : dest = floodId)
  | dropped (hmode : s.config.onlyAcc = 0 ∧ s.config.tapMode ≠ 0)
      (hclass : ¬ Unicast packet ∧ ¬ Flooded packet) (hdest : dest = 0)

theorem dispatch_unlooked (h : lookupKey s (packetOf frame behind) = none) :
    ∃ dest, s.handlePacketFromDev behind (messageOf frame) = ((dest, messageOf frame), s) ∧
      Unlooked s (packetOf frame behind) dest := by
  unfold lookupKey at h
  rw [handlePacketFromDev_eq]
  by_cases hacc : s.config.onlyAcc = 0
  · simp only [hacc, ne_eq, not_true_eq_false, if_false] at h ⊢
    split at h
    · cases h
    rename_i htap
    split at h
    · cases h
    rename_i hunicast
    simp only [htap, not_false_eq_true, if_true, tap_unlooked hunicast]
    by_cases hflood : Flooded (packetOf frame behind)
    · exact ⟨floodId, by rw [if_pos hflood], .flooded ⟨hacc, htap⟩ hflood rfl⟩
    · exact ⟨0, by rw [if_neg hflood], .dropped ⟨hacc, htap⟩ ⟨hunicast, hflood⟩ rfl⟩
  · exact ⟨s.gatewayId, by simp only [ne_eq, hacc, not_false_eq_true, if_true],
      .gatewayOnly hacc rfl⟩

/-- A dispatch changes nothing but the cache. -/
theorem dispatch_cache (s : Server) (frame : Bytes) (behind : Ptr) :
    ∃ cache, (s.handlePacketFromDev behind (messageOf frame)).2 =
      { s with ip2nodeidCache := cache } := by
  cases hkey : lookupKey s (packetOf frame behind) with
  | none =>
    obtain ⟨dest, hd, _⟩ := dispatch_unlooked hkey
    exact ⟨s.ip2nodeidCache, by rw [hd]⟩
  | some key => exact ⟨_, by rw [dispatch_looked_up hkey]⟩

end

/-! ## What one callback does -/

/-- The packet buffer, if there is one, has room for a length and one read. -/
def BufferFits (n : Node) : Prop := ∀ mem, n.buffer = some mem → 4 + PACK_MTU ≤ mem.length

/-- A read that the node survives sends one message, of the frame as far as it
was read. -/
theorem onReadable_cases {n : Node} (hbuffer : BufferFits n) (frame : Option Bytes)
    (behind : Ptr) :
    n.onReadable frame behind = { n with ended := true } ∨
      ∃ bytes mem, frame = some bytes ∧ 20 ≤ bytes.length ∧ 4 + PACK_MTU ≤ mem.length ∧
        n.onReadable frame behind =
          { n with
            server := (n.server.handlePacketFromDev behind (messageOf bytes)).2
            buffer := some mem
            sent := n.sent ++ [(n.server.handlePacketFromDev behind (messageOf bytes)).1] } := by
  unfold Node.onReadable
  cases hmem : n.buffer with
  | none => exact .inl rfl
  | some mem =>
    cases frame with
    | none => exact .inl rfl
    | some bytes =>
      have hfits := hbuffer mem hmem
      have hmtu : PACK_MTU = 1500 := rfl
      have hlen : (bytes.take PACK_MTU).length = min 1500 bytes.length := List.length_take
      have hroom : ¬ mem.length < 4 + (bytes.take PACK_MTU).length := by omega
      have hof : (BitVec.ofNat 32 (bytes.take PACK_MTU).length).toNat =
          (bytes.take PACK_MTU).length := by
        rw [BitVec.toNat_ofNat]
        omega
      have hint : (BitVec.ofNat 32 (bytes.take PACK_MTU).length).toInt =
          (bytes.take PACK_MTU).length := by
        rw [BitVec.toInt_eq_toNat_of_lt (by omega), hof]
      have hadd : (BitVec.ofNat 32 (bytes.take PACK_MTU).length + 4).toNat =
          (bytes.take PACK_MTU).length + 4 := by
        bv_omega
      have hfirst : (overwrite mem 4 (bytes.take PACK_MTU)).length = mem.length :=
        overwrite_length (not_lt.mp hroom)
      have hsecond : (overwrite (overwrite mem 4 (bytes.take PACK_MTU)) 0
          (bytes32 (BitVec.ofNat 32 (bytes.take PACK_MTU).length))).length = mem.length := by
        rw [overwrite_length (by rw [bytes32_length, hfirst]; omega), hfirst]
      simp only [Server.onReadTunTap, Option.bind_eq_bind, Option.bind_some, Option.map_some, hroom,
        if_false, hint, hadd, overwrite_message _ (show 4 ≤ mem.length by omega)]
      by_cases hshort : bytes.length < 20
      · rw [if_pos (by omega)]
        exact .inl rfl
      · rw [if_neg (by omega)]
        exact .inr ⟨bytes, _, rfl, not_lt.mp hshort, hsecond ▸ hfits, rfl⟩

/-- A message of the tunnel changes nothing but what is written and whether the
node runs. -/
theorem onRoute_cases (n : Node) (data : Ptr) (len : U32) (write : Bytes → Int) :
    ∃ written ended, n.onRoute data len write = { n with written, ended } := by
  unfold Node.onRoute
  simp only
  split
  · exact ⟨n.written, true, rfl⟩
  · exact ⟨_, n.ended, rfl⟩

section
variable (pf : Platform)

theorem step_ended {n : Node} (h : n.ended = true) (e : NodeEvent) : n.step pf e = n := if_pos h

theorem step_running {n : Node} (h : n.ended = false) (e : NodeEvent) :
    n.step pf e = n.react pf e := by
  rw [Node.step, h, if_neg Bool.false_ne_true]

theorem bufferFits_step (n : Node) (e : NodeEvent) (h : BufferFits n) :
    BufferFits (n.step pf e) := by
  cases hend : n.ended with
  | true => rwa [step_ended pf hend]
  | false =>
    rw [step_running pf hend]
    cases e with
    | readable frame behind =>
      rw [Node.react]
      rcases onReadable_cases h frame behind with hstep | ⟨bytes, mem, _, _, hmem, hstep⟩
      · rw [hstep]
        exact h
      · rw [hstep]
        rintro mem' ⟨⟩
        exact hmem
    | session data len => exact h
    | route data len write =>
      obtain ⟨written, ended, hstep⟩ := onRoute_cases n data len write
      rw [Node.react, hstep]
      exact h

end

/-! ## The history of a remembered id -/

end Cpe.Proofs.Provenance
