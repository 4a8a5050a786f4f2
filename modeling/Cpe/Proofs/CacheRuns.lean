import Cpe.Main.Runs

/-! # The cache over runs in TUN mode

A mesh notify empties the cache before it changes the table. An online notify
changes the table and leaves the cache, so the cache stays right exactly if
every new table gives each remembered address its remembered id. -/
namespace Cpe.Proofs.CacheRuns
open Cpe.Lib.ByteOrder Cpe.Lib.CString Cpe.Lib.Number Cpe.Lib.InetAddr
open Cpe.Lib.MemoTable Cpe.Lib.Run Cpe.Pro Cpe.Main

/-- A packet goes where a lookup with an empty cache sends it. -/
def Transparent (s : Server) (e : Event) : Prop :=
  ∀ packet, e = .packet packet →
    (s.getDestIDFromTunPacket packet).1 = s.uncached (tunDestIP packet) defaultMac

/-- A list of online CPEs has every remembered address first with its
remembered id. -/
def ListsCached (s : Server) : SessionMsg → Prop
  | .online _ list => ∀ ip nodeId, s.ip2nodeidCache ip = some nodeId →
    ∃ info, firstOnline list ip = some info ∧ atoi info.cpeId = nodeId
  | _ => True

def KeepsCached (pf : Platform) (s : Server) : Event → Prop
  | .packet _ => True
  | .session data len => ListsCached s (decodeSession pf data len)

/-- What holds in every state of a run: the mode, and that the cache never
remembers 0 or the gateway. -/
def Ready (s : Server) : Prop :=
  s.TunMode ∧ Kept (keepsId s.gatewayId) s.ip2nodeidCache

theorem ready_step (pf : Platform) (s : Server) (e : Event) (h : Ready s) :
    Ready (s.step pf e) := by
  refine ⟨tunMode_of_frame (step_frame pf s e).symm h.1, ?_⟩
  rw [gatewayId_of_frame (step_frame pf s e)]
  cases e with
  | packet packet =>
    rw [Server.step, tunStep_eq h.1]
    exact h.2.learn _ _
  | session data len =>
    rw [step_session]
    cases decodeSession pf data len with
    | mesh parsed list =>
      cases parsed with
      | true => exact kept_empty _
      | false => exact h.2
    | _ => exact h.2

/-- A dispatch keeps the cache right. -/
theorem cacheAgrees_packet {s : Server} (h : Ready s) (ha : CacheAgrees s) (pf : Platform)
    (packet : Ptr) : CacheAgrees (s.step pf (.packet packet)) := by
  rw [Server.step, tunStep_eq h.1]
  have hcoh : Coherent s.tunLookup s.ip2nodeidCache := ha
  exact hcoh.learn (tunDestIP packet)

/-- A new table answers as a remembered id only by listing it. -/
theorem uncached_online_eq_iff {s : Server} (h : Ready s) (list : UserListOnEdge)
    {ip nodeId : U32} (hc : s.ip2nodeidCache ip = some nodeId) :
    (s.applyOnline list).uncached ip defaultMac = nodeId ↔
      ∃ info, firstOnline list ip = some info ∧ atoi info.cpeId = nodeId := by
  have hkept : keepsId s.gatewayId nodeId = true := h.2 ip nodeId hc
  have hmode : (s.applyOnline list).TunMode := h.1
  have hlookup : (s.applyOnline list).tunLookup ip = nodeId ↔ _ := tunLookup_eq_iff hmode hkept
  rw [show (s.applyOnline list).cpes = onlineTable list from rfl, owner_onlineTable] at hlookup
  rw [← Server.tunLookup, hlookup]
  cases firstOnline list ip with
  | none => simp
  | some info => simp [onlineNode]

theorem cacheAgrees_receive {s : Server} (h : Ready s) (ha : CacheAgrees s) (pf : Platform)
    (msg : SessionMsg) : CacheAgrees (s.receive pf msg) ↔ ListsCached s msg := by
  cases msg with
  | mesh parsed list =>
    have hagree : CacheAgrees (s.receive pf (.mesh parsed list)) := by
      cases parsed with
      | true => exact coherent_empty _
      | false => exact ha
    exact ⟨fun _ => trivial, fun _ => hagree⟩
  | online parsed list =>
    constructor
    · intro ha' ip nodeId hc
      exact (uncached_online_eq_iff h list hc).mp (ha' ip nodeId hc)
    · intro hl ip nodeId hc
      exact (uncached_online_eq_iff h list hc).mpr (hl ip nodeId hc)
  | _ => exact ⟨fun _ => trivial, fun _ => ha⟩

/-- One step from a state with a right cache. -/
theorem cacheAgrees_step (pf : Platform) (s : Server) (e : Event) (h : Ready s)
    (ha : CacheAgrees s) : CacheAgrees (s.step pf e) ↔ KeepsCached pf s e := by
  cases e with
  | packet packet =>
    have ha' := cacheAgrees_packet h ha pf packet
    exact ⟨fun _ => trivial, fun _ => ha'⟩
  | session data len =>
    rw [step_session]
    exact cacheAgrees_receive h ha pf _

/-- A right cache makes a dispatch transparent. -/
theorem transparent_of_cacheAgrees {s : Server} (h : Ready s) (ha : CacheAgrees s) (e : Event) :
    Transparent s e := by
  intro packet _
  have hcoh : Coherent s.tunLookup s.ip2nodeidCache := ha
  rw [getDestIDFromTunPacket_eq h.1]
  exact hcoh.answer (tunDestIP packet)

/-- **Cache transparency.** In a run of packets and datagrams the cache is
right in every state and every packet goes where its own lookup sends it,
exactly if every keepalive response of the run lists what is remembered. -/
theorem cache_transparent_iff (pf : Platform) (fd id gatewayId : U32) (config : MzConfig)
    (htap : config.tapMode = 0) (hacc : config.onlyAcc = 0) (es : List Event) :
    (Throughout (Server.step pf) CacheAgrees (started pf fd id config gatewayId) es ∧
      EachStep (Server.step pf) Transparent (started pf fd id config gatewayId) es) ↔
    EachStep (Server.step pf) (KeepsCached pf) (started pf fd id config gatewayId) es := by
  have hready : Ready (started pf fd id config gatewayId) := by
    rw [started_eq]
    exact ⟨⟨htap, hacc⟩, kept_empty _⟩
  have hstart : CacheAgrees (started pf fd id config gatewayId) := by
    rw [started_eq]
    exact coherent_empty _
  have hiff : Throughout (Server.step pf) CacheAgrees _ es ↔ _ :=
    throughout_iff_eachStep hready (ready_step pf) (cacheAgrees_step pf)
  constructor
  · rintro ⟨hall, _⟩
    exact (hiff.mp hall).2
  · intro hkeep
    have hall := hiff.mpr ⟨hstart, hkeep⟩
    have hready_all : Throughout (Server.step pf) Ready _ es :=
      throughout_of_step hready (ready_step pf)
    refine ⟨hall, ?_⟩
    exact EachStep.of_throughout (Throughout.and.mpr ⟨hready_all, hall⟩)
      fun s e h => transparent_of_cacheAgrees h.1 h.2 e

/-! ## A stale entry -/

/-- A packet to 10.0.0.2 between a mesh list that gives the address to node 2
and a keepalive response that gives it to node 3. -/
def staleRun : List Event :=
  [.meshNotify ⟨[{ nodeId := 2, virtualIp := str "10.0.0.2", netMask := 32 }]⟩,
    .packet (packetTo 0x0a000002),
    .keepAlive ⟨[⟨[⟨str "3", str "10.0.0.2"⟩]⟩]⟩,
    .packet (packetTo 0x0a000002)]

/-- The last packet still goes to node 2. -/
theorem stale_after_keepalive :
    ¬ (Throughout (Server.step ⟨wire, id⟩) CacheAgrees (started ⟨wire, id⟩ 3 1 {} 9) staleRun ∧
      EachStep (Server.step ⟨wire, id⟩) Transparent (started ⟨wire, id⟩ 3 1 {} 9) staleRun) := by
  rintro ⟨_, htransparent⟩
  have hlast := htransparent (staleRun.take 3) (.packet (packetTo 0x0a000002)) [] rfl
    (packetTo 0x0a000002) rfl
  revert hlast
  decide

/-- The same run, with a keepalive response that has the address at node 2. -/
def relistedRun : List Event :=
  [.meshNotify ⟨[{ nodeId := 2, virtualIp := str "10.0.0.2", netMask := 32 }]⟩,
    .packet (packetTo 0x0a000002),
    .keepAlive ⟨[⟨[⟨str "2", str "10.0.0.2"⟩]⟩]⟩,
    .packet (packetTo 0x0a000002)]

theorem keepsCached_of_empty (pf : Platform) {s : Server} (h : s.ip2nodeidCache = Memo.empty)
    (data : Ptr) (len : U16) : KeepsCached pf s (.session data len) := by
  show ListsCached s (decodeSession pf data len)
  cases decodeSession pf data len with
  | online parsed list =>
    intro ip nodeId hc
    rw [h] at hc
    cases hc
  | _ => trivial

/-- Behind an empty cache a packet leaves its own address remembered at most. -/
theorem first_remembered (pf : Platform) {s : Server} (hmode : s.TunMode)
    (hempty : s.ip2nodeidCache = Memo.empty) {packet : Ptr} {ip nodeId : U32}
    (h : (s.step pf (.packet packet)).ip2nodeidCache ip = some nodeId) :
    ip = tunDestIP packet ∧ nodeId = s.tunLookup (tunDestIP packet) := by
  rw [Server.step, tunStep_eq hmode] at h
  simp only [learn_apply] at h
  split at h
  · rename_i hnew
    exact ⟨hnew.1, (Option.some.inj h).symm⟩
  · rw [hempty] at h
    cases h

/-- A response that lists the remembered address again leaves the cache right. -/
theorem cache_transparent_relisted :
    Throughout (Server.step ⟨wire, id⟩) CacheAgrees (started ⟨wire, id⟩ 3 1 {} 9) relistedRun ∧
      EachStep (Server.step ⟨wire, id⟩) Transparent (started ⟨wire, id⟩ 3 1 {} 9) relistedRun := by
  have hempty : (started ⟨wire, id⟩ 3 1 {} 9).ip2nodeidCache = Memo.empty := rfl
  refine (cache_transparent_iff ⟨wire, id⟩ 3 1 9 {} rfl rfl relistedRun).mpr ?_
  refine eachStep_cons.mpr ⟨keepsCached_of_empty _ hempty _ _, eachStep_cons.mpr ⟨trivial,
    eachStep_cons.mpr ⟨?_, eachStep_cons.mpr ⟨trivial, eachStep_nil⟩⟩⟩⟩
  intro ip nodeId hc
  obtain ⟨rfl, rfl⟩ := first_remembered ⟨wire, id⟩ ⟨rfl, rfl⟩ rfl hc
  exact ⟨⟨str "2", str "10.0.0.2"⟩, by decide +kernel, by decide +kernel⟩

end Cpe.Proofs.CacheRuns
