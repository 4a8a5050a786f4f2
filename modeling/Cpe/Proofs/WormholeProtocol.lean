import Cpe.Main.Wormhole

/-! # The order of the library's calls

However calls of `start` and `destroy` interleave, the library is opened, run
and closed in order: it is set up before it runs, it runs once, in one thread,
which may come to that before the stop or after it, and it is released after it
has been stopped and has returned. Only sending has no such order: it begins when
the library has been set up, but goes on whatever becomes of it then. -/
namespace Cpe.Proofs.WormholeProtocol
open Cpe.Lib.ByteOrder Cpe.Main

/-! ## The protocol -/

/-- How far a session with the library is: what is left to set up, or what its
thread does and whether it is being stopped. `again` when there was one before. -/
inductive Phase
  | closed (again : Bool)
  | opening (again : Bool) (left : List ApiCall)
  | up (thread : NetThread) (stopping : Bool)

/-- Has the library been set up, now or before? -/
def Phase.Opened : Phase → Prop
  | .closed again | .opening again _ => again = true
  | .up _ _ => True

inductive Protocol : Phase → ApiEvent → Phase → Prop
  | init {config : MzConfig} {c : ApiCall} {left : List ApiCall} (h : config.setup = c :: left)
    (again : Bool) : Protocol (.closed again) (.call c) (.opening again left)
  | setup (c c' : ApiCall) (left : List ApiCall) (again : Bool) :
    Protocol (.opening again (c :: c' :: left)) (.call c) (.opening again (c' :: left))
  | ready (c : ApiCall) (again : Bool) :
    Protocol (.opening again [c]) (.call c) (.up .created false)
  | run : Protocol (.up .created false) (.call .FancyJingMsgRun) (.up .running false)
  /-- The network thread has not come to its call when the library is stopped. -/
  | runStopped : Protocol (.up .created true) (.call .FancyJingMsgRun) (.up .running true)
  | returns (stopping : Bool) :
    Protocol (.up .running stopping) .runReturns (.up .finished stopping)
  | stop (thread : NetThread) :
    Protocol (.up thread false) (.call .FancyJingMsgStop) (.up thread true)
  | release : Protocol (.up .finished true) (.call .FancyJingMsgRelease) (.closed true)
  | send {phase : Phase} (h : phase.Opened) (dest : U32) (data : Bytes) :
    Protocol phase (.call (.FancyJingMsgSendToPeer dest data)) phase

theorem Protocol.opened {phase phase' : Phase} {e : ApiEvent} (h : Protocol phase e phase')
    (hopened : phase.Opened) : phase'.Opened := by
  cases h with
  | init | setup => exact hopened
  | ready | run | runStopped | returns | stop => trivial
  | release => rfl
  | send => exact hopened

inductive Accepts : List ApiEvent → Phase → Prop
  | nil : Accepts [] (.closed false)
  | snoc {es : List ApiEvent} {phase phase' : Phase} {e : ApiEvent} (before : Accepts es phase)
    (last : Protocol phase e phase') : Accepts (es ++ [e]) phase'

/-! ## Threads and phases -/

variable {ι : Type}

/-- The place of the thread that has the lock. -/
def holderPlace (w : Wormhole ι) : Place :=
  match w.lock with
  | none => .outside
  | some i => w.place i

/-- Between two functions there is a network thread just when the library is up. -/
structure Settled (w : Wormhole ι) (phase : Phase) : Prop where
  connected : w.connected = w.networkThread.isSome
  phase : match w.networkThread with
    | none => ∃ again, phase = .closed again
    | some thread => phase = .up thread false

/-- How far `start` has set the library up. -/
inductive SetUp (config : MzConfig) : List ApiCall → Phase → Prop
  | begins (again : Bool) : SetUp config config.setup (.closed again)
  | opening (c : ApiCall) (left : List ApiCall) (again : Bool) :
    SetUp config (c :: left) (.opening again (c :: left))
  | ready : SetUp config [] (.up .created false)

/-- The phase the library is in when the holder of the lock is at a place. -/
def Agrees (w : Wormhole ι) (phase : Phase) : Place → Prop
  | .outside | .startLocked _ | .destroyLocked => Settled w phase
  | .calling config left =>
    w.networkThread = none ∧ w.connected = false ∧ SetUp config left phase
  | .spawned =>
    w.connected = false ∧ ∃ thread, w.networkThread = some thread ∧ phase = .up thread false
  | .stopped =>
    w.connected = true ∧ ∃ thread, w.networkThread = some thread ∧ phase = .up thread true
  | .joined => w.connected = true ∧ w.networkThread = none ∧ phase = .up .finished true
  | .released => w.connected = true ∧ w.networkThread = none ∧ phase = .closed true

/-- The loop sends only when a `start` has returned, which leaves the library up. -/
def MaySend (w : Wormhole ι) (phase : Phase) : Prop :=
  (w.started = true → phase.Opened) ∧ (w.sendFunc = true → w.started = true)

theorem MaySend.after {w : Wormhole ι} {phase phase' : Phase} {e : ApiEvent} (h : MaySend w phase)
    (hprotocol : Protocol phase e phase') : MaySend w phase' := by
  obtain ⟨hstarted, hregistered⟩ := h
  exact ⟨fun hs => hprotocol.opened (hstarted hs), hregistered⟩

structure Orderly (w : Wormhole ι) (phase : Phase) : Prop where
  guarded : ∀ i, w.place i ≠ .outside ↔ w.lock = some i
  agrees : Agrees w phase (holderPlace w)
  accepts : Accepts w.events phase
  sends : MaySend w phase

theorem orderly_initial : Orderly (Wormhole.initial ι) (.closed false) where
  guarded := fun _ => by simp [Wormhole.initial]
  agrees := ⟨rfl, false, rfl⟩
  accepts := .nil
  sends := ⟨(fun h => by cases h), (fun h => by cases h)⟩

theorem Orderly.settled {w : Wormhole ι} {phase : Phase} (h : Orderly w phase)
    (hlock : w.lock = none) : Settled w phase := by
  have hagrees := h.agrees
  rw [holderPlace, hlock] at hagrees
  exact hagrees

/-- The set-up has more than one call. -/
theorem setup_cons (config : MzConfig) : ∃ c c' left, config.setup = c :: c' :: left := by
  unfold MzConfig.setup
  cases config.tunnelList with
  | nil => exact ⟨_, _, _, rfl⟩
  | cons t ts => exact ⟨_, _, _, rfl⟩

/-- Each call of the set-up takes the library one step further. -/
theorem SetUp.calls {config : MzConfig} {c : ApiCall} {left : List ApiCall} {phase : Phase}
    (h : SetUp config (c :: left) phase) :
    ∃ phase', Protocol phase (.call c) phase' ∧ SetUp config left phase' := by
  obtain ⟨c₀, c₁, rest, hsetup⟩ := setup_cons config
  generalize hall : c :: left = all at h
  cases h with
  | begins =>
    have hcons : c :: left = c₀ :: c₁ :: rest := by rw [hall, hsetup]
    obtain ⟨rfl, rfl⟩ := List.cons.inj hcons
    exact ⟨_, .init hsetup _, .opening c₁ rest _⟩
  | opening c' left' =>
    obtain ⟨rfl, rfl⟩ := List.cons.inj hall
    cases left with
    | nil => exact ⟨_, .ready c _, .ready⟩
    | cons c' rest => exact ⟨_, .setup c c' rest _, .opening c' rest _⟩
  | ready => cases hall

/-- When nothing is left to call the library can run. -/
theorem SetUp.done {config : MzConfig} {phase : Phase} (h : SetUp config [] phase) :
    phase = .up .created false := by
  obtain ⟨c₀, c₁, rest, hsetup⟩ := setup_cons config
  generalize hall : ([] : List ApiCall) = all at h
  cases h with
  | begins =>
    rw [hsetup] at hall
    cases hall
  | opening => cases hall
  | ready => rfl

/-- Only the two globals are looked at. -/
theorem Agrees.of_same {w w' : Wormhole ι} {phase : Phase} {p : Place} (h : Agrees w phase p)
    (hthread : w'.networkThread = w.networkThread) (hconnected : w'.connected = w.connected) :
    Agrees w' phase p := by
  have settled (hs : Settled w phase) : Settled w' phase := by
    obtain ⟨hup, hphase⟩ := hs
    refine ⟨by rw [hthread, hconnected, hup], ?_⟩
    rw [hthread]
    exact hphase
  cases p with
  | outside | startLocked | destroyLocked => exact settled h
  | _ =>
    unfold Agrees at h ⊢
    rw [hthread, hconnected]
    exact h

/-- Where there is a network thread, the library is up, and it stays so while
the thread goes on. -/
theorem Agrees.goes_on {w : Wormhole ι} {phase : Phase} {p : Place} {thread : NetThread}
    (h : Agrees w phase p) (hthread : w.networkThread = some thread) :
    ∃ stopping, phase = .up thread stopping ∧ ∀ (w' : Wormhole ι) (thread' : NetThread),
      w'.networkThread = some thread' → w'.connected = w.connected →
        Agrees w' (.up thread' stopping) p := by
  have settled (hs : Settled w phase) : ∃ stopping, phase = .up thread stopping ∧
      ∀ (w' : Wormhole ι) (thread' : NetThread), w'.networkThread = some thread' →
        w'.connected = w.connected → Settled w' (.up thread' stopping) := by
    obtain ⟨hconnected, hphase⟩ := hs
    rw [hthread] at hconnected hphase
    refine ⟨false, hphase, fun w' thread' hthread' hsame => ⟨?_, ?_⟩⟩
    · rw [hsame, hconnected, hthread']
      rfl
    · rw [hthread']
  cases p with
  | outside => exact settled h
  | startLocked config => exact settled h
  | destroyLocked => exact settled h
  | calling config left =>
    obtain ⟨hnone, -, -⟩ := h
    rw [hthread] at hnone
    cases hnone
  | spawned =>
    obtain ⟨hconnected, thread₀, hthread₀, rfl⟩ := h
    obtain rfl := Option.some.inj (hthread.symm.trans hthread₀)
    exact ⟨false, rfl, fun w' thread' hthread' hsame =>
      ⟨hsame.trans hconnected, thread', hthread', rfl⟩⟩
  | stopped =>
    obtain ⟨hconnected, thread₀, hthread₀, rfl⟩ := h
    obtain rfl := Option.some.inj (hthread.symm.trans hthread₀)
    exact ⟨true, rfl, fun w' thread' hthread' hsame =>
      ⟨hsame.trans hconnected, thread', hthread', rfl⟩⟩
  | joined =>
    obtain ⟨-, hnone, -⟩ := h
    rw [hthread] at hnone
    cases hnone
  | released =>
    obtain ⟨-, hnone, -⟩ := h
    rw [hthread] at hnone
    cases hnone

/-- The network thread goes on, beside the threads at their places. -/
theorem orderly_goes_on {w : Wormhole ι} {phase : Phase} {thread thread' : NetThread}
    {e : ApiEvent} (h : Orderly w phase) (hthread : w.networkThread = some thread)
    (hprotocol : ∀ stopping, Protocol (.up thread stopping) e (.up thread' stopping)) :
    ∃ phase', Orderly { w.note e with networkThread := some thread' } phase' := by
  obtain ⟨stopping, rfl, hagrees⟩ := h.agrees.goes_on hthread
  exact ⟨.up thread' stopping, h.guarded, hagrees _ thread' rfl rfl,
    h.accepts.snoc (hprotocol stopping), h.sends.after (hprotocol stopping)⟩

/-- Sending leaves the threads and the library as they are. -/
theorem orderly_sends {w : Wormhole ι} {phase : Phase} (h : Orderly w phase)
    (hregistered : w.sendFunc = true) (dest : U32) (data : Bytes) :
    Orderly (w.note (.call (.FancyJingMsgSendToPeer dest data))) phase := by
  have hprotocol := Protocol.send (h.sends.1 (h.sends.2 hregistered)) dest data
  have hagrees : Agrees (w.note (.call (.FancyJingMsgSendToPeer dest data))) phase
      (holderPlace w) := h.agrees.of_same rfl rfl
  exact ⟨h.guarded, hagrees, h.accepts.snoc hprotocol, h.sends⟩

/-! ## One step -/

section
variable [DecidableEq ι] {w w' : Wormhole ι} {phase : Phase} {i : ι}

/-- A thread that has the lock, or takes it when it is free, goes to a place. -/
theorem Orderly.moves (h : Orderly w phase) (hfree : w.lock = some i ∨ w.lock = none) {p : Place}
    {phase' : Phase} (hagrees : Agrees w' phase' p) (hp : p ≠ .outside) (hlock : w'.lock = some i)
    (hplace : w'.place = Function.update w.place i p) (haccepts : Accepts w'.events phase')
    (hsends : MaySend w' phase') : Orderly w' phase' := by
  have hself : w'.place i = p := by rw [hplace, Function.update_self]
  refine ⟨fun j => ?_, ?_, haccepts, hsends⟩
  · rw [hlock]
    by_cases hj : j = i
    · rw [hj, hself]
      exact ⟨fun _ => rfl, fun _ => hp⟩
    · have hsame : w'.place j = w.place j := by rw [hplace, Function.update_of_ne hj]
      have hother : w.lock ≠ some j := by
        rcases hfree with hi | hi
        · rw [hi]
          exact fun he => hj (Option.some.inj he).symm
        · rw [hi]
          exact fun he => by cases he
      rw [hsame, h.guarded j]
      exact ⟨fun he => absurd he hother, fun he => absurd (Option.some.inj he).symm hj⟩
  · rw [holderPlace, hlock]
    simp only [hself]
    exact hagrees

/-- The thread that has the lock leaves the function. -/
theorem Orderly.leaves (h : Orderly w phase) (hi : w.lock = some i) (hlock : w'.lock = none)
    (hplace : w'.place = Function.update w.place i .outside) {phase' : Phase}
    (hagrees : Settled w' phase') (haccepts : Accepts w'.events phase')
    (hsends : MaySend w' phase') : Orderly w' phase' := by
  refine ⟨fun j => ?_, ?_, haccepts, hsends⟩
  · rw [hlock, hplace]
    by_cases hj : j = i
    · rw [hj, Function.update_self]
      exact ⟨fun hne => absurd rfl hne, fun he => by cases he⟩
    · rw [Function.update_of_ne hj, h.guarded j, hi]
      exact ⟨fun he => absurd (Option.some.inj he).symm hj, fun he => by cases he⟩
  · rw [holderPlace, hlock]
    exact hagrees

theorem orderly_enter {p : Place} (h : Orderly w phase) (hp : p ≠ .outside)
    (hagrees : ∀ w' : Wormhole ι, Settled w' phase → Agrees w' phase p)
    (hstep : w.enter i p = some w') : Orderly w' phase := by
  unfold Wormhole.enter at hstep
  split at hstep
  · rename_i hfree
    cases hstep
    have hsettled := h.settled hfree.1
    refine h.moves (.inr hfree.1) (hagrees _ ?_) hp rfl rfl h.accepts h.sends
    exact ⟨hsettled.connected, hsettled.phase⟩
  · cases hstep

/-- Every statement of a thread takes the library one step further, or none. -/
theorem orderly_next (h : Orderly w phase) (hstep : w.next i = some w') :
    ∃ phase', Orderly w' phase' := by
  have hinside : w.place i ≠ .outside := by
    intro hout
    rw [Wormhole.next, hout] at hstep
    cases hstep
  have hlock := (h.guarded i).mp hinside
  have hagrees := h.agrees
  rw [holderPlace, hlock] at hagrees
  simp only at hagrees
  unfold Wormhole.next at hstep
  split at hstep
  · cases hstep
  · rename_i config hplace
    rw [hplace] at hagrees
    obtain ⟨hconnected, hphase⟩ := hagrees
    split at hstep
    · rename_i hthread
      cases hstep
      obtain ⟨thread, hthread⟩ := Option.ne_none_iff_exists'.mp hthread
      have hup : phase = .up thread false := by
        rw [hthread] at hphase
        exact hphase
      have hsends : MaySend { w.leave i with started := true } phase := by
        rw [hup]
        exact ⟨fun _ => trivial, fun _ => rfl⟩
      exact ⟨phase, h.leaves hlock rfl rfl ⟨hconnected, hphase⟩ h.accepts hsends⟩
    · rename_i hthread
      cases hstep
      have hnone : w.networkThread = none := not_not.mp hthread
      rw [hnone] at hphase hconnected
      obtain ⟨again, rfl⟩ := hphase
      have hagrees' : Agrees (w.goto i (.calling config config.setup)) (.closed again)
          (.calling config config.setup) := ⟨hnone, hconnected, .begins again⟩
      exact ⟨_, h.moves (.inl hlock) hagrees' (by simp) hlock rfl h.accepts h.sends⟩
  · rename_i config c left hplace
    rw [hplace] at hagrees
    obtain ⟨hthread, hconnected, hsetup⟩ := hagrees
    obtain ⟨phase', hprotocol, hsetup'⟩ := hsetup.calls
    cases hstep
    have hagrees' : Agrees ((w.note (.call c)).goto i (.calling config left)) phase'
        (.calling config left) := ⟨hthread, hconnected, hsetup'⟩
    exact ⟨phase', h.moves (.inl hlock) hagrees' (by simp) hlock rfl (h.accepts.snoc hprotocol)
      (h.sends.after hprotocol)⟩
  · rename_i config hplace
    rw [hplace] at hagrees
    obtain ⟨hthread, hconnected, hsetup⟩ := hagrees
    cases hstep
    have hagrees' : Agrees { w.goto i .spawned with networkThread := some .created } phase
        .spawned := ⟨hconnected, .created, rfl, hsetup.done⟩
    exact ⟨phase, h.moves (.inl hlock) hagrees' (by simp) hlock rfl h.accepts h.sends⟩
  · rename_i hplace
    rw [hplace] at hagrees
    obtain ⟨hconnected, thread, hthread, rfl⟩ := hagrees
    cases hstep
    refine ⟨_, h.leaves hlock rfl rfl ⟨?_, ?_⟩ h.accepts ⟨fun _ => trivial, fun _ => rfl⟩⟩
    · simp [Wormhole.leave, Wormhole.goto, hthread]
    · simp [Wormhole.leave, Wormhole.goto, hthread]
  · rename_i hplace
    rw [hplace] at hagrees
    obtain ⟨hconnected, hphase⟩ := hagrees
    split at hstep
    · rename_i hup
      cases hstep
      -- there is a network thread, so `FancyJingMsgStop` finds the library up
      obtain ⟨thread, hthread⟩ := Option.isSome_iff_exists.mp (hconnected ▸ hup)
      rw [hthread] at hphase
      subst hphase
      have hagrees' : Agrees ((w.note (.call .FancyJingMsgStop)).goto i .stopped)
          (.up thread true) .stopped := ⟨hup, thread, hthread, rfl⟩
      exact ⟨_, h.moves (.inl hlock) hagrees' (by simp) hlock rfl
        (h.accepts.snoc (.stop thread)) (h.sends.after (.stop thread))⟩
    · cases hstep
      exact ⟨phase, h.leaves hlock rfl rfl ⟨hconnected, hphase⟩ h.accepts h.sends⟩
  · rename_i hplace
    rw [hplace] at hagrees
    obtain ⟨hconnected, thread, hthread, rfl⟩ := hagrees
    rw [hthread] at hstep
    -- only a thread that has come to its end is joined
    cases thread with
    | finished =>
      cases hstep
      have hagrees' : Agrees { w.goto i .joined with networkThread := none } (.up .finished true)
          .joined := ⟨hconnected, rfl, rfl⟩
      exact ⟨_, h.moves (.inl hlock) hagrees' (by simp) hlock rfl h.accepts h.sends⟩
    | created => cases hstep
    | running => cases hstep
  · rename_i hplace
    rw [hplace] at hagrees
    obtain ⟨hconnected, hthread, rfl⟩ := hagrees
    cases hstep
    have hagrees' : Agrees ((w.note (.call .FancyJingMsgRelease)).goto i .released) (.closed true)
        .released := ⟨hconnected, hthread, rfl⟩
    exact ⟨_, h.moves (.inl hlock) hagrees' (by simp) hlock rfl (h.accepts.snoc .release)
      (h.sends.after .release)⟩
  · rename_i hplace
    rw [hplace] at hagrees
    obtain ⟨hconnected, hthread, rfl⟩ := hagrees
    cases hstep
    refine ⟨_, h.leaves hlock rfl rfl ⟨?_, ?_⟩ h.accepts h.sends⟩
    · simp [Wormhole.leave, Wormhole.goto, hthread]
    · simp [Wormhole.leave, Wormhole.goto, hthread]

/-- Every step of any thread keeps the library's calls in order. -/
theorem orderly_step {a : Action ι} (h : Orderly w phase) (hstep : w.step a = some w') :
    ∃ phase', Orderly w' phase' := by
  cases a with
  | enterStart i config =>
    exact ⟨phase, orderly_enter (p := .startLocked config) h (by simp) (fun _ hs => hs) hstep⟩
  | enterDestroy i =>
    exact ⟨phase, orderly_enter (p := .destroyLocked) h (by simp) (fun _ hs => hs) hstep⟩
  | next i => exact orderly_next h hstep
  | runs =>
    simp only [Wormhole.step] at hstep
    split at hstep
    · rename_i hthread
      cases hstep
      refine orderly_goes_on h hthread fun stopping => ?_
      cases stopping with
      | false => exact .run
      | true => exact .runStopped
    · cases hstep
  | returns =>
    simp only [Wormhole.step] at hstep
    split at hstep
    · rename_i hthread
      cases hstep
      exact orderly_goes_on h hthread .returns
    · cases hstep
  | registers =>
    simp only [Wormhole.step] at hstep
    split at hstep
    · rename_i hstarted
      cases hstep
      exact ⟨phase, h.guarded, h.agrees.of_same rfl rfl, h.accepts, h.sends.1, fun _ => hstarted⟩
    · cases hstep
  | sends dest data =>
    simp only [Wormhole.step] at hstep
    split at hstep
    · rename_i hregistered
      cases hstep
      exact ⟨phase, orderly_sends h hregistered dest data⟩
    · cases hstep

/-! ## Every run -/

theorem orderly_run {as : List (Action ι)} (h : Orderly w phase)
    (hrun : as.foldlM Wormhole.step w = some w') : ∃ phase', Orderly w' phase' := by
  induction as generalizing w phase with
  | nil =>
    cases hrun
    exact ⟨phase, h⟩
  | cons a as ih =>
    rw [List.foldlM_cons] at hrun
    obtain ⟨w₁, hstep, hrest⟩ := Option.bind_eq_some_iff.mp hrun
    obtain ⟨phase₁, h₁⟩ := orderly_step h hstep
    exact ih h₁ hrest

/-- A thread that has the lock waits for nothing but the network thread, which
can go on then. -/
theorem Orderly.goes_on (h : Orderly w phase) (hlock : w.lock = some i) :
    (∃ w', w.step (.next i) = some w') ∨ (∃ w', w.step .runs = some w') ∨
      ∃ w', w.step .returns = some w' := by
  have hinside := (h.guarded i).mpr hlock
  simp only [Wormhole.step, Wormhole.next]
  cases hplace : w.place i with
  | outside => exact absurd hplace hinside
  | startLocked config =>
    by_cases hthread : w.networkThread ≠ none
    · exact .inl ⟨_, if_pos hthread⟩
    · exact .inl ⟨_, if_neg hthread⟩
  | calling config left =>
    cases left with
    | nil => exact .inl ⟨_, rfl⟩
    | cons c left => exact .inl ⟨_, rfl⟩
  | spawned => exact .inl ⟨_, rfl⟩
  | destroyLocked =>
    by_cases hup : w.connected = true
    · exact .inl ⟨_, if_pos hup⟩
    · exact .inl ⟨_, if_neg hup⟩
  | stopped =>
    cases hthread : w.networkThread with
    | none => exact .inl ⟨_, rfl⟩
    | some thread =>
      cases thread with
      | created => exact .inr (.inl ⟨_, rfl⟩)
      | running => exact .inr (.inr ⟨_, rfl⟩)
      | finished => exact .inl ⟨_, rfl⟩
  | joined => exact .inl ⟨_, rfl⟩
  | released => exact .inl ⟨_, rfl⟩

/-- However many threads call `start` and `destroy`, and however they
interleave with each other, with the network thread and with the loop that sends:
what happens to the library is in order, one thread at a time is in the two
functions and it is never stuck, and between them the globals say whether the
library is up. -/
theorem run_in_order (as : List (Action ι)) (w : Wormhole ι)
    (hrun : as.foldlM Wormhole.step (Wormhole.initial ι) = some w) :
    ∃ phase, Accepts w.events phase ∧ (w.lock = none → Settled w phase) ∧
      ∀ i, w.place i ≠ .outside →
        (∀ j, w.place j ≠ .outside → j = i) ∧
          ((∃ w', w.step (.next i) = some w') ∨ (∃ w', w.step .runs = some w') ∨
            ∃ w', w.step .returns = some w') := by
  obtain ⟨phase, h⟩ := orderly_run orderly_initial hrun
  refine ⟨phase, h.accepts, h.settled, fun i hi => ⟨fun j hj => ?_, ?_⟩⟩
  · have hboth := ((h.guarded j).mp hj).symm.trans ((h.guarded i).mp hi)
    exact Option.some.inj hboth
  · exact h.goes_on ((h.guarded i).mp hi)

/-- One thread starts the channel and sends; a second finds it started, and stops
it before it runs. The last message finds the library released. -/
def startedAndStopped : List (Action Bool) :=
  .enterStart false {} :: List.replicate 8 (.next false) ++
    [.registers, .sends 2 [1], .enterStart true {}, .next true, .enterDestroy true, .next true,
      .runs, .returns, .next true, .next true, .sends 2 [1], .next true]

theorem stopped_in_order :
    ∃ w, startedAndStopped.foldlM Wormhole.step (Wormhole.initial Bool) = some w ∧
      w.lock = none ∧ ∃ phase, Accepts w.events phase ∧ Settled w phase := by
  refine ⟨_, rfl, rfl, ?_⟩
  obtain ⟨phase, haccepts, hsettled, -⟩ := run_in_order startedAndStopped _ rfl
  exact ⟨phase, haccepts, hsettled rfl⟩

end

end Cpe.Proofs.WormholeProtocol
