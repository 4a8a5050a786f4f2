import Cpe.Uvpp.Handle

/-! # Steps of the handle classes

What a call or a callback of the loop does, once for all calls: it is misused
and crashes, or it changes the objects, the memory and the loop in one of a few
ways, and these fit together as before. -/
namespace Cpe.Proofs.HandleSteps
open Cpe.Uvpp.Handle

variable {κ β : Type}

/-! ## Misuse -/

def Has (w : World κ β) (o : κ) (a : Nat) : Prop := ∃ x, w.objects o = some x ∧ x.uvHandle = some a

/-- Objects, memory and loop fit together: a handle has one owner at most, which
has not closed it, and of the handles in memory the loop has those that are
initialised. -/
structure Sound (w : World κ β) : Prop where
  owned : ∀ o x a, w.objects o = some x → x.uvHandle = some a →
    x.willClose = false ∧ w.closing a = false ∧
      ∃ b, w.heap a = some b ∧ ∀ c, b.type = some c → c = x.cls
  unique : ∀ o o' x x' a, w.objects o = some x → w.objects o' = some x' → x.uvHandle = some a →
    x'.uvHandle = some a → o = o'
  closing : ∀ a, w.closing a = true → w.registered a = true ∧ w.active a = false ∧
    ((w.heap a).bind fun b => b.data .uv_cid_close) ≠ none
  active : ∀ a b c, w.active a = true → w.heap a = some b → b.type = some c →
    b.data c.startId ≠ none
  registered : ∀ a, w.active a = true → w.registered a = true
  typed : ∀ a b, w.heap a = some b → b.type.isSome = w.registered a
  fresh : ∀ a, w.next ≤ a → w.heap a = none ∧ w.registered a = false

section
variable {w w' : World κ β} {op : Op κ β} {o o' : κ} {x x' : Object} {a : Nat} {b : Block β}

theorem Sound.block (h : Sound w) (hx : w.objects o = some x) (ha : x.uvHandle = some a) :
    ∃ b, w.heap a = some b ∧ ∀ c, b.type = some c → c = x.cls := by
  obtain ⟨-, -, hblock⟩ := h.owned o x a hx ha
  exact hblock

/-- The type of a handle that the loop has. -/
theorem Sound.type (h : Sound w) (hb : w.heap a = some b) (hregistered : w.registered a = true) :
    ∃ c, b.type = some c := by
  have htype := h.typed a b hb
  rw [hregistered] at htype
  exact Option.isSome_iff_exists.mp htype

/-- The handle of `x`, when it has one, is in use and no other object has it. -/
structure Claims (w : World κ β) (o : κ) (x : Object) (a : Nat) : Prop where
  willClose : x.willClose = false
  closing : w.closing a = false
  block : ∃ b, w.heap a = some b ∧ ∀ c, b.type = some c → c = x.cls
  others : ∀ p y, p ≠ o → w.objects p = some y → y.uvHandle ≠ some a

theorem Sound.inMemory (h : Sound w) (hhas : Has w o a) : w.heap a ≠ none := by
  obtain ⟨x, hx, ha⟩ := hhas
  obtain ⟨b, hb, -⟩ := h.block hx ha
  simp [hb]

theorem setObject_objects [DecidableEq κ] {y : Option Object} {p : κ} :
    (w.setObject o y).objects p = some x ↔ p = o ∧ y = some x ∨ p ≠ o ∧ w.objects p = some x := by
  by_cases hp : p = o <;> simp [World.setObject, hp]

theorem setBlock_heap {c : Option (Block β)} {p : Nat} :
    (w.setBlock a c).heap p = some b ↔ p = a ∧ c = some b ∨ p ≠ a ∧ w.heap p = some b := by
  by_cases hp : p = a <;> simp [World.setBlock, hp]

theorem Sound.setObject [DecidableEq κ] (h : Sound w) {y : Option Object}
    (hy : ∀ x a, y = some x → x.uvHandle = some a → Claims w o x a) : Sound (w.setObject o y) where
  owned := by
    intro p x a hx ha
    rcases setObject_objects.mp hx with ⟨rfl, hset⟩ | ⟨-, hx⟩
    · have hclaims := hy x a hset ha
      exact ⟨hclaims.willClose, hclaims.closing, hclaims.block⟩
    · exact h.owned p x a hx ha
  unique := by
    intro p p' x x' a hx hx' ha ha'
    rcases setObject_objects.mp hx with ⟨rfl, hset⟩ | ⟨hp, hold⟩
    · rcases setObject_objects.mp hx' with ⟨rfl, -⟩ | ⟨hp', hx'⟩
      · rfl
      · exact absurd ha' ((hy x a hset ha).others p' x' hp' hx')
    · rcases setObject_objects.mp hx' with ⟨rfl, hset⟩ | ⟨-, hx'⟩
      · exact absurd ha ((hy x' a hset ha').others p x hp hold)
      · exact h.unique p p' x x' a hold hx' ha ha'
  closing := h.closing
  active := h.active
  registered := h.registered
  typed := h.typed
  fresh := h.fresh

/-- A handle that is in memory, or that the loop has, is not the next one. -/
theorem Sound.old (h : Sound w) (hold : w.heap a ≠ none ∨ w.registered a = true) : a ≠ w.next := by
  rintro rfl
  obtain ⟨hheap, hregistered⟩ := h.fresh w.next (Nat.le_refl w.next)
  rcases hold with hmemory | hloop
  · exact hmemory hheap
  · rw [hregistered] at hloop
    cases hloop

theorem Sound.allocate (h : Sound w) (c : HandleClass) (succeeds : Bool) :
    Sound (w.allocate c succeeds) where
  owned := by
    intro o x a hx ha
    obtain ⟨hwill, hclosing, b, hb, hcls⟩ := h.owned o x a hx ha
    have hold : a ≠ w.next := h.old (.inl (h.inMemory ⟨x, hx, ha⟩))
    exact ⟨hwill, hclosing, b, setBlock_heap.mpr (.inr ⟨hold, hb⟩), hcls⟩
  unique := h.unique
  closing := by
    intro a hclosing
    obtain ⟨hregistered, hactive, hdata⟩ := h.closing a hclosing
    have hold := h.old (.inr hregistered)
    refine ⟨?_, hactive, ?_⟩
    · simp [World.allocate, hregistered, hold]
    · simpa [World.allocate, World.setBlock, hold] using hdata
  active := by
    intro a b d hactive hb hd
    rcases setBlock_heap.mp hb with ⟨hnew, -⟩ | ⟨-, hb⟩
    · exact absurd hnew (h.old (.inr (h.registered a hactive)))
    · exact h.active a b d hactive hb hd
  registered := by
    intro a hactive
    have hregistered := h.registered a hactive
    have hold := h.old (.inr hregistered)
    simp [World.allocate, hregistered, hold]
  typed := by
    intro a b hb
    rcases setBlock_heap.mp hb with ⟨rfl, hset⟩ | ⟨hold, hb⟩
    · obtain rfl := Option.some.inj hset
      cases hinit : (succeeds || !c.initFails) <;> simp [World.allocate, hinit]
    · rw [h.typed a b hb]
      simp [World.allocate, hold]
  fresh := by
    intro a ha
    have hlater : w.next < a := ha
    have hnew : a ≠ w.next := Nat.ne_of_gt hlater
    obtain ⟨hheap, hregistered⟩ := h.fresh a (Nat.le_of_lt hlater)
    simp [World.allocate, World.setBlock, hnew, hheap, hregistered]

/-- A callback is stored in a handle. -/
theorem Sound.store (h : Sound w) (hb : w.heap a = some b) (cid : CallbackId) (callback : β) :
    Sound (w.setBlock a (some (b.store cid callback))) where
  owned := by
    intro o x p hx hp
    obtain ⟨hwill, hclosing, d, hd, hcls⟩ := h.owned o x p hx hp
    refine ⟨hwill, hclosing, ?_⟩
    by_cases hpa : p = a
    · obtain rfl := Option.some.inj ((hpa ▸ hd).symm.trans hb)
      exact ⟨_, setBlock_heap.mpr (.inl ⟨hpa, rfl⟩), hcls⟩
    · exact ⟨d, setBlock_heap.mpr (.inr ⟨hpa, hd⟩), hcls⟩
  unique := h.unique
  closing := by
    intro p hclosing
    obtain ⟨hregistered, hactive, hdata⟩ := h.closing p hclosing
    refine ⟨hregistered, hactive, ?_⟩
    by_cases hpa : p = a
    · rw [hpa, hb] at hdata
      by_cases hcid : CallbackId.uv_cid_close = cid
      · simp [World.setBlock, hpa, Block.store, hcid]
      · simpa [World.setBlock, hpa, Block.store, hcid] using hdata
    · simpa [World.setBlock, hpa] using hdata
  active := by
    intro p c d hactive hc hd
    rcases setBlock_heap.mp hc with ⟨rfl, hset⟩ | ⟨-, hc⟩
    · obtain rfl := Option.some.inj hset
      have hdata := h.active p b d hactive hb hd
      by_cases hcid : d.startId = cid
      · simp [Block.store, hcid]
      · simpa [Block.store, hcid] using hdata
    · exact h.active p c d hactive hc hd
  registered := h.registered
  typed := by
    intro p c hc
    rcases setBlock_heap.mp hc with ⟨rfl, hset⟩ | ⟨-, hc⟩
    · obtain rfl := Option.some.inj hset
      exact h.typed p b hb
    · exact h.typed p c hc
  fresh := by
    intro p hp
    obtain ⟨hheap, hregistered⟩ := h.fresh p hp
    have hpa : p ≠ a := by
      rintro rfl
      rw [hheap] at hb
      cases hb
    exact ⟨by simp [World.setBlock, hpa, hheap], hregistered⟩

/-- The memory of a handle is given back that no object has. -/
theorem Sound.free (h : Sound w) (hopen : w.closing a = false)
    (hnone : ∀ o x, w.objects o = some x → x.uvHandle ≠ some a) : Sound (w.setBlock a none) where
  owned := by
    intro o x p hx hp
    have hpa : p ≠ a := by
      rintro rfl
      exact hnone o x hx hp
    simpa [World.setBlock, hpa] using h.owned o x p hx hp
  unique := h.unique
  closing := by
    intro p hclosing
    have hpa : p ≠ a := by
      rintro rfl
      rw [World.setBlock, hopen] at hclosing
      cases hclosing
    simpa [World.setBlock, hpa] using h.closing p hclosing
  active := by
    intro p b c hactive hb hc
    rcases setBlock_heap.mp hb with ⟨-, hset⟩ | ⟨-, hb⟩
    · cases hset
    · exact h.active p b c hactive hb hc
  registered := h.registered
  typed := by
    intro p b hb
    rcases setBlock_heap.mp hb with ⟨-, hset⟩ | ⟨-, hb⟩
    · cases hset
    · exact h.typed p b hb
  fresh := by
    intro p hp
    obtain ⟨hheap, hregistered⟩ := h.fresh p hp
    refine ⟨?_, hregistered⟩
    by_cases hpa : p = a
    · simp [World.setBlock, hpa]
    · simp [World.setBlock, hpa, hheap]

end

end Cpe.Proofs.HandleSteps
