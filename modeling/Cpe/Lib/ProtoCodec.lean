import Cpe.Lib.ProtoFields
import Mathlib.Logic.Equiv.Defs

/-! # Codecs of protobuf messages

A message class is built from the slots of its fields: how a payload changes the
value of a field, what is written for it, how values are merged and counted.
Each slot carries its laws, and the laws of a message follow from those of its
slots. Fields of unknown numbers are kept as bytes. -/
namespace Cpe.Lib.ProtoCodec
open Cpe.Lib.ByteOrder Cpe.Lib.ProtoWire

/-! ## Sizes -/

/-- `VarintSize32` and `VarintSize64`. -/
def varintSize (v : Nat) : Nat := (Nat.log2 (v ||| 1) * 9 + 73) / 64

def varintSizePlusOne (v : Nat) : Nat := (Nat.log2 (v ||| 1) * 9 + 73 + 64) / 64

/-- A length is cut to 32 bits to count its own bytes. -/
def lengthDelimitedSize (length : Nat) : Nat := length + varintSize (length % 2 ^ 32)

theorem log2_or_one {v : Nat} (h : 0 < v) : Nat.log2 (v ||| 1) = Nat.log2 v := by
  have hlow : 2 ^ Nat.log2 v ≤ v := Nat.log2_self_le (by omega)
  have hhigh : v < 2 ^ (Nat.log2 v + 1) := Nat.lt_log2_self
  have hone : 1 < 2 ^ (Nat.log2 v + 1) := Nat.one_lt_two_pow (by omega)
  rw [Nat.log2_eq_iff (by have := Nat.left_le_or (n := v) (m := 1); omega)]
  exact ⟨hlow.trans Nat.left_le_or, Nat.or_lt_two_pow hhigh hone⟩

theorem log2_div_128 {v : Nat} (h : 128 ≤ v) : Nat.log2 v = Nat.log2 (v / 128) + 7 := by
  have hpos : v / 128 ≠ 0 := by omega
  have hlow : 2 ^ Nat.log2 (v / 128) ≤ v / 128 := Nat.log2_self_le hpos
  have hhigh : v / 128 < 2 ^ (Nat.log2 (v / 128) + 1) := Nat.lt_log2_self
  rw [Nat.log2_eq_iff (by omega)]
  rw [pow_succ] at hhigh
  constructor
  · rw [pow_add]
    omega
  · rw [pow_succ, pow_add]
    omega

/-- A byte for every seven bits. -/
theorem writeVarint_length {k v : Nat} (h : v < 128 ^ (k + 1)) :
    (writeVarint (k + 1) v).length = Nat.log2 (v ||| 1) / 7 + 1 := by
  have hone : ∀ {v : Nat}, v < 128 → Nat.log2 (v ||| 1) / 7 + 1 = 1 := by
    intro v hv
    have hne : v ||| 1 ≠ 0 := by have := Nat.right_le_or (n := v) (m := 1); omega
    have hlt : v ||| 1 < 2 ^ 7 := Nat.or_lt_two_pow hv (by decide)
    have hlog := (Nat.log2_lt hne).mpr hlt
    omega
  induction k generalizing v with
  | zero =>
    have hv : v < 128 := by simpa using h
    rw [writeVarint, if_pos hv, hone hv, List.length_singleton]
  | succ k ih =>
    by_cases hv : v < 128
    · rw [writeVarint, if_pos hv, hone hv, List.length_singleton]
    · have hdiv : v / 128 < 128 ^ (k + 1) := by
        rw [Nat.div_lt_iff_lt_mul (by omega), ← pow_succ]
        exact h
      have hlog : Nat.log2 v = Nat.log2 (v / 128) + 7 := log2_div_128 (by omega)
      rw [writeVarint, if_neg hv, List.length_cons, ih hdiv, log2_or_one (v := v) (by omega),
        log2_or_one (v := v / 128) (by omega), hlog]
      omega

/-- The multiplication counts the groups of seven bits of a 64-bit number. -/
theorem log2_groups {v : Nat} (h : v < 2 ^ 64) :
    (Nat.log2 (v ||| 1) * 9 + 73) / 64 = Nat.log2 (v ||| 1) / 7 + 1 := by
  have hne : v ||| 1 ≠ 0 := by have := Nat.right_le_or (n := v) (m := 1); omega
  have hlog := (Nat.log2_lt hne).mpr (Nat.or_lt_two_pow h (by decide))
  omega

theorem varintSize_eq {k v : Nat} (hv : v < 2 ^ 64) (h : v < 128 ^ (k + 1)) :
    varintSize v = (writeVarint (k + 1) v).length := by
  rw [varintSize, log2_groups hv, writeVarint_length h]

theorem varintSizePlusOne_eq {v : Nat} (h : v < 2 ^ 64) :
    varintSizePlusOne v = 1 + (writeVarint 10 v).length := by
  have hsize : varintSize v = (writeVarint 10 v).length := varintSize_eq h (by omega)
  rw [varintSizePlusOne, ← hsize, varintSize]
  omega

theorem lengthDelimitedSize_eq {n : Nat} (h : n ≤ maxSize) :
    lengthDelimitedSize n = (writeVarint 5 n).length + n := by
  have hlt : n < 2 ^ 32 := h.trans_lt (by decide)
  rw [lengthDelimitedSize, Nat.mod_eq_of_lt hlt, varintSize_eq (k := 4) (by omega) (by omega)]
  exact Nat.add_comm _ _

/-- The numbers up to 15 have tags of one byte. -/
theorem tagBytes_length {num wireType : Nat} (hnum : num < 16) (htype : wireType < 8) :
    (tagBytes num wireType).length = 1 := by
  rw [tagBytes, writeVarint, if_pos (by omega), List.length_singleton]

/-! ## Accepted inputs -/

/-- What is left by an input that is handled and not refused. -/
def accepted {σ : Type} : Option (Bool × σ) → Option σ
  | some (true, s) => some s
  | _ => none

theorem accepted_eq_some {σ : Type} {o : Option (Bool × σ)} {s : σ} :
    accepted o = some s ↔ o = some (true, s) := by
  cases o with
  | none => simp [accepted]
  | some r =>
    obtain ⟨ok, s'⟩ := r
    cases ok <;> simp [accepted]

/-- Steps that are accepted one after the other are accepted in a wider state. -/
theorem foldlM_view {σ τ β : Type} {step : σ → β → Option σ} (step' : τ → β → Option τ)
    (view : σ → τ) {bs : List β}
    (h : ∀ s s', ∀ b ∈ bs, step s b = some s' → step' (view s) b = some (view s')) {s s' : σ}
    (hrun : bs.foldlM step s = some s') : bs.foldlM step' (view s) = some (view s') := by
  induction bs generalizing s with
  | nil =>
    cases hrun
    rfl
  | cons b bs ih =>
    rw [List.foldlM_cons] at hrun
    obtain ⟨s₁, hstep, hrest⟩ := Option.bind_eq_some_iff.mp hrun
    rw [List.foldlM_cons, h s s₁ b List.mem_cons_self hstep]
    exact ih (fun s s' c hc => h s s' c (List.mem_cons_of_mem b hc)) hrest

/-! ## Message classes -/

/-- A message class. `depth` messages or groups may be nested in a message that
is parsed, and `Ok depth` are the messages that come out of that. -/
structure Codec (μ : Type) where
  empty : μ
  parse : Nat → μ → Bytes → Bool × μ
  serialize : μ → Bytes
  mergeFrom : μ → μ → μ
  byteSize : μ → Nat
  Ok : Nat → μ → Prop
  ok_empty : ∀ depth, Ok depth empty
  ok_parse : ∀ {depth m m' bs}, Ok depth m → parse depth m bs = (true, m') → Ok depth m'
  empty_mergeFrom : ∀ m, mergeFrom empty m = m
  mergeFrom_empty : ∀ m, mergeFrom m empty = m
  mergeFrom_assoc : ∀ m₁ m₂ m₃, mergeFrom (mergeFrom m₁ m₂) m₃ = mergeFrom m₁ (mergeFrom m₂ m₃)
  parse_nil : ∀ depth m, parse depth m [] = (true, m)
  parse_serialize : ∀ {depth m}, Ok depth m → (serialize m).length ≤ maxSize → ∀ m₀ rest,
    parse depth m₀ (serialize m ++ rest) = parse depth (mergeFrom m₀ m) rest
  byteSize_eq : ∀ {m}, (serialize m).length ≤ maxSize → byteSize m = (serialize m).length

/-- A field of a message class. A payload of another wire type is not read. -/
structure Slot (α : Type) where
  num : Nat
  default : α
  read : Nat → α → Payload → Option (Bool × α)
  write : α → Bytes
  merge : α → α → α
  size : α → Nat
  Ok : Nat → α → Prop
  ok_default : ∀ depth, Ok depth default
  ok_read : ∀ {depth v v' p}, Ok depth v → read depth v p = some (true, v') → Ok depth v'
  read_none : ∀ {depth v p}, read depth v p = none → ∀ v', read depth v' p = none
  default_merge : ∀ v, merge default v = v
  merge_default : ∀ v, merge v default = v
  merge_assoc : ∀ v₁ v₂ v₃, merge (merge v₁ v₂) v₃ = merge v₁ (merge v₂ v₃)
  size_eq : num < 16 → ∀ {v}, (write v).length ≤ maxSize → size v = (write v).length
  written : ∀ {depth v}, Ok depth v → (write v).length ≤ maxSize → ∃ ps : List Payload,
    write v = copies (ps.map (WireField.of num)) ∧ (∀ p ∈ ps, p.Sized) ∧
      ∀ v₀, ps.foldlM (fun v p => accepted (read depth v p)) v₀ = some (merge v₀ v)

/-! ## Scalars -/

theorem copies_of_len (num : Nat) (b : Bytes) :
    writeLen num b = copies ([Payload.len b].map (WireField.of num)) := by
  simp [copies, WireField.of, Payload.bytes, Payload.wireType, tagBytes, writeLen]

theorem writeLen_length {num : Nat} (hnum : num < 16) {b : Bytes} (hb : b.length ≤ maxSize) :
    (writeLen num b).length = 1 + lengthDelimitedSize b.length := by
  have htag := tagBytes_length hnum (show 2 < 8 by decide)
  rw [tagBytes] at htag
  rw [writeLen, List.length_append, List.length_append, htag, lengthDelimitedSize_eq hb]
  omega

/-- A field of type `bytes`. -/
def Slot.bytes (num : Nat) : Slot Bytes where
  num := num
  default := []
  read := fun _ _ p => match p with
    | .len b => some (true, b)
    | _ => none
  write := writeBytes num
  merge := fun v₀ v => if v = [] then v₀ else v
  size := fun v => if v = [] then 0 else 1 + lengthDelimitedSize v.length
  Ok := fun _ _ => True
  ok_default := fun _ => trivial
  ok_read := fun _ _ => trivial
  read_none := by
    intro depth v p h v'
    cases p with
    | len b => cases h
    | _ => rfl
  default_merge := by
    intro v
    split
    · rename_i h
      exact h.symm
    · rfl
  merge_default := fun _ => if_pos rfl
  merge_assoc := by
    intro v₁ v₂ v₃
    by_cases h₃ : v₃ = []
    · rw [if_pos h₃, if_pos h₃]
    · rw [if_neg h₃, if_neg h₃, if_neg h₃]
  size_eq := by
    intro hnum v hsize
    by_cases hv : v = []
    · rw [writeBytes, if_pos hv, if_pos hv, List.length_nil]
    · have hle := (length_le_writeBytes num v).trans hsize
      rw [writeBytes, if_neg hv, if_neg hv, writeLen_length hnum hle]
  written := by
    intro depth v _ hsize
    have hle := (length_le_writeBytes num v).trans hsize
    by_cases hv : v = []
    · refine ⟨[], ?_, fun p hp => absurd hp List.not_mem_nil, fun v₀ => ?_⟩
      · rw [writeBytes, if_pos hv]
        rfl
      · rw [if_pos hv]
        rfl
    · refine ⟨[.len v], ?_, fun p hp => ?_, fun v₀ => ?_⟩
      · rw [writeBytes, if_neg hv, copies_of_len]
      · rw [List.mem_singleton.mp hp]
        exact hle
      · rw [if_neg hv]
        rfl

/-- A field of an integer type of `w` bits, written as 64 bits. -/
def Slot.scalar {w : Nat} (extend : BitVec w → BitVec 64)
    (hextend : ∀ x, BitVec.ofNat w (extend x).toNat = x) (num : Nat) :
    Slot (BitVec w) where
  num := num
  default := 0
  read := fun _ _ p => match p with
    | .varint v => some (true, BitVec.ofNat w v)
    | _ => none
  write := fun x => if x = 0 then [] else tagBytes num 0 ++ writeVarint 10 (extend x).toNat
  merge := fun x₀ x => if x = 0 then x₀ else x
  size := fun x => if x = 0 then 0 else varintSizePlusOne (extend x).toNat
  Ok := fun _ _ => True
  ok_default := fun _ => trivial
  ok_read := fun _ _ => trivial
  read_none := by
    intro depth v p h v'
    cases p with
    | varint n => cases h
    | _ => rfl
  default_merge := by
    intro x
    split
    · rename_i h
      exact h.symm
    · rfl
  merge_default := fun _ => if_pos rfl
  merge_assoc := by
    intro x₁ x₂ x₃
    by_cases h₃ : x₃ = 0
    · rw [if_pos h₃, if_pos h₃]
    · rw [if_neg h₃, if_neg h₃, if_neg h₃]
  size_eq := by
    intro hnum x _
    by_cases hx : x = 0
    · rw [if_pos hx, if_pos hx, List.length_nil]
    · rw [if_neg hx, if_neg hx, varintSizePlusOne_eq (extend x).isLt, List.length_append,
        tagBytes_length hnum (by decide)]
  written := by
    intro depth x _ _
    by_cases hx : x = 0
    · refine ⟨[], ?_, fun p hp => absurd hp List.not_mem_nil, fun x₀ => ?_⟩
      · rw [if_pos hx]
        rfl
      · rw [if_pos hx]
        rfl
    · refine ⟨[.varint (extend x).toNat], ?_, fun p hp => ?_, fun x₀ => ?_⟩
      · rw [if_neg hx]
        simp [copies, WireField.of, Payload.bytes, Payload.wireType]
      · rw [List.mem_singleton.mp hp]
        exact (extend x).isLt
      · rw [if_neg hx, List.foldlM_cons]
        simp only [accepted, hextend]
        rfl

/-! ## Embedded messages -/

section
variable {μ : Type} (c : Codec μ)

/-- `ParseMessage`: a message takes one of the levels that are left. -/
def Codec.parseNested : Nat → μ → Bytes → Bool × μ
  | 0, m, _ => (false, m)
  | depth + 1, m, b => c.parse depth m b

/-- `InternalWriteMessage`: the length is the cached size, not that of the bytes
that follow. -/
def Codec.writeNested (num : Nat) (m : μ) : Bytes :=
  tagBytes num 2 ++ writeVarint 5 (c.byteSize m % 2 ^ 32) ++ c.serialize m

/-- A message that was parsed with a level to spare. -/
def Codec.OkNested : Nat → μ → Prop
  | 0, _ => False
  | depth + 1, m => c.Ok depth m

variable {c}

theorem Codec.okNested_parse {depth : Nat} {m m' : μ} {b : Bytes}
    (hm : m = c.empty ∨ c.OkNested depth m) (h : c.parseNested depth m b = (true, m')) :
    c.OkNested depth m' := by
  cases depth with
  | zero => cases h
  | succ depth =>
    refine c.ok_parse ?_ h
    rcases hm with rfl | hok
    · exact c.ok_empty depth
    · exact hok

/-- What is written of an embedded message merges it. -/
theorem Codec.parseNested_serialize {depth : Nat} {m : μ} (h : c.OkNested depth m)
    (hsize : (c.serialize m).length ≤ maxSize) (m₀ : μ) :
    c.parseNested depth m₀ (c.serialize m) = (true, c.mergeFrom m₀ m) := by
  cases depth with
  | zero => cases h
  | succ depth =>
    have hparse := c.parse_serialize h hsize m₀ []
    rw [List.append_nil, c.parse_nil] at hparse
    exact hparse

theorem Codec.length_le_writeNested (num : Nat) (m : μ) :
    (c.serialize m).length ≤ (c.writeNested num m).length := by
  rw [Codec.writeNested, List.length_append]
  exact Nat.le_add_left _ _

/-- The cached size is the length of what is written behind it. -/
theorem Codec.writeNested_eq (num : Nat) {m : μ} (hsize : (c.serialize m).length ≤ maxSize) :
    c.writeNested num m = writeLen num (c.serialize m) := by
  have hlt : (c.serialize m).length < 2 ^ 32 := hsize.trans_lt (by decide)
  rw [Codec.writeNested, writeLen, c.byteSize_eq hsize, Nat.mod_eq_of_lt hlt, tagBytes]

theorem Codec.writeNested_length {num : Nat} (hnum : num < 16) {m : μ}
    (hsize : (c.serialize m).length ≤ maxSize) :
    (c.writeNested num m).length = 1 + lengthDelimitedSize (c.byteSize m) := by
  rw [Codec.writeNested_eq num hsize, writeLen_length hnum hsize, c.byteSize_eq hsize]

/-- A message is parsed into the one that is there. -/
def Codec.readInto (c : Codec μ) (depth : Nat) (v : Option μ) : Payload → Option (Bool × Option μ)
  | .len b =>
    let (ok, m) := c.parseNested depth (v.getD c.empty) b
    some (ok, some m)
  | _ => none

theorem Codec.okNested_readInto {depth : Nat} {v v' : Option μ} {p : Payload}
    (hv : ∀ m, v = some m → c.OkNested depth m) (h : c.readInto depth v p = some (true, v')) :
    ∀ m, v' = some m → c.OkNested depth m := by
  intro m hm
  cases p with
  | len b =>
    cases hparse : c.parseNested depth (v.getD c.empty) b with
    | mk ok m' =>
      simp only [Codec.readInto, hparse, Option.some.injEq, Prod.mk.injEq] at h
      obtain ⟨rfl, rfl⟩ := h
      cases hm
      refine Codec.okNested_parse ?_ hparse
      cases v with
      | none => exact .inl rfl
      | some m => exact .inr (hv m rfl)
  | _ => cases h

/-- A field with at most one message. -/
def Slot.message (c : Codec μ) (num : Nat) : Slot (Option μ) where
  num := num
  default := none
  read := c.readInto
  write := fun v => match v with
    | none => []
    | some m => c.writeNested num m
  merge := fun v₀ v => match v with
    | none => v₀
    | some m => some (c.mergeFrom (v₀.getD c.empty) m)
  size := fun v => match v with
    | none => 0
    | some m => 1 + lengthDelimitedSize (c.byteSize m)
  Ok := fun depth v => ∀ m, v = some m → c.OkNested depth m
  ok_default := fun _ m hm => by cases hm
  ok_read := Codec.okNested_readInto
  read_none := by
    intro depth v p h v'
    cases p with
    | len b => cases h
    | _ => rfl
  default_merge := by
    intro v
    cases v with
    | none => rfl
    | some m => exact congrArg some (c.empty_mergeFrom m)
  merge_default := fun _ => rfl
  merge_assoc := by
    intro v₁ v₂ v₃
    cases v₃ with
    | none => rfl
    | some m₃ =>
      cases v₂ with
      | none => exact congrArg (fun m => some (c.mergeFrom _ m)) (c.empty_mergeFrom m₃).symm
      | some m₂ => exact congrArg some (c.mergeFrom_assoc _ m₂ m₃)
  size_eq := by
    intro hnum v hsize
    cases v with
    | none => rfl
    | some m => exact (Codec.writeNested_length hnum
        ((Codec.length_le_writeNested num m).trans hsize)).symm
  written := by
    intro depth v hok hsize
    cases v with
    | none => exact ⟨[], rfl, fun p hp => absurd hp List.not_mem_nil, fun v₀ => rfl⟩
    | some m =>
      have hle := (Codec.length_le_writeNested num m).trans hsize
      refine ⟨[.len (c.serialize m)], ?_, fun p hp => ?_, fun v₀ => ?_⟩
      · rw [← copies_of_len]
        exact Codec.writeNested_eq num hle
      · rw [List.mem_singleton.mp hp]
        exact hle
      · rw [List.foldlM_cons]
        simp only [Codec.readInto, Codec.parseNested_serialize (hok m rfl) hle, accepted]
        rfl

/-- A message is added to a list before it is parsed. -/
def Codec.readAdded (c : Codec μ) (depth : Nat) (v : List μ) : Payload → Option (Bool × List μ)
  | .len b =>
    let (ok, m) := c.parseNested depth c.empty b
    some (ok, v ++ [m])
  | _ => none

theorem Codec.okNested_readAdded {depth : Nat} {v v' : List μ} {p : Payload}
    (hv : ∀ m ∈ v, c.OkNested depth m) (h : c.readAdded depth v p = some (true, v')) :
    ∀ m ∈ v', c.OkNested depth m := by
  intro m hm
  cases p with
  | len b =>
    cases hparse : c.parseNested depth c.empty b with
    | mk ok m' =>
      simp only [Codec.readAdded, hparse, Option.some.injEq, Prod.mk.injEq] at h
      obtain ⟨rfl, rfl⟩ := h
      rcases List.mem_append.mp hm with hm | hm
      · exact hv m hm
      · rw [List.mem_singleton.mp hm]
        exact Codec.okNested_parse (.inl rfl) hparse
  | _ => cases h

theorem Codec.readAdded_serialize {depth : Nat} {v : List μ}
    (hok : ∀ m ∈ v, c.OkNested depth m) (hsize : ∀ m ∈ v, (c.serialize m).length ≤ maxSize)
    (v₀ : List μ) :
    (v.map fun m => Payload.len (c.serialize m)).foldlM
      (fun v p => accepted (c.readAdded depth v p)) v₀ =
      some (v₀ ++ v.map (c.mergeFrom c.empty)) := by
  induction v generalizing v₀ with
  | nil => exact congrArg some (List.append_nil v₀).symm
  | cons m v ih =>
    obtain ⟨hokm, hokv⟩ := List.forall_mem_cons.mp hok
    obtain ⟨hm, hv⟩ := List.forall_mem_cons.mp hsize
    have hread : accepted (c.readAdded depth v₀ (.len (c.serialize m))) =
        some (v₀ ++ [c.mergeFrom c.empty m]) := by
      rw [Codec.readAdded, Codec.parseNested_serialize hokm hm, accepted]
    rw [List.map_cons, List.foldlM_cons, hread, List.map_cons,
      List.append_cons v₀ _ (v.map (c.mergeFrom c.empty))]
    exact ih hokv hv _

theorem Codec.length_le_flatMap {num : Nat} {v : List μ} {m : μ} (hm : m ∈ v) :
    (c.serialize m).length ≤ (v.flatMap (c.writeNested num)).length := by
  obtain ⟨before, after, rfl⟩ := List.append_of_mem hm
  have hle := Codec.length_le_writeNested (c := c) num m
  simp only [List.flatMap_append, List.flatMap_cons, List.length_append]
  omega

theorem Codec.flatMap_writeNested (num : Nat) {v : List μ}
    (hsize : ∀ m ∈ v, (c.serialize m).length ≤ maxSize) :
    v.flatMap (c.writeNested num) =
      copies ((v.map fun m => Payload.len (c.serialize m)).map (WireField.of num)) := by
  induction v with
  | nil => rfl
  | cons m v ih =>
    obtain ⟨hm, hv⟩ := List.forall_mem_cons.mp hsize
    rw [List.flatMap_cons, Codec.writeNested_eq num hm, copies_of_len, ih hv, ← copies_append]
    rfl

/-- A field with any number of messages. -/
def Slot.repeated (c : Codec μ) (num : Nat) : Slot (List μ) where
  num := num
  default := []
  read := c.readAdded
  write := fun v => v.flatMap (c.writeNested num)
  merge := fun v₀ v => v₀ ++ v.map (c.mergeFrom c.empty)
  size := fun v => v.length + (v.map fun m => lengthDelimitedSize (c.byteSize m)).sum
  Ok := fun depth v => ∀ m ∈ v, c.OkNested depth m
  ok_default := fun _ m hm => absurd hm List.not_mem_nil
  ok_read := Codec.okNested_readAdded
  read_none := by
    intro depth v p h v'
    cases p with
    | len b => cases h
    | _ => rfl
  default_merge := by
    intro v
    rw [List.nil_append, funext c.empty_mergeFrom]
    exact List.map_id' v
  merge_default := fun v => List.append_nil v
  merge_assoc := by
    intro v₁ v₂ v₃
    rw [funext c.empty_mergeFrom, List.map_id', List.map_id', List.map_id', List.append_assoc]
  size_eq := by
    intro hnum v hsize
    induction v with
    | nil => rfl
    | cons m v ih =>
      rw [List.flatMap_cons, List.length_append] at hsize
      have hle := Codec.length_le_writeNested (c := c) num m
      have hm := Codec.writeNested_length (c := c) hnum (m := m) (by omega)
      have hv := ih (by omega)
      rw [List.flatMap_cons, List.length_append, hm, ← hv, List.length_cons, List.map_cons,
        List.sum_cons]
      omega
  written := by
    intro depth v hok hsize
    have hle : ∀ m ∈ v, (c.serialize m).length ≤ maxSize := fun m hm =>
      (Codec.length_le_flatMap hm).trans hsize
    refine ⟨v.map fun m => .len (c.serialize m), Codec.flatMap_writeNested num hle, ?_,
      Codec.readAdded_serialize hok hle⟩
    intro p hp
    obtain ⟨m, hm, rfl⟩ := List.mem_map.mp hp
    exact hle m hm

end

/-! ## Whole messages -/

section
variable {μ : Type} {c : Codec μ} {depth : Nat}

/-- What is written of a message parses to the message. -/
theorem Codec.parse_own {m : μ} (hok : c.Ok depth m) (hsize : (c.serialize m).length ≤ maxSize) :
    c.parse depth c.empty (c.serialize m) = (true, m) := by
  have hparse := c.parse_serialize hok hsize c.empty []
  rwa [List.append_nil, c.empty_mergeFrom, c.parse_nil] at hparse

/-- Messages that are written one after the other are merged. -/
theorem Codec.parse_flatMap {ms : List μ} (hok : ∀ m ∈ ms, c.Ok depth m)
    (hsize : ∀ m ∈ ms, (c.serialize m).length ≤ maxSize) (m₀ : μ) :
    c.parse depth m₀ (ms.flatMap c.serialize) = (true, ms.foldl c.mergeFrom m₀) := by
  induction ms generalizing m₀ with
  | nil => exact c.parse_nil depth m₀
  | cons m ms ih =>
    obtain ⟨hokm, hokms⟩ := List.forall_mem_cons.mp hok
    obtain ⟨hm, hms⟩ := List.forall_mem_cons.mp hsize
    rw [List.flatMap_cons, c.parse_serialize hokm hm, ih hokms hms, List.foldl_cons]

end

/-! ## The fields of a message class -/

inductive Fields : Type → Type 1
  | nil : Fields Unit
  | cons {α ρ : Type} (s : Slot α) (fs : Fields ρ) : Fields (α × ρ)

namespace Fields

def nums {ρ : Type} : Fields ρ → List Nat
  | nil => []
  | cons s fs => s.num :: fs.nums

/-- Numbers of their own, with tags of one byte. -/
def Numbered {ρ : Type} (fs : Fields ρ) : Prop :=
  fs.nums.Nodup ∧ ∀ num ∈ fs.nums, 0 < num ∧ num < 16

instance {ρ : Type} (fs : Fields ρ) : Decidable fs.Numbered := inferInstanceAs (Decidable (_ ∧ _))

def default {ρ : Type} : Fields ρ → ρ
  | nil => ()
  | cons s fs => (s.default, fs.default)

/-- The field is read into the slot with its number, when that takes it. -/
def read {ρ : Type} (depth : Nat) : Fields ρ → ρ → WireField → Option (Bool × ρ)
  | nil, _, _ => none
  | cons s fs, (v, r), f =>
    if f.num = s.num then (s.read depth v f.payload).map fun (ok, v) => (ok, (v, r))
    else (fs.read depth r f).map fun (ok, r) => (ok, (v, r))

def write {ρ : Type} : Fields ρ → ρ → Bytes
  | nil, _ => []
  | cons s fs, (v, r) => s.write v ++ fs.write r

def merge {ρ : Type} : Fields ρ → ρ → ρ → ρ
  | nil, _, _ => ()
  | cons s fs, (v₀, r₀), (v, r) => (s.merge v₀ v, fs.merge r₀ r)

def size {ρ : Type} : Fields ρ → ρ → Nat
  | nil, _ => 0
  | cons s fs, (v, r) => s.size v + fs.size r

def Ok {ρ : Type} (depth : Nat) : Fields ρ → ρ → Prop
  | nil, _ => True
  | cons s fs, (v, r) => s.Ok depth v ∧ fs.Ok depth r

section
variable {ρ : Type} {depth : Nat}

theorem Numbered.of_cons {α : Type} {s : Slot α} {fs : Fields ρ} (h : (cons s fs).Numbered) :
    (0 < s.num ∧ s.num < 16) ∧ fs.Numbered := by
  obtain ⟨hnodup, hbounds⟩ := h
  obtain ⟨hnum, hnums⟩ := List.forall_mem_cons.mp hbounds
  exact ⟨hnum, (List.nodup_cons.mp hnodup).2, hnums⟩

theorem ok_default (fs : Fields ρ) : fs.Ok depth fs.default := by
  induction fs with
  | nil => trivial
  | cons s fs ih => exact ⟨s.ok_default depth, ih⟩

theorem default_merge (fs : Fields ρ) (r : ρ) : fs.merge fs.default r = r := by
  induction fs with
  | nil => rfl
  | cons s fs ih =>
    obtain ⟨v, r⟩ := r
    rw [merge, default, s.default_merge, ih]

theorem merge_default (fs : Fields ρ) (r : ρ) : fs.merge r fs.default = r := by
  induction fs with
  | nil => rfl
  | cons s fs ih =>
    obtain ⟨v, r⟩ := r
    rw [merge, default, s.merge_default, ih]

theorem merge_assoc (fs : Fields ρ) (r₁ r₂ r₃ : ρ) :
    fs.merge (fs.merge r₁ r₂) r₃ = fs.merge r₁ (fs.merge r₂ r₃) := by
  induction fs with
  | nil => rfl
  | cons s fs ih =>
    obtain ⟨v₁, r₁⟩ := r₁
    obtain ⟨v₂, r₂⟩ := r₂
    obtain ⟨v₃, r₃⟩ := r₃
    simp only [merge, s.merge_assoc, ih]

theorem size_eq (fs : Fields ρ) (hnums : fs.Numbered) {r : ρ}
    (h : (fs.write r).length ≤ maxSize) : fs.size r = (fs.write r).length := by
  induction fs with
  | nil => rfl
  | cons s fs ih =>
    obtain ⟨v, r⟩ := r
    obtain ⟨⟨-, hlt⟩, hnums⟩ := hnums.of_cons
    rw [write, List.length_append] at h
    rw [size, write, List.length_append, s.size_eq hlt (by omega), ih hnums (by omega)]

theorem ok_read (fs : Fields ρ) {r r' : ρ} {f : WireField} (hok : fs.Ok depth r)
    (h : fs.read depth r f = some (true, r')) : fs.Ok depth r' := by
  induction fs with
  | nil => cases h
  | cons s fs ih =>
    obtain ⟨v, r⟩ := r
    obtain ⟨hv, hr⟩ := hok
    rw [read] at h
    split at h
    · obtain ⟨⟨ok, v'⟩, hread, heq⟩ := Option.map_eq_some_iff.mp h
      cases heq
      exact ⟨s.ok_read hv hread, hr⟩
    · obtain ⟨⟨ok, r'⟩, hread, heq⟩ := Option.map_eq_some_iff.mp h
      cases heq
      exact ⟨hv, ih hr hread⟩

theorem read_of {α : Type} {s : Slot α} {fs : Fields ρ} {v : α} {r : ρ} (p : Payload) :
    (cons s fs).read depth (v, r) (.of s.num p) =
      (s.read depth v p).map fun (ok, v) => (ok, (v, r)) := by
  rw [read]
  exact if_pos rfl

theorem read_other {α : Type} {s : Slot α} {fs : Fields ρ} {v : α} {r : ρ} {f : WireField}
    (h : f.num ≠ s.num) :
    (cons s fs).read depth (v, r) f = (fs.read depth r f).map fun (ok, r) => (ok, (v, r)) := by
  rw [read, if_neg h]

/-- Whether a field is unknown does not depend on what was read before. -/
theorem read_none (fs : Fields ρ) {r : ρ} {f : WireField} (h : fs.read depth r f = none) (r' : ρ) :
    fs.read depth r' f = none := by
  induction fs with
  | nil => rfl
  | cons s fs ih =>
    obtain ⟨v, r⟩ := r
    obtain ⟨v', r'⟩ := r'
    rw [read] at h ⊢
    split at h
    · rename_i hnum
      rw [if_pos hnum, s.read_none (Option.map_eq_none_iff.mp h)]
      rfl
    · rename_i hnum
      rw [if_neg hnum, ih (Option.map_eq_none_iff.mp h)]
      rfl

/-- What the slots write are fields that they read, each into its own slot. -/
theorem written (fs : Fields ρ) (hnums : fs.Numbered) {r : ρ} (hok : fs.Ok depth r)
    (hsize : (fs.write r).length ≤ maxSize) : ∃ ws : List WireField,
    fs.write r = copies ws ∧ (∀ w ∈ ws, w.num ∈ fs.nums ∧ Canonical depth w) ∧
      ∀ r₀, ws.foldlM (fun r w => accepted (fs.read depth r w)) r₀ = some (fs.merge r₀ r) := by
  induction fs with
  | nil => exact ⟨[], rfl, fun w hw => absurd hw List.not_mem_nil, fun r₀ => rfl⟩
  | cons s fs ih =>
    obtain ⟨v, r⟩ := r
    obtain ⟨hv, hr⟩ := hok
    have hfresh : s.num ∉ fs.nums := (List.nodup_cons.mp hnums.1).1
    obtain ⟨⟨hpos, hlt⟩, hnums⟩ := hnums.of_cons
    rw [write, List.length_append] at hsize
    obtain ⟨ps, hps, hsized, hslot⟩ := s.written hv (by omega)
    obtain ⟨ws, hws, hmem, hrest⟩ := ih hnums hr (by omega)
    refine ⟨ps.map (WireField.of s.num) ++ ws, ?_, ?_, ?_⟩
    · rw [write, hps, hws, copies_append]
    · intro w hw
      rcases List.mem_append.mp hw with hw | hw
      · obtain ⟨p, hp, rfl⟩ := List.mem_map.mp hw
        exact ⟨List.mem_cons_self, canonical_of ⟨hpos, by omega⟩ (hsized p hp)⟩
      · exact ⟨List.mem_cons_of_mem _ (hmem w hw).1, (hmem w hw).2⟩
    · rintro ⟨v₀, r₀⟩
      have hown : ∀ v v', ∀ p ∈ ps, accepted (s.read depth v p) = some v' →
          accepted ((cons s fs).read depth (v, r₀) (.of s.num p)) = some (v', r₀) := by
        intro v v' p _ hstep
        rw [accepted_eq_some] at hstep ⊢
        rw [read_of, hstep]
        rfl
      have hother : ∀ r r', ∀ w ∈ ws, accepted (fs.read depth r w) = some r' →
          accepted ((cons s fs).read depth (s.merge v₀ v, r) w) = some (s.merge v₀ v, r') := by
        intro r r' w hw hstep
        have hne : w.num ≠ s.num := fun h => hfresh (h ▸ (hmem w hw).1)
        rw [accepted_eq_some] at hstep ⊢
        rw [read_other hne, hstep]
        rfl
      rw [List.foldlM_append, List.foldlM_map, foldlM_view _ (fun v => (v, r₀)) hown (hslot v₀)]
      exact foldlM_view _ (fun r => (s.merge v₀ v, r)) hother (hrest r₀)

end

end Fields

/-! ## Classes from their fields -/

/-- The fields of a message with the fields that are kept as bytes. -/
def Fields.onField {ρ : Type} (fs : Fields ρ) (depth : Nat) :
    ρ × Bytes → WireField → Bool × (ρ × Bytes)
  | (r, unknown), f =>
    match fs.read depth r f with
    | some (ok, r) => (ok, (r, unknown))
    | none => (true, (r, unknown ++ f.copy))

/-- The bytes that unknown fields are kept as. -/
def Fields.UnknownBytes {ρ : Type} (depth : Nat) (fs : Fields ρ) (unknown : Bytes) : Prop :=
  ∃ us : List WireField, unknown = copies us ∧
    ∀ f ∈ us, Canonical depth f ∧ ∀ r, fs.read depth r f = none

section
variable {ρ : Type} {fs : Fields ρ} {depth : Nat}

theorem foldFields_known {ws : List WireField} {r r' : ρ}
    (h : ws.foldlM (fun r w => accepted (fs.read depth r w)) r = some r') (unknown : Bytes) :
    foldFields (fs.onField depth) (r, unknown) ws = (true, (r', unknown)) := by
  induction ws generalizing r with
  | nil =>
    cases h
    rfl
  | cons w ws ih =>
    rw [List.foldlM_cons] at h
    obtain ⟨r₁, hread, hrest⟩ := Option.bind_eq_some_iff.mp h
    rw [foldFields, Fields.onField, accepted_eq_some.mp hread]
    exact ih hrest

theorem foldFields_unknown {us : List WireField}
    (h : ∀ f ∈ us, ∀ r, fs.read depth r f = none) (r : ρ) (unknown : Bytes) :
    foldFields (fs.onField depth) (r, unknown) us = (true, (r, unknown ++ copies us)) := by
  induction us generalizing unknown with
  | nil =>
    rw [copies_nil, List.append_nil]
    rfl
  | cons f us ih =>
    obtain ⟨hf, hus⟩ := List.forall_mem_cons.mp h
    rw [foldFields, Fields.onField, hf r]
    simp only
    rw [ih hus, copies_cons, List.append_assoc]

theorem Fields.unknownBytes_nil : fs.UnknownBytes depth [] :=
  ⟨[], rfl, fun _ hf => absurd hf List.not_mem_nil⟩

/-- A message that is read keeps what its fields promise. -/
theorem Fields.ok_onField {r r' : ρ} {unknown unknown' : Bytes} {f : WireField}
    (hf : Canonical depth f) (hok : fs.Ok depth r ∧ fs.UnknownBytes depth unknown)
    (h : fs.onField depth (r, unknown) f = (true, (r', unknown'))) :
    fs.Ok depth r' ∧ fs.UnknownBytes depth unknown' := by
  obtain ⟨hr, hunknown⟩ := hok
  rw [Fields.onField] at h
  split at h
  · rename_i hread
    cases h
    exact ⟨fs.ok_read hr hread, hunknown⟩
  · rename_i hread
    cases h
    obtain ⟨us, rfl, hus⟩ := hunknown
    refine ⟨hr, us ++ [f], by simp, fun g hg => ?_⟩
    rcases List.mem_append.mp hg with hg | hg
    · exact hus g hg
    · rw [List.mem_singleton.mp hg]
      exact ⟨hf, fs.read_none hread⟩

end

section
variable {μ ρ : Type} (e : μ ≃ ρ × Bytes) (fs : Fields ρ)

/-- `_InternalParse`. -/
def Fields.parse (depth : Nat) (m : μ) (bs : Bytes) : Bool × μ :=
  let (ok, r) := parseFrom depth (fs.onField depth) (e m) bs
  (ok, e.symm r)

/-- `_InternalSerialize`: unknown fields come last. -/
def Fields.serialize (m : μ) : Bytes := fs.write (e m).1 ++ (e m).2

/-- `MergeFrom`. -/
def Fields.mergeFrom (m₀ m : μ) : μ :=
  e.symm (fs.merge (e m₀).1 (e m).1, (e m₀).2 ++ (e m).2)

/-- `ByteSizeLong`. -/
def Fields.byteSize (m : μ) : Nat := fs.size (e m).1 + (e m).2.length

variable {e fs} {depth : Nat} {m m' : μ}

theorem Fields.parse_eq_true {bs : Bytes} (h : fs.parse e depth m bs = (true, m')) :
    foldFields (fs.onField depth) (e m) (fieldsIn depth bs).1 = (true, e m') := by
  rw [Fields.parse] at h
  cases hr : foldFields (fs.onField depth) (e m) (fieldsIn depth bs).1 with
  | mk ok r =>
    rw [parseFrom, hr] at h
    cases ok with
    | false => cases h
    | true =>
      have heq : e.symm r = m' := congrArg Prod.snd h
      rw [← heq, Equiv.apply_symm_apply]

/-- A handler that keeps some of the fields of a class sees what the class does. -/
theorem Fields.parse_view {ν : Type} {onField : ν → Nat → Payload → Bool × ν} (view : μ → ν)
    (hview : ∀ r f, onField (view (e.symm r)) f.num f.payload =
      ((fs.onField depth r f).1, view (e.symm (fs.onField depth r f).2))) (m : μ) (bs : Bytes) :
    parseMessage depth onField (view m) bs =
      ((fs.parse e depth m bs).1, view (fs.parse e depth m bs).2) := by
  have hmap : parseFrom depth (fun m f => onField m f.num f.payload) (view (e.symm (e m))) bs =
      _ := parseFrom_map (fun r => view (e.symm r)) hview (e m) bs
  rw [Equiv.symm_apply_apply] at hmap
  rw [parseMessage_eq, hmap]
  rfl

end

/-- The class of the messages with these fields, which have numbers of their own. -/
def Codec.ofFields {μ ρ : Type} (e : μ ≃ ρ × Bytes) (fs : Fields ρ) (hnums : fs.Numbered) :
    Codec μ where
  empty := e.symm (fs.default, [])
  parse := fs.parse e
  serialize := fs.serialize e
  mergeFrom := fs.mergeFrom e
  byteSize := fs.byteSize e
  Ok := fun depth m => fs.Ok depth (e m).1 ∧ fs.UnknownBytes depth (e m).2
  ok_empty := by
    intro depth
    rw [Equiv.apply_symm_apply]
    exact ⟨fs.ok_default, Fields.unknownBytes_nil⟩
  ok_parse := by
    intro depth m m' bs hok h
    exact foldFields_keeps (P := fun r => fs.Ok depth r.1 ∧ fs.UnknownBytes depth r.2)
      (fun r r' f hf hr hstep => Fields.ok_onField (canonical_of_fieldsIn hf) hr hstep) hok
      (Fields.parse_eq_true h)
  empty_mergeFrom := by
    intro m
    rw [Fields.mergeFrom, Equiv.apply_symm_apply, fs.default_merge, List.nil_append]
    exact e.symm_apply_apply m
  mergeFrom_empty := by
    intro m
    rw [Fields.mergeFrom, Equiv.apply_symm_apply, fs.merge_default, List.append_nil]
    exact e.symm_apply_apply m
  mergeFrom_assoc := by
    intro m₁ m₂ m₃
    simp only [Fields.mergeFrom, Equiv.apply_symm_apply, fs.merge_assoc, List.append_assoc]
  parse_nil := by
    intro depth m
    exact congrArg (Prod.mk true) (e.symm_apply_apply m)
  parse_serialize := by
    intro depth m hok hsize m₀ rest
    obtain ⟨hr, us, hunknown, hus⟩ := hok
    rw [Fields.serialize, List.length_append] at hsize
    obtain ⟨ws, hws, hmem, hfold⟩ := fs.written hnums hr (by omega)
    have hcanonical : ∀ f ∈ ws ++ us, Canonical depth f := by
      intro f hf
      rcases List.mem_append.mp hf with hf | hf
      · exact (hmem f hf).2
      · exact (hus f hf).1
    have hfields : foldFields (fs.onField depth) (e m₀) (ws ++ us) =
        (true, e (fs.mergeFrom e m₀ m)) := by
      rw [foldFields_append (foldFields_known (hfold (e m₀).1) (e m₀).2),
        foldFields_unknown fun f hf => (hus f hf).2, Fields.mergeFrom, Equiv.apply_symm_apply,
        hunknown]
    rw [Fields.serialize, hws, hunknown, ← copies_append, Fields.parse,
      parseFrom_copies hcanonical hfields]
    rfl
  byteSize_eq := by
    intro m hsize
    rw [Fields.serialize, List.length_append] at hsize
    rw [Fields.byteSize, Fields.serialize, List.length_append, fs.size_eq hnums (by omega)]

end Cpe.Lib.ProtoCodec
