import Cpe.Lib.ProtoWire

/-! # The fields of a protobuf message

A message is cut into its fields first, each with the bytes it is kept as when
its number is unknown. These bytes are its canonical form: they are read as the
same field again, and a message of canonical fields is cut into just these. -/
namespace Cpe.Lib.ProtoWire
open Cpe.Lib.ByteOrder

/-! ## Payloads -/

def Payload.wireType : Payload → Nat
  | .varint _ => 0
  | .i64 _ => 1
  | .len _ => 2
  | .group => 3
  | .i32 _ => 5

/-- A payload as it is written. What is in a group is not in the payload. -/
def Payload.bytes : Payload → Bytes
  | .varint v => writeVarint 10 v
  | .len b => writeVarint 5 b.length ++ b
  | .i64 b | .i32 b => b
  | .group => []

/-- The payloads that are read for a wire type. -/
def Payload.Sized : Payload → Prop
  | .varint v => v < 2 ^ 64
  | .i64 b => b.length = 8
  | .len b => b.length ≤ maxSize
  | .i32 b => b.length = 4
  | .group => False

theorem takeBytes_sound {n : Nat} {bs b rest : Bytes} (h : takeBytes n bs = some (b, rest)) :
    b.length = n ∧ bs = b ++ rest := by
  unfold takeBytes at h
  split at h
  · rename_i hle
    cases h
    exact ⟨List.length_take_of_le hle, (List.take_append_drop n bs).symm⟩
  · cases h

theorem takeBytes_append (b rest : Bytes) : takeBytes b.length (b ++ rest) = some (b, rest) := by
  simp [takeBytes]

theorem readPayload_sound {wireType : Nat} {bs rest : Bytes} {v : Payload}
    (h : readPayload wireType bs = some (v, rest)) : v.wireType = wireType ∧ v.Sized := by
  unfold readPayload at h
  split at h
  · rename_i htype
    obtain ⟨r, _, heq⟩ := Option.map_eq_some_iff.mp h
    cases heq
    exact ⟨htype.symm, Nat.mod_lt _ (Nat.two_pow_pos 64)⟩
  split at h
  · rename_i htype
    obtain ⟨r, hr, heq⟩ := Option.map_eq_some_iff.mp h
    cases heq
    exact ⟨htype.symm, (takeBytes_sound hr).1⟩
  split at h
  · rename_i htype
    obtain ⟨⟨n, bs'⟩, _, h⟩ := Option.bind_eq_some_iff.mp h
    simp only at h
    split at h
    · rename_i hle
      obtain ⟨r, hr, heq⟩ := Option.map_eq_some_iff.mp h
      cases heq
      exact ⟨htype.symm, (takeBytes_sound hr).1.trans_le hle⟩
    · cases h
  split at h
  · rename_i htype
    obtain ⟨r, hr, heq⟩ := Option.map_eq_some_iff.mp h
    cases heq
    exact ⟨htype.symm, (takeBytes_sound hr).1⟩
  · cases h

/-- A payload reads back, whatever follows it. -/
theorem readPayload_bytes {v : Payload} (h : v.Sized) (rest : Bytes) :
    readPayload v.wireType (v.bytes ++ rest) = some (v, rest) := by
  cases v with
  | varint v =>
    have hlt : v < 2 ^ 64 := h
    rw [Payload.wireType, Payload.bytes, readPayload, if_pos rfl,
      readVarint_writeVarint (by omega), Option.map_some, Nat.mod_eq_of_lt hlt]
  | i64 b =>
    have hlen : b.length = 8 := h
    have htake := takeBytes_append b rest
    rw [hlen] at htake
    rw [Payload.wireType, Payload.bytes, readPayload, if_neg (by decide), if_pos rfl, htake,
      Option.map_some]
  | len b =>
    have hle : b.length ≤ maxSize := h
    have hlen := readVarint_writeVarint (k := 4) (v := b.length)
      (by unfold maxSize at hle; omega) (b ++ rest)
    rw [Payload.wireType, Payload.bytes, readPayload, if_neg (by decide), if_neg (by decide),
      if_pos rfl, List.append_assoc, hlen]
    simp only [Option.bind_eq_bind, Option.bind_some, hle, if_true, takeBytes_append,
      Option.map_some]
  | group => cases h
  | i32 b =>
    have hlen : b.length = 4 := h
    have htake := takeBytes_append b rest
    rw [hlen] at htake
    rw [Payload.wireType, Payload.bytes, readPayload, if_neg (by decide), if_neg (by decide),
      if_neg (by decide), if_pos rfl, htake, Option.map_some]

/-! ## Fields with copies -/

/-- A field with the bytes it is kept as. -/
structure WireField where
  num : Nat
  payload : Payload
  copy : Bytes

def tagBytes (num wireType : Nat) : Bytes := writeVarint 5 (8 * num + wireType)

/-- A field outside of groups, as it is written. -/
def WireField.of (num : Nat) (v : Payload) : WireField :=
  ⟨num, v, tagBytes num v.wireType ++ v.bytes⟩

/-- A field or a mark in a group, the innermost of those that are open: the
groups that are open behind it, its copy, and what follows. -/
def groupStep (depth n : Nat) (opened : List Nat) (bs : Bytes) :
    Option (List Nat × Bytes × Bytes) := do
  let (tag, bs) ← readVarint 5 bs
  let num := tag % 2 ^ 32 / 8
  if num = 0 then none
  else if tag % 8 = 4 then if num = n then some (opened, tagBytes num 4, bs) else none
  else if tag % 8 = 3 then
    if opened.length + 2 ≤ depth then some (num :: n :: opened, tagBytes num 3, bs) else none
  else (readPayload (tag % 8) bs).map fun r => (n :: opened, (WireField.of num r.1).copy, r.2)

/-- Copies to the end of the outermost of the open groups, with its end mark. -/
def copyGroup (depth : Nat) : Nat → List Nat → Bytes → Option (Bytes × Bytes)
  | _, [], bs => some ([], bs)
  | 0, _ :: _, _ => none
  | tags + 1, n :: opened, bs => do
    let (opened, copy, bs) ← groupStep depth n opened bs
    (copyGroup depth tags opened bs).map fun r => (copy ++ r.1, r.2)

/-- One field with its copy, and what follows. -/
def readCopy (depth : Nat) (bs : Bytes) : Option (WireField × Bytes) := do
  let (tag, bs) ← readVarint 5 bs
  let num := tag % 2 ^ 32 / 8
  if num = 0 then none
  else if tag % 8 = 3 then
    if 1 ≤ depth then
      (copyGroup depth bs.length [num] bs).map fun r => (⟨num, .group, tagBytes num 3 ++ r.1⟩, r.2)
    else none
  else (readPayload (tag % 8) bs).map fun r => (.of num r.1, r.2)

/-- Skipping takes the same steps. -/
theorem skipGroup_step (depth tags n : Nat) (opened : List Nat) (bs : Bytes) :
    skipGroup depth (tags + 1) (n :: opened) bs =
      (groupStep depth n opened bs).bind fun r => skipGroup depth tags r.1 r.2.2 := by
  rw [skipGroup, groupStep]
  cases readVarint 5 bs with
  | none => rfl
  | some r =>
    obtain ⟨tag, bs⟩ := r
    simp only [Option.bind_eq_bind, Option.bind_some]
    split
    · rfl
    split
    · split <;> rfl
    split
    · split <;> rfl
    · cases readPayload (tag % 8) bs <;> rfl

/-- A copy is made of what is skipped. -/
theorem copyGroup_snd (depth tags : Nat) (opened : List Nat) (bs : Bytes) :
    (copyGroup depth tags opened bs).map Prod.snd = skipGroup depth tags opened bs := by
  induction tags generalizing opened bs with
  | zero => cases opened <;> rfl
  | succ tags ih =>
    cases opened with
    | nil => rfl
    | cons n opened =>
      rw [copyGroup, skipGroup_step]
      cases groupStep depth n opened bs with
      | none => rfl
      | some r =>
        simp only [Option.bind_eq_bind, Option.bind_some]
        rw [← ih, Option.map_map]
        rfl

theorem readCopy_field (depth : Nat) (bs : Bytes) :
    (readCopy depth bs).map (fun r => ((r.1.num, r.1.payload), r.2)) = readField depth bs := by
  unfold readCopy readField
  cases readVarint 5 bs with
  | none => rfl
  | some r =>
    obtain ⟨tag, bs⟩ := r
    simp only [Option.bind_eq_bind, Option.bind_some]
    split
    · rfl
    split
    · split
      · rw [← copyGroup_snd, Option.map_map, Option.map_map]
        rfl
      · rfl
    · rw [Option.map_map]
      rfl

theorem readCopy_length {depth : Nat} {bs rest : Bytes} {f : WireField}
    (h : readCopy depth bs = some (f, rest)) : rest.length < bs.length := by
  have hfield := readCopy_field depth bs
  rw [h] at hfield
  exact readField_length hfield.symm

/-! ## Copies read back -/

theorem readVarint_tagBytes {num wireType : Nat} (hnum : num < 2 ^ 29) (htype : wireType < 8)
    (rest : Bytes) :
    readVarint 5 (tagBytes num wireType ++ rest) = some (8 * num + wireType, rest) :=
  readVarint_writeVarint (by omega) rest

/-- The number and the wire type of a tag as it is written. -/
theorem tag_split {num wireType : Nat} (hnum : num < 2 ^ 29) (htype : wireType < 8) :
    (8 * num + wireType) % 2 ^ 32 / 8 = num ∧ (8 * num + wireType) % 8 = wireType := by
  omega

theorem tag_num_lt (tag : Nat) : tag % 2 ^ 32 / 8 < 2 ^ 29 := by
  omega

theorem Payload.Sized.wireType {v : Payload} (h : v.Sized) :
    v.wireType < 8 ∧ v.wireType ≠ 3 ∧ v.wireType ≠ 4 := by
  cases v with
  | group => cases h
  | _ => simp [Payload.wireType]

section
variable {depth : Nat}

/-- A field reads back as it is written. -/
theorem readCopy_of {num : Nat} (hnum : FieldNumber num) {v : Payload} (h : v.Sized)
    (rest : Bytes) :
    readCopy depth ((WireField.of num v).copy ++ rest) = some (.of num v, rest) := by
  obtain ⟨hpos, hlt⟩ := hnum
  obtain ⟨htype, hgroup, _⟩ := h.wireType
  obtain ⟨hsplit, hwire⟩ := tag_split hlt htype
  rw [readCopy, WireField.of, List.append_assoc, readVarint_tagBytes hlt htype]
  simp only [Option.bind_eq_bind, Option.bind_some, hsplit, hwire]
  rw [if_neg (by omega), if_neg hgroup, readPayload_bytes h, Option.map_some]
  rfl

/-- What one step copies it reads in the same way. -/
theorem groupStep_copy {n : Nat} {opened opened' : List Nat} {bs copy rest : Bytes}
    (h : groupStep depth n opened bs = some (opened', copy, rest)) (more : Bytes) :
    groupStep depth n opened (copy ++ more) = some (opened', copy, more) := by
  rw [groupStep] at h
  obtain ⟨⟨tag, bs'⟩, _, h⟩ := Option.bind_eq_some_iff.mp h
  have hlt := tag_num_lt tag
  simp only at h
  split at h
  · cases h
  rename_i hnum
  split at h
  · split at h
    · rename_i hn
      cases h
      obtain ⟨hsplit, htype⟩ := tag_split hlt (show 4 < 8 by decide)
      rw [← hn, groupStep, readVarint_tagBytes hlt (by decide)]
      simp only [Option.bind_eq_bind, Option.bind_some, hsplit, htype, hnum, if_true, if_false]
    · cases h
  split at h
  · split at h
    · rename_i hdepth
      cases h
      obtain ⟨hsplit, htype⟩ := tag_split hlt (show 3 < 8 by decide)
      rw [groupStep, readVarint_tagBytes hlt (by decide)]
      simp only [Option.bind_eq_bind, Option.bind_some, hsplit, htype, hnum, hdepth, if_true,
        if_false]
      rfl
    · cases h
  · rename_i hend hstart
    obtain ⟨⟨v, bs''⟩, hv, heq⟩ := Option.map_eq_some_iff.mp h
    cases heq
    obtain ⟨hwire, hsized⟩ := readPayload_sound hv
    obtain ⟨htype, hgroup, hmark⟩ := hsized.wireType
    obtain ⟨hsplit, htag⟩ := tag_split hlt htype
    rw [groupStep, WireField.of, List.append_assoc, readVarint_tagBytes hlt htype]
    simp only [Option.bind_eq_bind, Option.bind_some, hsplit, htag]
    rw [if_neg hnum, if_neg hmark, if_neg hgroup, readPayload_bytes hsized, Option.map_some]
    rfl

theorem groupStep_length {n : Nat} {opened opened' : List Nat} {bs copy rest : Bytes}
    (h : groupStep depth n opened bs = some (opened', copy, rest)) : rest.length < bs.length := by
  rw [groupStep] at h
  obtain ⟨⟨tag, bs'⟩, htag, h⟩ := Option.bind_eq_some_iff.mp h
  have hlt := readVarint_length htag
  simp only at h
  split at h
  · cases h
  split at h
  · split at h
    · cases h
      exact hlt
    · cases h
  split at h
  · split at h
    · cases h
      exact hlt
    · cases h
  · obtain ⟨⟨v, bs''⟩, hv, heq⟩ := Option.map_eq_some_iff.mp h
    cases heq
    exact (readPayload_length hv).trans_lt hlt

/-- As many tags as there are bytes are enough. -/
theorem copyGroup_fuel {tags tags' : Nat} {opened : List Nat} {bs : Bytes} {r : Bytes × Bytes}
    (h : copyGroup depth tags opened bs = some r) (hle : bs.length ≤ tags') :
    copyGroup depth tags' opened bs = some r := by
  induction tags generalizing tags' opened bs r with
  | zero =>
    cases opened with
    | nil => cases tags' <;> exact h
    | cons n opened => cases h
  | succ tags ih =>
    cases opened with
    | nil => cases tags' <;> exact h
    | cons n opened =>
      rw [copyGroup] at h
      obtain ⟨⟨opened', copy, bs'⟩, hstep, h⟩ := Option.bind_eq_some_iff.mp h
      obtain ⟨r', hr, rfl⟩ := Option.map_eq_some_iff.mp h
      have hlt := groupStep_length hstep
      obtain ⟨tags', rfl⟩ : ∃ k, tags' = k + 1 := ⟨tags' - 1, by omega⟩
      rw [copyGroup, hstep]
      simp only [Option.bind_eq_bind, Option.bind_some]
      rw [ih hr (by omega), Option.map_some]

/-- What is copied of open groups is copied again. -/
theorem copyGroup_copy {tags : Nat} {opened : List Nat} {bs out rest : Bytes}
    (h : copyGroup depth tags opened bs = some (out, rest)) (more : Bytes) :
    copyGroup depth tags opened (out ++ more) = some (out, more) := by
  induction tags generalizing opened bs out with
  | zero =>
    cases opened with
    | nil =>
      cases h
      rfl
    | cons n opened => cases h
  | succ tags ih =>
    cases opened with
    | nil =>
      cases h
      rfl
    | cons n opened =>
      rw [copyGroup] at h
      obtain ⟨⟨opened', copy, bs'⟩, hstep, h⟩ := Option.bind_eq_some_iff.mp h
      obtain ⟨⟨out', rest'⟩, hr, heq⟩ := Option.map_eq_some_iff.mp h
      cases heq
      rw [copyGroup, List.append_assoc, groupStep_copy hstep]
      simp only [Option.bind_eq_bind, Option.bind_some]
      rw [ih hr, Option.map_some]

/-- A field whose copy is read as the field, whatever follows it. -/
def Canonical (depth : Nat) (f : WireField) : Prop :=
  ∀ rest, readCopy depth (f.copy ++ rest) = some (f, rest)

theorem canonical_of {num : Nat} (hnum : FieldNumber num) {v : Payload} (h : v.Sized) :
    Canonical depth (.of num v) := readCopy_of hnum h

/-- **Every field that is read is canonical.** -/
theorem canonical_of_readCopy {bs rest : Bytes} {f : WireField}
    (h : readCopy depth bs = some (f, rest)) : Canonical depth f := by
  intro more
  rw [readCopy] at h
  obtain ⟨⟨tag, bs'⟩, _, h⟩ := Option.bind_eq_some_iff.mp h
  have hlt := tag_num_lt tag
  simp only at h
  split at h
  · cases h
  rename_i hnum
  split at h
  · split at h
    · rename_i hdepth
      obtain ⟨⟨out, rest'⟩, hout, heq⟩ := Option.map_eq_some_iff.mp h
      cases heq
      obtain ⟨hsplit, htype⟩ := tag_split hlt (show 3 < 8 by decide)
      have hcopy := copyGroup_fuel (copyGroup_copy hout more) (Nat.le_refl _)
      rw [readCopy, List.append_assoc, readVarint_tagBytes hlt (by decide)]
      simp only [Option.bind_eq_bind, Option.bind_some, hsplit, htype, hnum, hdepth, if_true,
        if_false, hcopy, Option.map_some]
    · cases h
  · rename_i hgroup
    obtain ⟨⟨v, bs''⟩, hv, heq⟩ := Option.map_eq_some_iff.mp h
    cases heq
    exact canonical_of ⟨Nat.pos_of_ne_zero hnum, hlt⟩ (readPayload_sound hv).2 more

end

/-! ## Messages as fields -/

/-- The fields of a message, up to its end or the first that cannot be read, and
whether its end was reached. -/
def readFields (depth : Nat) : Nat → Bytes → List WireField × Bool
  | _, [] => ([], true)
  | 0, _ :: _ => ([], false)
  | fuel + 1, b :: bs =>
    match readCopy depth (b :: bs) with
    | none => ([], false)
    | some (f, rest) => (f :: (readFields depth fuel rest).1, (readFields depth fuel rest).2)

def fieldsIn (depth : Nat) (bs : Bytes) : List WireField × Bool := readFields depth bs.length bs

def copies (fs : List WireField) : Bytes := fs.flatMap WireField.copy

@[simp] theorem copies_nil : copies [] = [] := rfl

@[simp] theorem copies_cons (f : WireField) (fs : List WireField) :
    copies (f :: fs) = f.copy ++ copies fs := List.flatMap_cons

@[simp] theorem copies_append (fs gs : List WireField) :
    copies (fs ++ gs) = copies fs ++ copies gs := List.flatMap_append

/-- The fields are handled one after the other, until the handler refuses one. -/
def foldFields {μ : Type} (onField : μ → WireField → Bool × μ) : μ → List WireField → Bool × μ
  | m, [] => (true, m)
  | m, f :: fs =>
    match onField m f with
    | (true, m) => foldFields onField m fs
    | (false, m) => (false, m)

/-- A message whose handler also gets the copies. -/
def parseFrom {μ : Type} (depth : Nat) (onField : μ → WireField → Bool × μ) (m : μ) (bs : Bytes) :
    Bool × μ :=
  match foldFields onField m (fieldsIn depth bs).1 with
  | (true, m) => ((fieldsIn depth bs).2, m)
  | (false, m) => (false, m)

section
variable {depth : Nat}

theorem readFields_fuel {fuel : Nat} {bs : Bytes} (h : bs.length ≤ fuel) :
    readFields depth fuel bs = fieldsIn depth bs := by
  induction hn : bs.length using Nat.strong_induction_on generalizing fuel bs with
  | _ n ih =>
    subst hn
    cases bs with
    | nil => cases fuel <;> rfl
    | cons b bs =>
      obtain ⟨fuel, rfl⟩ : ∃ k, fuel = k + 1 := ⟨fuel - 1, by simp at h; omega⟩
      rw [fieldsIn, List.length_cons, readFields, readFields]
      cases hf : readCopy depth (b :: bs) with
      | none => rfl
      | some r =>
        obtain ⟨f, rest⟩ := r
        have hlt := readCopy_length hf
        simp only [List.length_cons] at h hlt
        simp only
        rw [ih _ hlt (by omega) rfl, ih _ hlt (by omega) rfl]

theorem fieldsIn_field {bs rest : Bytes} {f : WireField} (h : readCopy depth bs = some (f, rest)) :
    fieldsIn depth bs = (f :: (fieldsIn depth rest).1, (fieldsIn depth rest).2) := by
  have hlt := readCopy_length h
  cases bs with
  | nil => cases hlt
  | cons b bs =>
    rw [fieldsIn, List.length_cons, readFields, h]
    simp only
    rw [readFields_fuel (Nat.lt_succ_iff.mp hlt)]

theorem fieldsIn_none {b : Byte} {bs : Bytes} (h : readCopy depth (b :: bs) = none) :
    fieldsIn depth (b :: bs) = ([], false) := by
  rw [fieldsIn, List.length_cons, readFields, h]

/-- The fields of a message are canonical. -/
theorem canonical_of_fieldsIn {bs : Bytes} {f : WireField} (h : f ∈ (fieldsIn depth bs).1) :
    Canonical depth f := by
  induction hn : bs.length using Nat.strong_induction_on generalizing bs with
  | _ n ih =>
    subst hn
    cases bs with
    | nil => cases h
    | cons b bs =>
      cases hf : readCopy depth (b :: bs) with
      | none =>
        rw [fieldsIn_none hf] at h
        cases h
      | some r =>
        obtain ⟨g, rest⟩ := r
        rw [fieldsIn_field hf] at h
        rcases List.mem_cons.mp h with rfl | hrest
        · exact canonical_of_readCopy hf
        · exact ih _ (readCopy_length hf) hrest rfl

/-- **Canonical fields are cut into just these**, whatever follows them. -/
theorem fieldsIn_copies {fs : List WireField} (h : ∀ f ∈ fs, Canonical depth f) (rest : Bytes) :
    fieldsIn depth (copies fs ++ rest) =
      (fs ++ (fieldsIn depth rest).1, (fieldsIn depth rest).2) := by
  induction fs with
  | nil => rfl
  | cons f fs ih =>
    obtain ⟨hf, hfs⟩ := List.forall_mem_cons.mp h
    have hread := hf (copies fs ++ rest)
    rw [copies_cons, List.append_assoc, fieldsIn_field hread, ih hfs]
    rfl

section
variable {μ : Type} {onField : μ → WireField → Bool × μ}

theorem foldFields_append {m m' : μ} {fs gs : List WireField}
    (h : foldFields onField m fs = (true, m')) :
    foldFields onField m (fs ++ gs) = foldFields onField m' gs := by
  induction fs generalizing m with
  | nil =>
    cases h
    rfl
  | cons f fs ih =>
    rw [List.cons_append, foldFields]
    rw [foldFields] at h
    cases hf : onField m f with
    | mk ok m'' =>
      rw [hf] at h
      cases ok with
      | false => cases h
      | true => exact ih h

/-- What every accepted field keeps is kept by accepted fields. -/
theorem foldFields_keeps {P : μ → Prop} {m m' : μ} {fs : List WireField}
    (hstep : ∀ m m', ∀ f ∈ fs, P m → onField m f = (true, m') → P m') (h0 : P m)
    (h : foldFields onField m fs = (true, m')) : P m' := by
  induction fs generalizing m with
  | nil =>
    cases h
    exact h0
  | cons f fs ih =>
    rw [foldFields] at h
    cases hon : onField m f with
    | mk ok m₁ =>
      rw [hon] at h
      cases ok with
      | false => cases h
      | true =>
        have h1 := hstep m m₁ f List.mem_cons_self h0 hon
        exact ih (fun m m' g hg => hstep m m' g (List.mem_cons_of_mem f hg)) h1 h

/-- Handlers that agree on two views of a message give two views of it. -/
theorem foldFields_map {ν : Type} {onField' : ν → WireField → Bool × ν} (view : μ → ν)
    {fs : List WireField}
    (hview : ∀ m, ∀ f ∈ fs, onField' (view m) f = ((onField m f).1, view (onField m f).2)) (m : μ) :
    foldFields onField' (view m) fs =
      ((foldFields onField m fs).1, view (foldFields onField m fs).2) := by
  induction fs generalizing m with
  | nil => rfl
  | cons f fs ih =>
    rw [foldFields, foldFields, hview m f List.mem_cons_self]
    cases onField m f with
    | mk ok m' =>
      cases ok with
      | false => rfl
      | true => exact ih (fun m g hg => hview m g (List.mem_cons_of_mem f hg)) m'

theorem parseFrom_map {ν : Type} {onField' : ν → WireField → Bool × ν} (view : μ → ν)
    (hview : ∀ m f, onField' (view m) f = ((onField m f).1, view (onField m f).2)) (m : μ)
    (bs : Bytes) :
    parseFrom depth onField' (view m) bs =
      ((parseFrom depth onField m bs).1, view (parseFrom depth onField m bs).2) := by
  unfold parseFrom
  rw [foldFields_map view fun m f _ => hview m f]
  cases foldFields onField m (fieldsIn depth bs).1 with
  | mk ok m' => cases ok <;> rfl

/-- Accepted fields in front of a message are handled before it. -/
theorem parseFrom_copies {m m' : μ} {fs : List WireField} (h : ∀ f ∈ fs, Canonical depth f)
    (hfold : foldFields onField m fs = (true, m')) (rest : Bytes) :
    parseFrom depth onField m (copies fs ++ rest) = parseFrom depth onField m' rest := by
  unfold parseFrom
  rw [fieldsIn_copies h, foldFields_append hfold]

/-- A message without regard to the copies. -/
theorem parseMessage_eq (onField : μ → Nat → Payload → Bool × μ) (m : μ) (bs : Bytes) :
    parseMessage depth onField m bs =
      parseFrom depth (fun m f => onField m f.num f.payload) m bs := by
  induction hn : bs.length using Nat.strong_induction_on generalizing m bs with
  | _ n ih =>
    subst hn
    cases bs with
    | nil => rfl
    | cons b bs =>
      have hfield := readCopy_field depth (b :: bs)
      cases hf : readCopy depth (b :: bs) with
      | none =>
        rw [hf] at hfield
        rw [parseFrom, fieldsIn_none hf, parseMessage, List.length_cons, parseFields, ← hfield]
        rfl
      | some r =>
        obtain ⟨f, rest⟩ := r
        rw [hf] at hfield
        cases hon : onField m f.num f.payload with
        | mk ok m' =>
          cases ok with
          | false =>
            rw [parseFrom, fieldsIn_field hf, parseMessage, List.length_cons, parseFields,
              ← hfield]
            simp only [Option.map_some, foldFields, hon]
          | true =>
            rw [parseMessage_field hfield.symm hon, ih _ (readCopy_length hf) m' rest rfl]
            simp only [parseFrom, fieldsIn_field hf, foldFields, hon]

end

end

end Cpe.Lib.ProtoWire
