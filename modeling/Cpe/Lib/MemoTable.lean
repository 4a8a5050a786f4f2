import Mathlib.Logic.Function.Basic
import Mathlib.Data.List.Basic

/-! # Memo tables

A memo table keeps values that a lookup function gave for its keys. It is
`Coherent` with a function when every entry is the function's value. Entries
are only ever added for keys that have none, and only for values a filter
keeps, so the first kept value of a key stays until the table is emptied. -/
namespace Cpe.Lib.MemoTable

variable {κ ν : Type}

abbrev Memo (κ ν : Type) := κ → Option ν

def Memo.empty : Memo κ ν := fun _ => none

/-- The remembered value of a key, else the one the lookup gives. -/
def Memo.answer (m : Memo κ ν) (k : κ) (v : ν) : ν := (m k).getD v

/-- Remember `v` for `k` when the filter keeps it and `k` has no entry. -/
def Memo.learn [DecidableEq κ] (keep : ν → Bool) (m : Memo κ ν) (k : κ) (v : ν) : Memo κ ν :=
  if keep v ∧ m k = none then Function.update m k (some v) else m

def Coherent (f : κ → ν) (m : Memo κ ν) : Prop := ∀ k v, m k = some v → f k = v

/-- Every entry's value is one the filter keeps. -/
def Kept (keep : ν → Bool) (m : Memo κ ν) : Prop := ∀ k v, m k = some v → keep v = true

@[simp] theorem answer_empty (k : κ) (v : ν) : Memo.answer Memo.empty k v = v := rfl

theorem coherent_empty (f : κ → ν) : Coherent f Memo.empty := by
  intro k v h
  cases h

theorem kept_empty (keep : ν → Bool) : Kept keep (Memo.empty : Memo κ ν) := by
  intro k v h
  cases h

/-- A coherent table never changes an answer. -/
theorem Coherent.answer {f : κ → ν} {m : Memo κ ν} (h : Coherent f m) (k : κ) :
    m.answer k (f k) = f k := by
  unfold Memo.answer
  cases hm : m k with
  | none => rfl
  | some v => exact (h k v hm).symm

section
variable [DecidableEq κ] {keep : ν → Bool} {m : Memo κ ν} {f : κ → ν}

theorem learn_apply (k : κ) (v : ν) (k' : κ) :
    m.learn keep k v k' =
      if k' = k ∧ keep v ∧ m k = none then some v else m k' := by
  unfold Memo.learn
  by_cases h : keep v ∧ m k = none
  · rw [if_pos h]
    by_cases hk : k' = k
    · subst hk
      simp [h]
    · simp [hk]
  · rw [if_neg h, if_neg (fun hc => h hc.2)]

/-- Learning the answer of a table is learning the looked-up value. -/
theorem learn_answer (k : κ) (v : ν) : m.learn keep k (m.answer k v) = m.learn keep k v := by
  unfold Memo.learn Memo.answer
  cases hm : m k with
  | none => rfl
  | some w => simp

/-- What a table remembers it keeps. -/
theorem learn_of_some {k k' : κ} {v w : ν} (h : m k' = some w) :
    m.learn keep k v k' = some w := by
  rw [learn_apply]
  split
  · rename_i hc
    rw [hc.1, hc.2.2] at h
    cases h
  · exact h

theorem Coherent.learn (h : Coherent f m) (k : κ) : Coherent f (m.learn keep k (f k)) := by
  intro k' v hv
  rw [learn_apply] at hv
  split at hv
  · rename_i hc
    rw [hc.1]
    exact Option.some.inj hv
  · exact h k' v hv

theorem Kept.learn (h : Kept keep m) (k : κ) (v : ν) : Kept keep (m.learn keep k v) := by
  intro k' w hw
  rw [learn_apply] at hw
  split at hw
  · rename_i hc
    rw [← Option.some.inj hw]
    exact hc.2.1
  · exact h k' w hw

/-- The table after a sequence of lookups with their values. -/
def Memo.learnAll (keep : ν → Bool) (m : Memo κ ν) (ps : List (κ × ν)) : Memo κ ν :=
  ps.foldl (fun m p => m.learn keep p.1 p.2) m

@[simp] theorem learnAll_cons (p : κ × ν) (ps : List (κ × ν)) :
    m.learnAll keep (p :: ps) = (m.learn keep p.1 p.2).learnAll keep ps := rfl

theorem learnAll_of_some {k : κ} {v : ν} {ps : List (κ × ν)} (h : m k = some v) :
    m.learnAll keep ps k = some v := by
  induction ps generalizing m with
  | nil => exact h
  | cons p ps ih => exact ih (learn_of_some h)

/-- **The first kept value of a key wins.** -/
theorem learnAll_of_none {k : κ} {ps : List (κ × ν)} (h : m k = none) :
    m.learnAll keep ps k = (ps.find? fun p => p.1 = k ∧ keep p.2).map Prod.snd := by
  induction ps generalizing m with
  | nil => exact h
  | cons p ps ih =>
    rw [learnAll_cons, List.find?_cons]
    by_cases hp : p.1 = k ∧ keep p.2 = true
    · have hk : m.learn keep p.1 p.2 k = some p.2 := by
        rw [learn_apply, if_pos ⟨hp.1.symm, hp.2, by rw [hp.1]; exact h⟩]
      simpa [hp] using learnAll_of_some hk
    · have hk : m.learn keep p.1 p.2 k = none := by
        rw [learn_apply, if_neg (fun hc => hp ⟨hc.1.symm, hc.2.1⟩)]
        exact h
      simp only [hp, decide_false]
      exact ih hk

/-- Learning values of `f` keeps a table coherent with `f`, and only a coherent
table becomes one. -/
theorem coherent_learnAll_iff {ks : List κ} :
    Coherent f (m.learnAll keep (ks.map fun k => (k, f k))) ↔ Coherent f m := by
  induction ks generalizing m with
  | nil => exact Iff.rfl
  | cons k ks ih =>
    rw [List.map_cons, learnAll_cons, ih]
    constructor
    · intro h k' v hv
      exact h k' v (learn_of_some hv)
    · intro h
      exact h.learn k

/-- Values of another function learned by an empty table. -/
theorem coherent_learnAll_empty_iff {g : κ → ν} {ks : List κ} :
    Coherent f (Memo.empty.learnAll keep (ks.map fun k => (k, g k))) ↔
      ∀ k ∈ ks, keep (g k) = true → f k = g k := by
  have hlearned : ∀ k v, (Memo.empty.learnAll keep (ks.map fun k => (k, g k))) k = some v ↔
      k ∈ ks ∧ keep (g k) = true ∧ g k = v := by
    intro k v
    rw [learnAll_of_none rfl, List.find?_map, Option.map_map]
    cases hf : ks.find? ((fun p : κ × ν => decide (p.1 = k ∧ keep p.2 = true)) ∘
        fun k => (k, g k)) with
    | none =>
      have hno := List.find?_eq_none.mp hf
      simp only [Option.map_none, reduceCtorEq, false_iff]
      rintro ⟨hk, hkeep, _⟩
      exact hno k hk (decide_eq_true ⟨rfl, hkeep⟩)
    | some k' =>
      obtain ⟨rfl, hkeep⟩ : k' = k ∧ keep (g k') = true := by
        simpa using List.find?_some hf
      have hmem := List.mem_of_find?_eq_some hf
      simp only [Option.map_some, Function.comp_apply, Option.some.injEq]
      exact ⟨fun hv => ⟨hmem, hkeep, hv⟩, fun h => h.2.2⟩
  constructor
  · intro h k hk hkeep
    exact h k (g k) ((hlearned k (g k)).mpr ⟨hk, hkeep, rfl⟩)
  · intro h k v hv
    obtain ⟨hk, hkeep, rfl⟩ := (hlearned k v).mp hv
    exact h k hk hkeep

theorem learnAll_append (ps qs : List (κ × ν)) :
    m.learnAll keep (ps ++ qs) = (m.learnAll keep ps).learnAll keep qs := List.foldl_append

end

end Cpe.Lib.MemoTable
