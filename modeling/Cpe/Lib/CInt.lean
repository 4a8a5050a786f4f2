import Mathlib.Algebra.Order.GroupWithZero.Basic
import Mathlib.Algebra.Order.Ring.Int
import Mathlib.Tactic.Common

/-! # Signed arithmetic that may be undefined

A signed result that the type cannot hold is undefined, and so is a shift by a
negative amount or by the width of the type. `none` stands for both. -/
namespace Cpe.Lib.CInt

variable {w : Nat}

/-- The values of a signed type of `w` bits. -/
def InRange (w : Nat) (x : Int) : Prop := -2 ^ (w - 1) ≤ x ∧ x < 2 ^ (w - 1)

instance (w : Nat) (x : Int) : Decidable (InRange w x) := inferInstanceAs (Decidable (_ ∧ _))

/-- An arithmetic result of a signed type. -/
def int? (w : Nat) (x : Int) : Option Int := if InRange w x then some x else none

def shl? (w : Nat) (x amount : Int) : Option Int :=
  if 0 ≤ x ∧ 0 ≤ amount ∧ amount < w then int? w (x * 2 ^ amount.toNat) else none

theorem int?_eq_some_iff {x y : Int} : int? w x = some y ↔ InRange w x ∧ y = x := by
  unfold int?
  by_cases h : InRange w x
  · rw [if_pos h]
    exact ⟨fun he => ⟨h, (Option.some.inj he).symm⟩, fun hy => congrArg some hy.2.symm⟩
  · rw [if_neg h]
    constructor
    · intro he
      cases he
    · intro hy
      exact absurd hy.1 h

theorem inRange_two_pow (k : Nat) : InRange w (2 ^ k) ↔ k < w - 1 := by
  have hpos : (0 : Int) < 2 ^ k := Int.pow_pos (by decide)
  have hlow : (0 : Int) < 2 ^ (w - 1) := Int.pow_pos (by decide)
  unfold InRange
  rw [pow_lt_pow_iff_right₀ (by decide)]
  constructor
  · intro h
    exact h.2
  · intro h
    exact ⟨by omega, h⟩

/-- `1 << amount` is defined up to the bit below the sign. -/
theorem shl?_one_eq_some_iff {amount y : Int} :
    shl? w 1 amount = some y ↔ 0 ≤ amount ∧ amount + 1 < w ∧ y = 2 ^ amount.toNat := by
  unfold shl?
  by_cases h : (0 : Int) ≤ 1 ∧ 0 ≤ amount ∧ amount < w
  · rw [if_pos h, Int.one_mul, int?_eq_some_iff, inRange_two_pow]
    obtain ⟨_, hamount, hwidth⟩ := h
    constructor
    · intro hy
      exact ⟨hamount, by omega, hy.2⟩
    · intro hy
      exact ⟨by omega, hy.2.2⟩
  · rw [if_neg h]
    constructor
    · intro he
      cases he
    · intro hy
      exact absurd ⟨by decide, hy.1, by omega⟩ h

end Cpe.Lib.CInt
