import Cpe.Lib.Number

/-! # Output streams

The text of a `std::ostringstream` and its formatting state. A manipulator
changes the state for everything behind it, but for the width, which the next
formatted output uses up: it is padded with the fill character. -/
namespace Cpe.Lib.Streams
open Cpe.Lib.ByteOrder Cpe.Lib.Number

structure OStream where
  text : Bytes := []
  base : Nat := 10
  left : Bool := false
  fill : Byte := 32
  width : Nat := 0
deriving DecidableEq, Repr

/-- A number that is not negative in a base up to 16, in lower case. -/
def numeral (base n : Nat) : Bytes := (Nat.toDigits base n).map fun c => BitVec.ofNat 8 c.toNat

namespace OStream

def right (o : OStream) : OStream := { o with left := false }

def hex (o : OStream) : OStream := { o with base := 16 }

def dec (o : OStream) : OStream := { o with base := 10 }

def setfill (o : OStream) (c : Byte) : OStream := { o with fill := c }

def setw (o : OStream) (n : Nat) : OStream := { o with width := n }

/-- Bytes as they are. -/
def write (o : OStream) (s : Bytes) : OStream := { o with text := o.text ++ s }

/-- `<<` of a text or a character. -/
def put (o : OStream) (s : Bytes) : OStream :=
  let padding := List.replicate (o.width - s.length) o.fill
  { o.write (if o.left then s ++ padding else padding ++ s) with width := 0 }

/-- `<<` of an `int` that is not negative. -/
def putInt (o : OStream) (n : Nat) : OStream := o.put (numeral o.base n)

def endl (o : OStream) : OStream := o.write [10]

/-- A stream that pads numbers with zeros in front. -/
def zeroFilled (base : Nat) (text : Bytes) : OStream := ⟨text, base, false, 48, 0⟩

section
variable (base : Nat) (text : Bytes)

theorem right_setfill {o : OStream} (hwidth : o.width = 0) :
    o.right.setfill 48 = zeroFilled o.base o.text := by
  cases o
  cases hwidth
  rfl

theorem put_zeroFilled (s : Bytes) :
    (zeroFilled base text).put s = zeroFilled base (text ++ s) := by
  have hpad : 0 - s.length = 0 := Nat.zero_sub _
  simp only [put, zeroFilled, write, hpad, List.replicate_zero, List.nil_append,
    Bool.false_eq_true, if_false]

/-- A number in a field of `n` characters. -/
theorem putInt_setw (n k : Nat) :
    ((zeroFilled base text).setw n).putInt k =
      zeroFilled base
        (text ++ (List.replicate (n - (numeral base k).length) 48 ++ numeral base k)) := by
  simp only [putInt, put, setw, zeroFilled, write, Bool.false_eq_true, if_false]

/-- A loop whose turns only append text. -/
theorem foldl_zeroFilled {α : Type*} {f : OStream → α → OStream} {g : α → Bytes} {base : Nat}
    (hstep : ∀ text x, f (zeroFilled base text) x = zeroFilled base (text ++ g x)) (xs : List α)
    (text : Bytes) :
    xs.foldl f (zeroFilled base text) = zeroFilled base (text ++ xs.flatMap g) := by
  induction xs generalizing text with
  | nil => rw [List.foldl_nil, List.flatMap_nil, List.append_nil]
  | cons x xs ih => rw [List.foldl_cons, hstep, ih, List.flatMap_cons, List.append_assoc]

end

end OStream

theorem numeral_ten (n : Nat) : numeral 10 n = decimal n := rfl

theorem digitChar_hexDigit {d : Nat} (h : d < 16) :
    BitVec.ofNat 8 (Nat.digitChar d).toNat = hexDigit d := by
  interval_cases d <;> rfl

/-- A byte in two hexadecimal digits. -/
theorem padded_numeral (b : Byte) :
    List.replicate (2 - (numeral 16 b.toNat).length) (48 : Byte) ++ numeral 16 b.toNat =
      hex2 b := by
  have hlt := b.isLt
  by_cases h : b.toNat < 16
  · have hdigits : numeral 16 b.toNat = [hexDigit b.toNat] := by
      rw [numeral, Nat.toDigits_of_lt_base h, List.map_singleton, digitChar_hexDigit h]
    have hhi : b.toNat / 16 = 0 := Nat.div_eq_of_lt h
    have hlo : b.toNat % 16 = b.toNat := Nat.mod_eq_of_lt h
    rw [hdigits, hex2, hhi, hlo]
    rfl
  · have hdigits : numeral 16 b.toNat = hex2 b := by
      rw [numeral, Nat.toDigits_of_base_le (by decide) (by omega),
        Nat.toDigits_of_lt_base (hi_lt b), List.map_append, List.map_singleton, List.map_singleton,
        digitChar_hexDigit (hi_lt b), digitChar_hexDigit (lo_lt b)]
      rfl
    rw [hdigits]
    rfl

end Cpe.Lib.Streams
