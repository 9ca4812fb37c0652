import Mathlib.Tactic.Ring

/-!
# Machine integers

The conversions of a mathematical integer to the `unsigned` and `int` of the source, and to its
words of fixed width.
-/

namespace Pj

/-- The value of an integer stored in a 32-bit `unsigned`. -/
def u32 (value : Int) : Nat := (BitVec.ofInt 32 value).toNat

/-- The value of an integer stored in a 16-bit `pj_uint16_t`. -/
def u16 (value : Int) : Nat := (BitVec.ofInt 16 value).toNat

/-- The value of an integer stored in a 32-bit `int`. -/
def i32 (value : Int) : Int := (BitVec.ofInt 32 value).toInt

theorem u32_eq (value : Int) : u32 value = (value % 2 ^ 32).toNat :=
  BitVec.toNat_ofInt value

theorem u32_lt (value : Int) : u32 value < 2 ^ 32 :=
  (BitVec.ofInt 32 value).isLt

theorem u16_eq (value : Int) : u16 value = (value % 2 ^ 16).toNat :=
  BitVec.toNat_ofInt value

/-- A natural number in range is stored as it is. -/
theorem u16_natCast {value : Nat} (h : value < 2 ^ 16) : u16 value = value := by
  rw [u16_eq]
  omega

theorem i32_eq (value : Int) : i32 value = value.bmod (2 ^ 32) := BitVec.toInt_ofInt value

/-- A natural number in range is stored as it is. -/
theorem u32_natCast {value : Nat} (h : value < 2 ^ 32) : u32 value = value := by
  rw [u32_eq]
  omega

/-- An unsigned difference that does not go below zero is the difference. -/
theorem u32_sub {left right : Nat} (h : right ≤ left) (bound : left < 2 ^ 32) :
    u32 ((left : Int) - right) = left - right := by
  rw [u32_eq]
  omega

/-- An unsigned sum that does not wrap is the sum. -/
theorem u32_add {left right : Nat} (bound : left + right < 2 ^ 32) :
    u32 ((left : Int) + right) = left + right := by
  rw [u32_eq]
  omega

/-- Reading a natural number as an `int` does not raise it. -/
theorem i32_natCast_le (value : Nat) : i32 value ≤ value := by
  rw [i32_eq, Int.bmod_def]
  split <;> omega

/-- A natural number in the range of `int` is read as it is. -/
theorem i32_natCast {value : Nat} (h : value < 2 ^ 31) : i32 value = value := by
  rw [i32_eq, Int.bmod_def]
  split <;> omega

/-- The value of an integer stored in a 16-bit word. -/
theorem toNat_ofInt16 (value : Int) : (UInt16.ofInt value).toNat = (value % 2 ^ 16).toNat := by
  have bound : (value % 2 ^ 16).toNat < 2 ^ 16 := by omega
  exact UInt16.toNat_ofNat_of_lt' bound

/-- The value of an integer stored in a 32-bit word. -/
theorem toNat_ofInt32 (value : Int) : (UInt32.ofInt value).toNat = (value % 2 ^ 32).toNat := by
  have bound : (value % 2 ^ 32).toNat < 2 ^ 32 := by omega
  exact UInt32.toNat_ofNat_of_lt' bound

end Pj
