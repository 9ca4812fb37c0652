import Mathlib.Data.List.Basic
import Mathlib.Tactic.Ring

/-!
# Strings of pjlib

A `pj_str_t` is the list of its bytes. The decimal conversions are the loops of `string.c`;
an `unsigned long` is not reduced here, its callers store the value in a type of 32 bits or
less, which the reduction to the width of `unsigned long` does not change.
-/

namespace Pj
open List

/-- `pj_str_t`. -/
abbrev Str := List UInt8

instance Str.lawfulBEq : LawfulBEq Str := inferInstance

/-- The bytes of a string of ASCII characters. -/
def ofChars (chars : List Char) : Str := chars.map Char.toUInt8

/-- `pj_isdigit`. -/
def pjIsdigit (byte : UInt8) : Bool := 48 ≤ byte && byte ≤ 57

/-- `pj_tolower`. -/
def pjTolower (byte : UInt8) : UInt8 := if 65 ≤ byte && byte ≤ 90 then byte + 32 else byte

/-- The byte of a decimal digit. -/
def digitByte (digit : Nat) : UInt8 := UInt8.ofNat (digit + 48)

/-- The first loop of `pj_utoa_pad`: the digits from the last one on. The digits of an
`unsigned long` are at most 20. -/
def utoaDigits : Nat → Nat → List Nat
  | 0, _ => []
  | fuel + 1, val => val % 10 :: if val / 10 = 0 then [] else utoaDigits fuel (val / 10)

/-- `pj_utoa`. -/
def pjUtoa (val : Nat) : Str := ((utoaDigits 20 val).map digitByte).reverse

/-- The loop of `pj_strtoul`. -/
def strtoulFrom (value : Nat) : Str → Nat
  | [] => value
  | byte :: rest =>
    if pjIsdigit byte then strtoulFrom (value * 10 + (byte.toNat - 48)) rest else value

/-- `pj_strtoul`. -/
def pjStrtoul (str : Str) : Nat := strtoulFrom 0 str

/-- `pj_stricmp` returns zero: the lengths are equal, and so are the bytes up to a NUL, but
for the case of letters. -/
def pjStricmpEq (str1 str2 : Str) : Bool :=
  str1.length = str2.length &&
    (str1.takeWhile (· ≠ 0)).map pjTolower = (str2.takeWhile (· ≠ 0)).map pjTolower

/-- What holds of the bytes one by one. -/
theorem every_byte {P : UInt8 → Prop} (each : ∀ value : Fin 256, P (UInt8.ofFin value))
    (byte : UInt8) : P byte := each byte.toFin

theorem pjIsdigit_digitByte {digit : Nat} (h : digit < 10) :
    pjIsdigit (digitByte digit) = true ∧ (digitByte digit).toNat - 48 = digit := by
  have each : ∀ digit : Fin 10, pjIsdigit (digitByte digit) = true ∧
      (digitByte digit).toNat - 48 = digit := by decide
  exact each ⟨digit, h⟩

/-- Digits are read one by one. -/
theorem strtoulFrom_append (value : Nat) {digits : List Nat} (h : ∀ digit ∈ digits, digit < 10)
    (rest : Str) :
    strtoulFrom value (digits.map digitByte ++ rest) =
      strtoulFrom (digits.foldl (fun value digit => value * 10 + digit) value) rest := by
  induction digits generalizing value with
  | nil => rfl
  | cons digit digits ih =>
    have ⟨isDigit, number⟩ := pjIsdigit_digitByte (h digit (by simp))
    rw [map_cons, cons_append, strtoulFrom, if_pos isDigit, number]
    exact ih _ fun other member => h other (by simp [member])

variable {val : Nat}

theorem utoaDigits_lt {fuel digit : Nat} (h : digit ∈ utoaDigits fuel val) : digit < 10 := by
  induction fuel generalizing val with
  | zero => simp [utoaDigits] at h
  | succ fuel ih =>
    rcases mem_cons.mp h with rfl | later
    · omega
    · split at later
      · simp at later
      · exact ih later

/-- The digits of a number in range, read from the first one on, are the number. -/
theorem utoaDigits_value {fuel : Nat} (h : val < 10 ^ fuel) :
    (utoaDigits fuel val).reverse.foldl (fun value digit => value * 10 + digit) 0 = val := by
  induction fuel generalizing val with
  | zero =>
    have zero : val = 0 := by simpa using h
    rw [zero]
    rfl
  | succ fuel ih =>
    rw [utoaDigits, reverse_cons, foldl_append]
    split
    · simp
      omega
    · rw [ih (by rw [Nat.pow_succ] at h; omega)]
      simp
      omega

/-- Printing and reading a number, whatever other than a digit follows it. -/
theorem pjStrtoul_pjUtoa (h : val < 2 ^ 32) : pjStrtoul (pjUtoa val) = val := by
  have small : ∀ digit ∈ (utoaDigits 20 val).reverse, digit < 10 := by
    intro digit member
    exact utoaDigits_lt (mem_reverse.mp member)
  have read := strtoulFrom_append 0 small []
  rw [append_nil, utoaDigits_value (by omega), map_reverse] at read
  exact read

/-- A printed number is not empty. -/
theorem pjUtoa_ne_nil (val : Nat) : pjUtoa val ≠ [] := by
  simp [pjUtoa, utoaDigits]

/-- A printed number has digits only. -/
theorem pjUtoa_isdigit {byte : UInt8} (h : byte ∈ pjUtoa val) :
    pjIsdigit byte = true := by
  obtain ⟨digit, member, rfl⟩ := mem_map.mp (mem_reverse.mp h)
  exact (pjIsdigit_digitByte (utoaDigits_lt member)).1

end Pj
