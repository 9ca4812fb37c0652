import Pjproject.Pjlib.Str

/-!
# Checked number parsing

`pj_strtol2` and `pj_strtoul3` of `string.c`, with a `long` of 32 bits. A result comes with the
number that is stored, if one is.
-/

namespace Pj.Strtol
open List

/-- `PJ_SUCCESS`, `PJ_EINVAL`, `PJ_ETOOBIG` and `PJ_ETOOSMALL`. -/
inductive Status
  | success | einval | etoobig | etoosmall
deriving DecidableEq, Repr

/-- `PJ_MAXULONG`. -/
def maxUlong : Nat := 2 ^ 32 - 1

/-- `PJ_MAXLONG`. -/
def maxLong : Nat := 2 ^ 31 - 1

/-- `PJ_MINLONG`. -/
def minLong : Int := -2 ^ 31

/-- `pj_isspace`. -/
def pjIsspace (c : UInt8) : Bool := c = 32 || (9 ≤ c && c ≤ 13)

/-- `pj_isxdigit`. -/
def pjIsxdigit (c : UInt8) : Bool := pjIsdigit c || (65 ≤ c && c ≤ 70) || (97 ≤ c && c ≤ 102)

/-- `pj_strltrim`. -/
def pjStrltrim (str : Str) : Str := str.dropWhile pjIsspace

/-- `pj_hex_digit_to_val`. -/
def pjHexDigitToVal (c : UInt8) : Nat :=
  (if c ≤ 57 then (c - 48) &&& 15 else if c ≤ 70 then (c - 65 + 10) &&& 15
    else (c - 97 + 10) &&& 15).toNat

/-- The loops of `pj_strtoul3` go on at a character. -/
def isDigitOf (base : Nat) (c : UInt8) : Bool :=
  if base = 16 then pjIsxdigit c else 48 ≤ c && c.toNat ≤ 47 + base

/-- The value of a digit. -/
def digitOf (base : Nat) (c : UInt8) : Nat :=
  if base = 16 then pjHexDigitToVal c else c.toNat - 48

/-- The loops of `pj_strtoul3`. -/
def strtoulLoop (base value : Nat) : Str → Status × Nat
  | [] => (.success, value)
  | c :: rest =>
    if !isDigitOf base c then (.success, value)
    else if maxUlong / base < value then (.etoobig, maxUlong)
    else if maxUlong - value * base < digitOf base c then (.etoobig, maxUlong)
    else strtoulLoop base (value * base + digitOf base c) rest

/-- `pj_strtoul3`. -/
def pjStrtoul3 (str : Str) (base : Nat) : Status × Option Nat :=
  match pjStrltrim str with
  | [] => (.einval, none)
  | c :: rest =>
    if c < 48 ∨ (base ≤ 10 ∧ 47 + base < c.toNat) ∨ (base = 16 ∧ !pjIsxdigit c) then (.einval, none)
    else if base ≤ 10 ∨ base = 16 then
      let (status, value) := strtoulLoop base 0 (c :: rest)
      (status, some value)
    else (.einval, some 0)

/-- The sign of a string, and what is behind it. -/
def splitSign : Str → Bool × Str
  | [] => (false, [])
  | c :: rest => if c = 43 ∨ c = 45 then (c = 45, rest) else (false, c :: rest)

/-- `pj_strtol2`. -/
def pjStrtol2 (str : Str) : Status × Option Int :=
  if pjStrltrim str = [] then (.einval, none)
  else
    let (isNegative, s) := splitSign (pjStrltrim str)
    match pjStrtoul3 s 10 with
    | (.einval, _) => (.einval, none)
    | (.success, some retval) =>
      if maxLong < retval ∧ !isNegative then (.etoobig, some maxLong)
      else if maxLong + 1 < retval ∧ isNegative then (.etoosmall, some minLong)
      else (.success, some (if isNegative then -retval else retval))
    | _ => if isNegative then (.etoosmall, some minLong) else (.etoobig, some maxLong)

/-! ## The law -/

/-- The number that digits denote, behind those of `value`. -/
def denotedFrom (base value : Nat) (digits : Str) : Nat :=
  digits.foldl (fun value c => value * base + digitOf base c) value

/-- The result for the digits of an `unsigned long`. -/
def ulongOf (base : Nat) (digits : Str) : Status × Option Nat :=
  if digits = [] then (.einval, none)
  else if denotedFrom base 0 digits ≤ maxUlong then (.success, some (denotedFrom base 0 digits))
  else (.etoobig, some maxUlong)

/-- The result for the sign and the digits of a `long`. -/
def longOf (negative : Bool) (digits : Str) : Status × Option Int :=
  let value : Int := if negative then -denotedFrom 10 0 digits else denotedFrom 10 0 digits
  if digits = [] then (.einval, none)
  else if value < minLong then (.etoosmall, some minLong)
  else if maxLong < value then (.etoobig, some maxLong)
  else (.success, some value)

/-- White space, and then digits. -/
def lawUlong (base : Nat) (str : Str) : Status × Option Nat :=
  ulongOf base ((pjStrltrim str).takeWhile (isDigitOf base))

/-- White space, a sign or none, and then digits. -/
def lawLong (str : Str) : Status × Option Int :=
  let (negative, rest) := splitSign (pjStrltrim str)
  longOf negative (rest.takeWhile (isDigitOf 10))

variable {base value : Nat}

theorem le_denotedFrom (positive : 0 < base) (digits : Str) :
    value ≤ denotedFrom base value digits := by
  induction digits generalizing value with
  | nil => exact Nat.le_refl value
  | cons c digits ih =>
    apply Nat.le_trans _ ih
    exact Nat.le_trans (Nat.le_mul_of_pos_right value positive) (Nat.le_add_right _ _)

/-- The loop finds out by two comparisons that the number gets too big. -/
theorem strtoulLoop_eq (positive : 0 < base) (fits : value ≤ maxUlong) (str : Str) :
    strtoulLoop base value str =
      let total := denotedFrom base value (str.takeWhile (isDigitOf base))
      if total ≤ maxUlong then (.success, total) else (.etoobig, maxUlong) := by
  induction str generalizing value with
  | nil => exact (if_pos fits).symm
  | cons c rest ih =>
    rw [strtoulLoop]
    by_cases digit : isDigitOf base c = true
    · have grows : value * base + digitOf base c ≤ denotedFrom base (value * base + digitOf base c)
          (rest.takeWhile (isDigitOf base)) := le_denotedFrom positive _
      rw [takeWhile_cons_of_pos digit, denotedFrom, foldl_cons, ← denotedFrom]
      by_cases big : maxUlong / base < value
      · have beyond := (Nat.div_lt_iff_lt_mul positive).mp big
        rw [if_neg (by simp [digit]), if_pos big]
        exact (if_neg (by omega)).symm
      · have small : value * base ≤ maxUlong :=
          Nat.le_of_not_lt fun beyond => big ((Nat.div_lt_iff_lt_mul positive).mpr beyond)
        rw [if_neg (by simp [digit]), if_neg big]
        by_cases far : maxUlong - value * base < digitOf base c
        · rw [if_pos far]
          exact (if_neg (by omega)).symm
        · rw [if_neg far]
          exact ih (by omega)
    · rw [takeWhile_cons_of_neg digit, if_pos (by simpa using digit)]
      exact (if_pos fits).symm

/-- The bases of the law. -/
def Supported (base : Nat) : Prop := 2 ≤ base ∧ base ≤ 10 ∨ base = 16

/-- The test of the first character is that of a digit. -/
theorem first_iff (supported : Supported base) (c : UInt8) :
    (c < 48 ∨ (base ≤ 10 ∧ 47 + base < c.toNat) ∨ (base = 16 ∧ !pjIsxdigit c)) ↔
      isDigitOf base c = false := by
  rcases supported with ⟨-, small⟩ | rfl
  · have other : base ≠ 16 := by omega
    simp only [isDigitOf, other, small, UInt8.lt_iff_toNat_lt, UInt8.le_iff_toNat_le, if_false,
      true_and, false_and, or_false, Bool.and_eq_false_iff, decide_eq_false_iff_not]
    omega
  · simp only [isDigitOf, pjIsxdigit, pjIsdigit, UInt8.lt_iff_toNat_lt, UInt8.le_iff_toNat_le]
    simp
    omega

theorem pjStrtoul3_eq (supported : Supported base) (str : Str) :
    pjStrtoul3 str base = lawUlong base str := by
  rw [pjStrtoul3, lawUlong]
  cases pjStrltrim str with
  | nil => rfl
  | cons c rest =>
    have first := first_iff supported c
    have positive : 0 < base := by
      rcases supported with ⟨two, -⟩ | rfl <;> omega
    by_cases digit : isDigitOf base c = true
    · have kind : base ≤ 10 ∨ base = 16 := supported.imp_left And.right
      dsimp only
      rw [if_neg (by rw [first]; simp [digit]), if_pos kind, strtoulLoop_eq positive (by decide),
        ulongOf, takeWhile_cons_of_pos digit, if_neg (cons_ne_nil _ _)]
      dsimp only
      split <;> rfl
    · rw [takeWhile_cons_of_neg digit]
      exact if_pos (first.mpr (by simpa using digit))

/-- `pj_strtol2` trims again behind the sign. -/
theorem pjStrtol2_eq (str : Str) : pjStrtol2 str =
    longOf (splitSign (pjStrltrim str)).1
      ((pjStrltrim (splitSign (pjStrltrim str)).2).takeWhile (isDigitOf 10)) := by
  rw [pjStrtol2]
  by_cases empty : pjStrltrim str = []
  · rw [if_pos empty, empty]
    rfl
  · rw [if_neg empty]
    cases splitSign (pjStrltrim str) with
    | mk negative s =>
      dsimp only
      rw [pjStrtoul3_eq (.inl (by decide)), lawUlong]
      generalize (pjStrltrim s).takeWhile (isDigitOf 10) = digits
      by_cases none : digits = []
      · rw [ulongOf, longOf, if_pos none, if_pos none]
      · rw [ulongOf, longOf, if_neg none, if_neg none]
        generalize denotedFrom 10 0 digits = total
        have word : maxUlong = 4294967295 := rfl
        have high : maxLong = 2147483647 := rfl
        have low : minLong = -2147483648 := rfl
        by_cases fits : total ≤ maxUlong
        · rw [if_pos fits]
          cases negative with
          | true =>
            simp only [Bool.not_true, Bool.false_eq_true, and_false, if_false, and_true, if_true]
            split_ifs <;> first | rfl | omega
          | false =>
            simp only [Bool.not_false, Bool.false_eq_true, and_false, if_false, and_true]
            split_ifs <;> first | rfl | omega
        · rw [if_neg fits]
          cases negative with
          | true =>
            have tiny : -(total : Int) < minLong := by omega
            exact (if_pos tiny).symm
          | false =>
            have huge : (maxLong : Int) < total := by omega
            have positive : ¬(total : Int) < minLong := by omega
            exact ((if_neg positive).trans (if_pos huge)).symm

/-- A sign, white space and a digit, behind white space or none. -/
def SpacedSign (str : Str) : Prop :=
  ∃ sign space rest, pjStrltrim str = sign :: space :: rest ∧ (sign = 43 ∨ sign = 45) ∧
    pjIsspace space ∧ (pjStrltrim rest).takeWhile (isDigitOf 10) ≠ []

theorem longOf_eq_einval_iff {negative : Bool} {digits : Str} :
    longOf negative digits = (.einval, none) ↔ digits = [] := by
  by_cases none : digits = []
  · exact iff_of_true (if_pos none) none
  · apply iff_of_false _ none
    rw [longOf, if_neg none]
    repeat' split
    all_goals nofun

/-- Both parsers obey the law exactly on the strings in which white space between a sign and a digit
is not skipped. -/
theorem strtol_exact_iff (str : Str) :
    (pjStrtol2 str = lawLong str ∧
      ∀ base, Supported base → pjStrtoul3 str base = lawUlong base str) ↔ ¬SpacedSign str := by
  have unsigned : ∀ base, Supported base → pjStrtoul3 str base = lawUlong base str :=
    fun base supported => pjStrtoul3_eq supported str
  rw [and_iff_left unsigned, pjStrtol2_eq, lawLong, SpacedSign]
  cases trimmed : pjStrltrim str with
  | nil => simp [splitSign, pjStrltrim]
  | cons c rest =>
    by_cases sign : c = 43 ∨ c = 45
    · rw [splitSign, if_pos sign]
      dsimp only
      cases rest with
      | nil => simp [pjStrltrim]
      | cons next rest =>
        by_cases space : pjIsspace next = true
        · have apart : isDigitOf 10 next = false :=
            every_byte (P := fun c => pjIsspace c = true → isDigitOf 10 c = false)
              (by decide +kernel) next space
          rw [pjStrltrim, dropWhile_cons_of_pos space, ← pjStrltrim,
            takeWhile_cons_of_neg (by simp [apart]), longOf_eq_einval_iff.mpr rfl,
            longOf_eq_einval_iff]
          constructor
          · rintro none ⟨sign', space', later, same, -, -, digit⟩
            cases same
            exact digit none
          · intro spaced
            by_contra digit
            exact spaced ⟨c, next, rest, rfl, sign, space, digit⟩
        · rw [pjStrltrim, dropWhile_cons_of_neg space]
          apply iff_of_true rfl
          rintro ⟨sign', space', later, same, -, spaced, -⟩
          cases same
          exact space spaced
    · have visible : ¬pjIsspace c = true := by
        have head := head?_dropWhile_not pjIsspace str
        rw [show str.dropWhile pjIsspace = c :: rest from trimmed] at head
        simpa using head
      rw [splitSign, if_neg sign]
      rw [pjStrltrim, dropWhile_cons_of_neg visible]
      apply iff_of_true rfl
      rintro ⟨sign', space', later, same, signs, -⟩
      cases same
      exact sign signs

/-- White space behind the sign is skipped. -/
theorem strtol_skips_space :
    pjStrtol2 (ofChars ['-', ' ', '5']) = (.success, some (-5)) ∧
      lawLong (ofChars ['-', ' ', '5']) = (.einval, none) := by
  decide +kernel

end Pj.Strtol
