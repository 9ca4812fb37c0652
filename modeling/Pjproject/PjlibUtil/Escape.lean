import Pjproject.PjlibUtil.ScanMemory

/-!
# Percent escapes

`string.c` of pjlib-util. A set of characters is a predicate, and a position in a buffer the number
of bytes that are left before its end.
-/

namespace Pj.Escape
open List ScanMemory

/-- `pj_val_to_hex_digit`. -/
def pjValToHexDigit (value : UInt8) : Str := [hexDigit (value >>> 4), hexDigit (value &&& 15)]
where
  /-- `pj_hex_digits`. -/
  hexDigit (digit : UInt8) : UInt8 := if digit < 10 then digit + 48 else digit + 87

/-- The loop of `pj_strncpy2_escape`: what is written before `dst_end`, and what is left of the
source. -/
def escapeLoop (unres : UInt8 → Bool) : Str → Nat → Str × Str
  | [], _ => ([], [])
  | byte :: src, room =>
    if room = 0 then ([], byte :: src)
    else if unres byte then
      let (dst, left) := escapeLoop unres src (room - 1)
      (byte :: dst, left)
    else if 2 < room then
      let (dst, left) := escapeLoop unres src (room - 3)
      (37 :: pjValToHexDigit byte ++ dst, left)
    else ([], byte :: src)

/-- `pj_strncpy2_escape`: what it returns, and what it writes. -/
def pjStrncpy2Escape (src : Str) (max : Int) (unres : UInt8 → Bool) : Int × Str :=
  if max < src.length then (-1, [])
  else
    let (dst, left) := escapeLoop unres src max.toNat
    (if left = [] then dst.length else -1, dst)

/-- The loops of the functions that unescape, with the digits that they take. -/
def unescapeLoop (digits : UInt8 → Bool) : Str → Str
  | 37 :: high :: low :: src =>
    if digits high && digits low then
      ((hexDigitToVal high <<< 4) + hexDigitToVal low) :: unescapeLoop digits src
    else 37 :: unescapeLoop digits (high :: low :: src)
  | byte :: src => byte :: unescapeLoop digits src
  | [] => []

/-- `pj_str_unescape`. -/
def pjStrUnescape (src : Str) : Str := if 37 ∉ src then src else unescapeLoop isxdigit src

/-- `pj_strcpy_unescape`, which does not look at the digits. -/
def pjStrcpyUnescape (src : Str) : Str := unescapeLoop (fun _ => true) src

/-- The escaped form of a byte. -/
def escaped (unres : UInt8 → Bool) (byte : UInt8) : Str :=
  if unres byte then [byte] else 37 :: pjValToHexDigit byte

variable {unres : UInt8 → Bool} {src : Str} {room : Nat}

/-- What the loop leaves of a source with an escaped form: it is inside the room, and it comes to the
end if the form is. -/
structure Copied (form : Str) (room : Nat) (out : Str × Str) : Prop where
  inside : out.1.length ≤ room
  fits : out.2 = [] ↔ form.length ≤ room
  whole : out.2 = [] → out.1 = form

theorem copied_short {form : Str} (short : room < form.length) (byte : UInt8) (src : Str) :
    Copied form room ([], byte :: src) :=
  ⟨Nat.zero_le _, iff_of_false (cons_ne_nil byte src) (Nat.not_le.mpr short), nofun⟩

theorem Copied.behind {part form : Str} {out : Str × Str} (enough : part.length ≤ room)
    (h : Copied form (room - part.length) out) : Copied (part ++ form) room
    (part ++ out.1, out.2) := by
  constructor
  · have inside := h.inside
    rw [length_append]
    omega
  · rw [h.fits, length_append]
    omega
  · exact fun ended => congrArg (part ++ ·) (h.whole ended)

theorem escapeLoop_copied (src : Str) (room : Nat) :
    Copied (src.flatMap (escaped unres)) room (escapeLoop unres src room) := by
  induction src generalizing room with
  | nil => exact ⟨Nat.zero_le _, iff_of_true rfl (Nat.zero_le _), fun _ => rfl⟩
  | cons byte src ih =>
    rw [flatMap_cons, escaped, escapeLoop]
    have three : (37 :: pjValToHexDigit byte).length = 3 := rfl
    by_cases plain : unres byte = true
    · rw [if_pos plain, if_pos plain]
      split
      · apply copied_short
        rw [length_append, length_singleton]
        omega
      · exact (ih (room - 1)).behind (by rw [length_singleton]; omega)
    · rw [if_neg plain, if_neg plain]
      have short (few : room ≤ 2) : Copied (37 :: pjValToHexDigit byte ++ src.flatMap (escaped
        unres)) room
          ([], byte :: src) := by
        apply copied_short
        rw [length_append, three]
        omega
      split
      · exact short (by omega)
      · split
        · exact (ih (room - 3)).behind (by omega)
        · exact short (by omega)

variable {digits : UInt8 → Bool}

set_option maxRecDepth 3000 in
/-- The digits of a byte give it back. -/
theorem unescapeLoop_digits (all : ∀ byte, isxdigit byte → digits byte) (byte : UInt8)
    (rest : Str) :
    unescapeLoop digits (37 :: pjValToHexDigit byte ++ rest) = byte :: unescapeLoop digits rest := by
  let high := pjValToHexDigit.hexDigit (byte >>> 4)
  let low := pjValToHexDigit.hexDigit (byte &&& 15)
  have value : isxdigit high ∧ isxdigit low ∧ (hexDigitToVal high <<< 4) + hexDigitToVal low =
    byte :=
    every_byte (P := fun byte => isxdigit (pjValToHexDigit.hexDigit (byte >>> 4)) ∧
      isxdigit (pjValToHexDigit.hexDigit (byte &&& 15)) ∧
      (hexDigitToVal (pjValToHexDigit.hexDigit (byte >>> 4)) <<< 4) +
        hexDigitToVal (pjValToHexDigit.hexDigit (byte &&& 15)) = byte) (by decide) byte
  change unescapeLoop digits (37 :: high :: low :: rest) = _
  rw [unescapeLoop, all high value.1, all low value.2.1, value.2.2]
  rfl

/-- Other bytes stay. -/
theorem unescapeLoop_plain (digits : UInt8 → Bool) {byte : UInt8} (other : byte ≠ 37) (rest : Str) :
    unescapeLoop digits (byte :: rest) = byte :: unescapeLoop digits rest := by
  rw [unescapeLoop]
  intro high low src same
  exact absurd same other

theorem unescapeLoop_escaped (all : ∀ byte, isxdigit byte → digits byte)
    (percent : unres 37 = false) (src : Str) :
    unescapeLoop digits (src.flatMap (escaped unres)) = src := by
  induction src with
  | nil => rfl
  | cons byte src ih =>
    rw [flatMap_cons, escaped]
    split
    · next plain =>
      have other : byte ≠ 37 := by
        rintro rfl
        exact Bool.noConfusion (percent.symm.trans plain)
      rw [singleton_append, unescapeLoop_plain digits other, ih]
    · rw [unescapeLoop_digits all, ih]

theorem unescapeLoop_none (digits : UInt8 → Bool) (none : 37 ∉ src) :
    unescapeLoop digits src = src := by
  induction src with
  | nil => rfl
  | cons byte src ih =>
    rw [mem_cons, not_or] at none
    rw [unescapeLoop_plain digits (Ne.symm none.1), ih none.2]

theorem pjStrUnescape_eq (src : Str) : pjStrUnescape src = unescapeLoop isxdigit src := by
  rw [pjStrUnescape]
  split
  · next none => exact (unescapeLoop_none isxdigit none).symm
  · rfl

/-- A string is escaped, and comes back: the room is enough, or the function fails. -/
structure Escapes (unres : UInt8 → Bool) (src : Str) (max result : Int) (dst : Str) : Prop where
  inside : dst.length ≤ max.toNat
  succeeds : 0 ≤ result ↔ ((src.flatMap (escaped unres)).length : Int) ≤ max
  written : 0 ≤ result → result = dst.length
  back : 0 ≤ result → pjStrUnescape dst = src ∧ pjStrcpyUnescape dst = src

theorem length_le_escaped (src : Str) : src.length ≤ (src.flatMap (escaped unres)).length := by
  induction src with
  | nil => exact Nat.zero_le _
  | cons byte src ih =>
    have one : 1 ≤ (escaped unres byte).length := by
      rw [escaped]
      split <;> exact Nat.succ_le_succ (Nat.zero_le _)
    rw [flatMap_cons, length_append, length_cons]
    omega

/-- Escaping a string with characters of which `%` is none, to any room. -/
theorem pjStrncpy2Escape_escapes (percent : unres 37 = false) (src : Str) (max : Int) :
    Escapes unres src max (pjStrncpy2Escape src max unres).1 (pjStrncpy2Escape src max unres).2 := by
  have long := @length_le_escaped unres src
  unfold pjStrncpy2Escape
  split
  · exact ⟨Nat.zero_le _, iff_of_false (by decide : ¬(0 : Int) ≤ -1) (by omega), nofun, nofun⟩
  · have copied := @escapeLoop_copied unres src max.toNat
    generalize escapeLoop unres src max.toNat = out at copied ⊢
    by_cases ended : out.2 = []
    · have fits := copied.fits.mp ended
      have back {digits : UInt8 → Bool} (all : ∀ byte, isxdigit byte → digits byte) :
          unescapeLoop digits out.1 = src := copied.whole ended ▸ unescapeLoop_escaped all percent
            src
      simp only [if_pos ended]
      constructor
      · exact copied.inside
      · exact iff_of_true (Int.natCast_nonneg _) (by omega)
      · exact fun _ => rfl
      · exact fun _ => ⟨(pjStrUnescape_eq _).trans (back fun _ digit => digit), back fun _ _ => rfl⟩
    · have short := mt copied.fits.mpr ended
      simp only [if_neg ended]
      exact ⟨copied.inside, iff_of_false (by decide : ¬(0 : Int) ≤ -1) (by omega), nofun, nofun⟩

/-- A space and a percent sign are escaped. -/
theorem pjStrncpy2Escape_escapes_space :
    let unres : UInt8 → Bool := fun byte => 65 ≤ byte
    pjStrncpy2Escape [97, 32, 37] 7 unres = (7, [97, 37, 50, 48, 37, 50, 53]) ∧
      Escapes unres [97, 32, 37] 7 7 [97, 37, 50, 48, 37, 50, 53] :=
  ⟨by decide, pjStrncpy2Escape_escapes (by decide) [97, 32, 37] 7⟩

end Pj.Escape
