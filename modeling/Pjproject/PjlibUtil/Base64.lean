import Pjproject.Pjlib.Int
import Pjproject.Pjlib.Str

/-!
# Base64

`base64.c`. A buffer is the list of the bytes that are written to it, and its capacity an argument;
a function without a result returns `PJ_ETOOSMALL`. A sextet is kept as the low byte of the `int`
of the source, the only one that counts.
-/

namespace Pj.Base64
open List

/-- `PADDING`. -/
def padding : UInt8 := 61

/-- `INV`, which is -1. -/
def inv : UInt8 := 255

/-- `base64_char`. -/
def base64Char : List UInt8 :=
  ofChars "ABCDEFGHIJKLMNOPQRSTUVWXYZabcdefghijklmnopqrstuvwxyz0123456789+/".toList

/-- `base256_char`. -/
def base256Char (c : UInt8) : UInt8 :=
  if 65 ≤ c ∧ c ≤ 90 then c - 65
  else if 97 ≤ c ∧ c ≤ 122 then c - 97 + 26
  else if 48 ≤ c ∧ c ≤ 57 then c - 48 + 52
  else if c = 43 then 62
  else if c = 47 then 63
  else inv

/-- `PJ_BASE256_TO_BASE64_LEN`. -/
def pjBase256ToBase64Len (len : Int) : Int := i32 ((i32 (len * 4)).tdiv 3 + 3)

/-- `PJ_BASE64_TO_BASE256_LEN`. -/
def pjBase64ToBase256Len (len : Int) : Int := (i32 (len * 3)).tdiv 4

/-- The first sextet of three bytes. -/
def sextet1 (c1 : UInt8) : UInt8 := c1 >>> 2

/-- The second one. -/
def sextet2 (c1 c2 : UInt8) : UInt8 := ((c1 &&& 0x3) <<< 4) ||| ((c2 &&& 0xF0) >>> 4)

/-- The third one. -/
def sextet3 (c2 c3 : UInt8) : UInt8 := ((c2 &&& 0xF) <<< 2) ||| ((c3 &&& 0xC0) >>> 6)

/-- The last one. -/
def sextet4 (c3 : UInt8) : UInt8 := c3 &&& 0x3F

/-- The character of a sextet. -/
def char64 (sextet : UInt8) : UInt8 := base64Char.getD sextet.toNat 0

/-- `base256to64`. -/
def base256to64 (c1 c2 c3 : UInt8) (pad : Nat) : Str :=
  match pad with
  | 0 => [char64 (sextet1 c1), char64 (sextet2 c1 c2), char64 (sextet3 c2 c3), char64 (sextet4 c3)]
  | 1 => [char64 (sextet1 c1), char64 (sextet2 c1 c2), char64 (sextet3 c2 c3), padding]
  | _ => [char64 (sextet1 c1), char64 (sextet2 c1 c2), padding, padding]

/-- The loop of `pj_base64_encode`. -/
def encodeFrom : Str → Str
  | [] => []
  | [c1] => base256to64 c1 0 0 2
  | [c1, c2] => base256to64 c1 c2 0 1
  | c1 :: c2 :: c3 :: rest => base256to64 c1 c2 c3 0 ++ encodeFrom rest

/-- `pj_base64_encode`, with the text and its length. -/
def pjBase64Encode (input : Str) (outLen : Int) : Option (Str × Int) :=
  if pjBase256ToBase64Len input.length ≤ outLen then
    some (encodeFrom input, i32 (encodeFrom input).length)
  else none

/-- The text that `pj_base64_decode` reads, without the padding at its end. -/
def stripPadding (text : Str) : Str := (text.reverse.dropWhile (· = padding)).reverse

/-- The next sextet, after the invalid characters before it. -/
def nextSextet : Str → UInt8 × Str
  | [] => (inv, [])
  | byte :: rest =>
    if base256Char byte = inv ∧ rest ≠ [] then nextSextet rest else (base256Char byte, rest)

/-- The loop that fills `c`. -/
def fill : Nat → Str → List UInt8 × Str
  | 0, text => ([], text)
  | _ + 1, [] => ([], [])
  | k + 1, byte :: rest =>
    let (c, rest) := nextSextet (byte :: rest)
    let (later, rest) := fill k rest
    (c :: later, rest)

/-- The first byte of four sextets. -/
def byte1 (c0 c1 : UInt8) : UInt8 := (c0 <<< 2) ||| ((c1 &&& 0x30) >>> 4)

/-- The second one. -/
def byte2 (c1 c2 : UInt8) : UInt8 := ((c1 &&& 0x0F) <<< 4) ||| ((c2 &&& 0x3C) >>> 2)

/-- The third one. -/
def byte3 (c2 c3 : UInt8) : UInt8 := ((c2 &&& 0x03) <<< 6) ||| (c3 &&& 0x3F)

/-- The loop of `pj_base64_decode`. A turn reads a character, so the length of the text is enough
fuel. -/
def decodeFrom : Nat → Str → Option Str
  | _, [] => some []
  | 0, _ :: _ => none
  | fuel + 1, byte :: rest =>
    match fill 4 (byte :: rest) with
    | ([c0, c1, c2, c3], rest) => do
      let out ← decodeFrom fuel rest
      return byte1 c0 c1 :: byte2 c1 c2 :: byte3 c2 c3 :: out
    | ([c0, c1, c2], _) => some [byte1 c0 c1, byte2 c1 c2]
    | ([c0, c1], _) => some [byte1 c0 c1]
    | _ => some []

/-- `pj_base64_decode`, with the bytes and their number. -/
def pjBase64Decode (input : Str) (outLen : Int) : Option (Str × Int) := do
  let text := stripPadding input
  guard (pjBase64ToBase256Len text.length ≤ outLen)
  let out ← decodeFrom text.length text
  return (out, i32 out.length)

/-! ## Sextets and bytes -/

section sextets
-- The facts about one byte are decided for each of its values.
set_option maxRecDepth 3000

/-- A mask of bits that come from two sides. -/
theorem mask_or (left right mask : UInt8) :
    (left ||| right) &&& mask = left &&& mask ||| right &&& mask := by
  apply UInt8.toBitVec_inj.mp
  ext i bound
  simp [Bool.and_or_distrib_right]

/-- A value without the high bits is a sextet. -/
theorem lt_of_mask {value : UInt8} (h : value &&& 0xC0 = 0) : value < 64 :=
  every_byte (P := fun value => value &&& 0xC0 = 0 → value < 64) (by decide) value h

/-- The sextets of three bytes give the bytes again. -/
theorem byte1_sextets (c1 c2 : UInt8) : byte1 (sextet1 c1) (sextet2 c1 c2) = c1 := by
  have other : (c2 &&& 0xF0) >>> 4 &&& 0x30 = 0 :=
    every_byte (P := fun c2 => (c2 &&& 0xF0) >>> 4 &&& 0x30 = 0) (by decide) c2
  have own : (c1 >>> 2) <<< 2 ||| ((c1 &&& 0x3) <<< 4 &&& 0x30) >>> 4 = c1 :=
    every_byte (P := fun c1 => (c1 >>> 2) <<< 2 ||| ((c1 &&& 0x3) <<< 4 &&& 0x30) >>> 4 = c1)
      (by decide) c1
  rw [byte1, sextet1, sextet2, mask_or, other, UInt8.or_zero]
  exact own

theorem byte2_sextets (c1 c2 c3 : UInt8) : byte2 (sextet2 c1 c2) (sextet3 c2 c3) = c2 := by
  have before : (c1 &&& 0x3) <<< 4 &&& 0x0F = 0 :=
    every_byte (P := fun c1 => (c1 &&& 0x3) <<< 4 &&& 0x0F = 0) (by decide) c1
  have after : (c3 &&& 0xC0) >>> 6 &&& 0x3C = 0 :=
    every_byte (P := fun c3 => (c3 &&& 0xC0) >>> 6 &&& 0x3C = 0) (by decide) c3
  have own : ((c2 &&& 0xF0) >>> 4 &&& 0x0F) <<< 4 ||| ((c2 &&& 0xF) <<< 2 &&& 0x3C) >>> 2 = c2 :=
    every_byte (P := fun c2 =>
      ((c2 &&& 0xF0) >>> 4 &&& 0x0F) <<< 4 ||| ((c2 &&& 0xF) <<< 2 &&& 0x3C) >>> 2 = c2)
      (by decide) c2
  rw [byte2, sextet2, sextet3, mask_or, mask_or, before, after, UInt8.zero_or, UInt8.or_zero]
  exact own

theorem byte3_sextets (c2 c3 : UInt8) : byte3 (sextet3 c2 c3) (sextet4 c3) = c3 := by
  have before : (c2 &&& 0xF) <<< 2 &&& 0x03 = 0 :=
    every_byte (P := fun c2 => (c2 &&& 0xF) <<< 2 &&& 0x03 = 0) (by decide) c2
  have own : ((c3 &&& 0xC0) >>> 6 &&& 0x03) <<< 6 ||| (c3 &&& 0x3F &&& 0x3F) = c3 :=
    every_byte (P := fun c3 => ((c3 &&& 0xC0) >>> 6 &&& 0x03) <<< 6 ||| (c3 &&& 0x3F &&& 0x3F) = c3)
      (by decide) c3
  rw [byte3, sextet3, sextet4, mask_or, before, UInt8.zero_or]
  exact own

/-- A sextet is below 64, and its character is that of no other one and no padding. -/
theorem base256Char_char64 {sextet : UInt8} (h : sextet < 64) :
    base256Char (char64 sextet) = sextet ∧ char64 sextet ≠ padding := by
  refine every_byte (P := fun sextet => sextet < 64 →
    base256Char (char64 sextet) = sextet ∧ char64 sextet ≠ padding) ?_ sextet h
  decide

theorem sextet1_lt (c1 : UInt8) : sextet1 c1 < 64 :=
  every_byte (P := fun c1 => sextet1 c1 < 64) (by decide) c1

theorem sextet4_lt (c3 : UInt8) : sextet4 c3 < 64 :=
  every_byte (P := fun c3 => sextet4 c3 < 64) (by decide) c3

theorem sextet2_lt (c1 c2 : UInt8) : sextet2 c1 c2 < 64 := by
  have high : (c1 &&& 0x3) <<< 4 &&& 0xC0 = 0 :=
    every_byte (P := fun c1 => (c1 &&& 0x3) <<< 4 &&& 0xC0 = 0) (by decide) c1
  have low : (c2 &&& 0xF0) >>> 4 &&& 0xC0 = 0 :=
    every_byte (P := fun c2 => (c2 &&& 0xF0) >>> 4 &&& 0xC0 = 0) (by decide) c2
  apply lt_of_mask
  rw [sextet2, mask_or, high, low]
  rfl

theorem sextet3_lt (c2 c3 : UInt8) : sextet3 c2 c3 < 64 := by
  have high : (c2 &&& 0xF) <<< 2 &&& 0xC0 = 0 :=
    every_byte (P := fun c2 => (c2 &&& 0xF) <<< 2 &&& 0xC0 = 0) (by decide) c2
  have low : (c3 &&& 0xC0) >>> 6 &&& 0xC0 = 0 :=
    every_byte (P := fun c3 => (c3 &&& 0xC0) >>> 6 &&& 0xC0 = 0) (by decide) c3
  apply lt_of_mask
  rw [sextet3, mask_or, high, low]
  rfl

end sextets

/-! ## Decoding by sextets -/

/-- The characters of the alphabet in a text. -/
def alphabetOnly (text : Str) : Str := text.filter fun c => base256Char c ≠ inv

/-- The last character of a text is not in the alphabet. -/
def endsInvalid (text : Str) : Bool := text.getLast?.any fun c => base256Char c = inv

/-- The sextets that fill the groups: invalid characters at the end leave their mark. -/
def sextets : Str → List UInt8
  | [] => []
  | c :: rest =>
    if base256Char c = inv ∧ rest ≠ [] then sextets rest else base256Char c :: sextets rest

/-- The bytes of sextets. -/
def bytesOf : List UInt8 → Str
  | c0 :: c1 :: c2 :: c3 :: rest => byte1 c0 c1 :: byte2 c1 c2 :: byte3 c2 c3 :: bytesOf rest
  | [c0, c1, c2] => [byte1 c0 c1, byte2 c1 c2]
  | [c0, c1] => [byte1 c0 c1]
  | [_] | [] => []

theorem sextets_eq_nil {text : Str} (h : sextets text = []) : text = [] := by
  fun_induction sextets text with
  | case1 => rfl
  | case2 c rest skipped ih => exact absurd (ih h) skipped.2
  | case3 c rest => cases h

/-- The next sextet is the first one. -/
theorem nextSextet_spec (c : UInt8) (rest : Str) :
    sextets (c :: rest) = (nextSextet (c :: rest)).1 :: sextets (nextSextet (c :: rest)).2 ∧
      (nextSextet (c :: rest)).2.length ≤ rest.length := by
  induction rest generalizing c with
  | nil => simp [sextets, nextSextet]
  | cons next rest ih =>
    rw [sextets, nextSextet]
    split
    · exact ⟨(ih next).1, Nat.le_succ_of_le (ih next).2⟩
    · exact ⟨rfl, Nat.le_refl _⟩

theorem fill_spec (k : Nat) (text : Str) :
    (fill k text).1 = (sextets text).take k ∧ sextets (fill k text).2 = (sextets text).drop k ∧
      (fill k text).2.length ≤ text.length - k := by
  induction k generalizing text with
  | zero => exact ⟨rfl, rfl, Nat.le_refl _⟩
  | succ k ih =>
    cases text with
    | nil => exact ⟨rfl, rfl, Nat.zero_le _⟩
    | cons c rest =>
      have next := nextSextet_spec c rest
      have later := ih (nextSextet (c :: rest)).2
      rw [fill, next.1]
      refine ⟨congrArg _ later.1, later.2.1, ?_⟩
      have short := later.2.2
      rw [length_cons]
      dsimp only
      omega

/-- The loop decodes the sextets. -/
theorem decodeFrom_eq (text : Str) {fuel : Nat} (enough : text.length ≤ fuel) :
    decodeFrom fuel text = some (bytesOf (sextets text)) := by
  induction fuel generalizing text with
  | zero =>
    rw [length_eq_zero_iff.mp (Nat.le_zero.mp enough)]
    rfl
  | succ fuel ih =>
    cases text with
    | nil => rfl
    | cons c rest =>
      have filled := fill_spec 4 (c :: rest)
      cases group : fill 4 (c :: rest) with
      | mk sextet later =>
        rw [group] at filled
        have decoded := ih later (by simp only [length_cons] at enough filled; omega)
        rw [decodeFrom, group]
        have nonempty : sextets (c :: rest) ≠ [] := fun none => nomatch sextets_eq_nil none
        rw [filled.2.1] at decoded
        obtain rfl : sextet = _ := filled.1
        generalize sextets (c :: rest) = all at decoded nonempty
        rcases all with _ | ⟨c0, _ | ⟨c1, _ | ⟨c2, _ | ⟨c3, all⟩⟩⟩⟩
        · exact absurd rfl nonempty
        · rfl
        · rfl
        · rfl
        · change (decodeFrom fuel later >>= _) = _
          rw [decoded]
          rfl

/-! ## Decoding what is encoded -/

/-- The characters of the alphabet are read one by one. -/
theorem sextets_char64 {all : List UInt8} (small : ∀ sextet ∈ all, sextet < 64) :
    sextets (all.map char64) = all := by
  induction all with
  | nil => rfl
  | cons sextet all ih =>
    have value := (base256Char_char64 (small sextet mem_cons_self)).1
    have valid : sextet ≠ inv := by
      rintro rfl
      exact absurd (small inv mem_cons_self) (by decide)
    rw [map_cons, sextets, value, if_neg fun invalid => valid invalid.1,
      ih fun other member => small other (mem_cons_of_mem sextet member)]

/-- The text without the padding. -/
def body : Str → List UInt8
  | [] => []
  | [c1] => [sextet1 c1, sextet2 c1 0]
  | [c1, c2] => [sextet1 c1, sextet2 c1 c2, sextet3 c2 0]
  | c1 :: c2 :: c3 :: rest =>
    sextet1 c1 :: sextet2 c1 c2 :: sextet3 c2 c3 :: sextet4 c3 :: body rest

/-- The number of padding characters. -/
def padCount (input : Str) : Nat := (3 - input.length % 3) % 3

section
variable (input : Str)
include input

theorem body_lt : ∀ sextet ∈ body input, sextet < 64 := by
  fun_induction body input with
  | case1 => nofun
  | case2 c1 => simp [sextet1_lt, sextet2_lt]
  | case3 c1 c2 => simp [sextet1_lt, sextet2_lt, sextet3_lt]
  | case4 c1 c2 c3 rest ih => simpa [sextet1_lt, sextet2_lt, sextet3_lt, sextet4_lt] using ih

theorem length_body : (body input).length = (input.length * 4 + 2) / 3 := by
  fun_induction body input with
  | case1 => rfl
  | case2 c1 => simp
  | case3 c1 c2 => simp
  | case4 c1 c2 c3 rest ih =>
    simp only [length_cons, ih]
    omega

theorem encodeFrom_eq : encodeFrom input =
    (body input).map char64 ++ List.replicate (padCount input) padding := by
  fun_induction body input with
  | case1 => rfl
  | case2 c1 => rfl
  | case3 c1 c2 => rfl
  | case4 c1 c2 c3 rest ih =>
    have pads : padCount (c1 :: c2 :: c3 :: rest) = padCount rest := by
      simp only [padCount, length_cons]
      omega
    rw [encodeFrom, ih, pads]
    rfl

/-- Four characters for every three bytes or less. -/
theorem length_encodeFrom : (encodeFrom input).length = 4 * ((input.length + 2) / 3) := by
  rw [encodeFrom_eq, length_append, length_map, length_body, length_replicate,
    padCount]
  omega

/-- Padding at the end is not read, whether it is there or not. -/
theorem stripPadding_body (count : Nat) :
    stripPadding ((body input).map char64 ++ List.replicate count padding) =
      (body input).map char64 := by
  have pads : ∀ byte ∈ List.replicate count padding, decide (byte = padding) = true := by
    intro byte member
    exact decide_eq_true (eq_of_mem_replicate member)
  rw [stripPadding, reverse_append, reverse_replicate, dropWhile_append_of_pos pads]
  cases last : ((body input).map char64).reverse with
  | nil => exact (reverse_eq_nil_iff.mp last).symm
  | cons byte before =>
    have member : byte ∈ (body input).map char64 := by
      rw [← mem_reverse, last]
      exact mem_cons_self
    obtain ⟨sextet, inside, rfl⟩ := mem_map.mp member
    have other := (base256Char_char64 (body_lt input sextet inside)).2
    rw [dropWhile_cons_of_neg (by simpa using other), ← last, reverse_reverse]

/-- The loop reads the bytes back. -/
theorem bytesOf_body : bytesOf (body input) = input := by
  fun_induction body input with
  | case1 => rfl
  | case2 c1 => rw [bytesOf, byte1_sextets]
  | case3 c1 c2 => rw [bytesOf, byte1_sextets, byte2_sextets]
  | case4 c1 c2 c3 rest ih => rw [bytesOf, ih, byte1_sextets, byte2_sextets, byte3_sextets]

end

/-- A product read as an `int` and divided is no more than the quotient. -/
theorem tdiv_i32_le (value : Nat) {divisor : Int} (positive : 0 < divisor) :
    (i32 value).tdiv divisor ≤ value / divisor := by
  have less := Int.tdiv_le_tdiv positive (i32_natCast_le value)
  rw [Int.natCast_tdiv_eq_ediv] at less
  exact less

theorem i32_bounds (value : Int) : (i32 value).natAbs ≤ 2 ^ 31 := by
  rw [i32_eq, Int.bmod_def]
  split <;> omega

theorem pjBase256ToBase64Len_le (len : Nat) :
    pjBase256ToBase64Len len ≤ ((len * 4 / 3 + 3 : Nat) : Int) := by
  have high : (i32 ((len : Int) * 4)).tdiv 3 ≤ ((len * 4 : Nat) : Int) / 3 :=
    tdiv_i32_le (len * 4) (by decide)
  have low := Nat.le_trans (Int.natAbs_tdiv_le_natAbs (i32 ((len : Int) * 4)) 3) (i32_bounds _)
  rw [pjBase256ToBase64Len]
  generalize (i32 ((len : Int) * 4)).tdiv 3 = quotient at high low ⊢
  rw [i32_eq, Int.bmod_def]
  split <;> omega

theorem pjBase64ToBase256Len_le {len given : Nat} (h : len ≤ given) :
    pjBase64ToBase256Len len ≤ ((given * 3 / 4 : Nat) : Int) := by
  have high : (i32 ((len : Int) * 3)).tdiv 4 ≤ ((len * 3 : Nat) : Int) / 4 :=
    tdiv_i32_le (len * 3) (by decide)
  exact Int.le_trans high (by omega)

/-- A text encoded from any bytes is decoded to them, with its padding or without it. -/
theorem base64_round_trip (input : Str) (outLen : Int) (room : input.length * 4 / 3 + 3 ≤ outLen)
    (int : outLen < 2 ^ 31) :
    ∃ text : Str, pjBase64Encode input outLen = some (text, (text.length : Int)) ∧
      text.length = 4 * ((input.length + 2) / 3) ∧ text.length ≤ outLen ∧
      ∀ given ∈ [text, stripPadding text], ∀ outLen' : Int, given.length * 3 / 4 ≤ outLen' →
        pjBase64Decode given outLen' = some (input, (input.length : Int)) ∧
          input.length ≤ outLen' := by
  have length := length_encodeFrom input
  have stripped := stripPadding_body input
  refine ⟨encodeFrom input, ?_, length, by omega, fun given member outLen' room' => ?_⟩
  · have fits := pjBase256ToBase64Len_le input.length
    rw [pjBase64Encode, if_pos (Int.le_trans fits (by omega)), i32_natCast (by omega)]
  · have read : stripPadding given = (body input).map char64 ∧
        (body input).length ≤ given.length := by
      rcases mem_cons.mp member with rfl | member
      · rw [encodeFrom_eq]
        refine ⟨stripped _, ?_⟩
        simp
      · obtain rfl := mem_singleton.mp member
        have bare := stripped 0
        rw [replicate_zero, append_nil] at bare
        rw [encodeFrom_eq, stripped, bare, length_map]
        exact ⟨rfl, Nat.le_refl _⟩
    have few := length_body input
    have fits := pjBase64ToBase256Len_le read.2
    rw [pjBase64Decode, read.1, length_map, guard, if_pos (Int.le_trans fits (by omega)),
      decodeFrom_eq _ (Nat.le_of_eq (length_map _)), sextets_char64 (body_lt input),
      bytesOf_body]
    refine ⟨?_, by omega⟩
    have counted : i32 input.length = input.length := i32_natCast (by omega)
    exact congrArg (fun length => some (input, length)) counted

/-- A text with padding and one without. -/
theorem base64_round_trip_bytes :
    ∃ text : Str, pjBase64Encode [77, 97] 5 = some (text, (text.length : Int)) ∧ text.length = 4 :=
  let ⟨text, encoded, length, _⟩ := base64_round_trip [77, 97] 5 (by decide) (by decide)
  ⟨text, encoded, length⟩

/-! ## Characters outside of the alphabet -/

/-- The mark of invalid characters at the end gives no bytes behind whole groups only. -/
theorem bytesOf_mark (all : List UInt8) :
    bytesOf (all ++ [inv]) = bytesOf all ↔ all.length % 4 = 0 := by
  fun_induction bytesOf all with
  | case1 c0 c1 c2 c3 rest ih =>
    simp only [cons_append, bytesOf, List.cons.injEq, true_and, ih, length_cons]
    omega
  | case2 c0 c1 c2 => simp [bytesOf]
  | case3 c0 c1 => simp [bytesOf]
  | case4 c0 => simp [bytesOf]
  | case5 => simp [bytesOf]

theorem length_bytesOf_le (all : List UInt8) : (bytesOf all).length ≤ all.length * 3 / 4 := by
  fun_induction bytesOf all with
  | case1 c0 c1 c2 c3 rest ih =>
    simp only [length_cons]
    omega
  | case2 c0 c1 c2 => simp
  | case3 c0 c1 => simp
  | case4 c0 => simp
  | case5 => simp

section
variable (text : Str)
include text

/-- The sextets of a text are those of its characters of the alphabet, and the mark of an invalid one
at its end. -/
theorem sextets_eq : sextets text =
    (alphabetOnly text).map base256Char ++ if endsInvalid text then [inv] else [] := by
  induction text with
  | nil => rfl
  | cons c rest ih =>
    cases rest with
    | nil =>
      by_cases invalid : base256Char c = inv <;>
        simp [sextets, alphabetOnly, endsInvalid, invalid]
    | cons next rest =>
      have last : endsInvalid (c :: next :: rest) = endsInvalid (next :: rest) := by
        rfl
      rw [sextets, ih, last]
      by_cases invalid : base256Char c = inv
      · have skipped : alphabetOnly (c :: next :: rest) = alphabetOnly (next :: rest) :=
          filter_cons_of_neg (by simpa using invalid)
        rw [if_pos ⟨invalid, cons_ne_nil next rest⟩, skipped]
      · have kept : alphabetOnly (c :: next :: rest) = c :: alphabetOnly (next :: rest) :=
          filter_cons_of_pos (by simpa using invalid)
        rw [if_neg fun both => invalid both.1, kept]
        rfl

/-- The padding is not in the alphabet. -/
theorem alphabetOnly_stripPadding : alphabetOnly (stripPadding text) = alphabetOnly text := by
  have skipped : ∀ rest : Str, (rest.dropWhile (· = padding)).filter (fun c => base256Char c ≠ inv) =
      rest.filter fun c => base256Char c ≠ inv := by
    intro rest
    induction rest with
    | nil => rfl
    | cons c rest ih =>
      by_cases pad : c = padding
      · rw [dropWhile_cons_of_pos (by simpa using pad), ih, filter_cons_of_neg]
        rw [pad]
        decide
      · rw [dropWhile_cons_of_neg (by simpa using pad)]
  rw [alphabetOnly, stripPadding, filter_reverse, skipped, filter_reverse,
    reverse_reverse]
  rfl

/-- Without characters outside of the alphabet, there is no padding. -/
theorem stripPadding_alphabetOnly : stripPadding (alphabetOnly text) = alphabetOnly text := by
  rw [stripPadding]
  cases last : (alphabetOnly text).reverse with
  | nil => exact (reverse_eq_nil_iff.mp last).symm
  | cons c before =>
    have member : c ∈ alphabetOnly text := mem_reverse.mp (last ▸ mem_cons_self)
    have valid := (mem_filter.mp member).2
    rw [dropWhile_cons_of_neg, ← last, reverse_reverse]
    intro pad
    rw [of_decide_eq_true pad] at valid
    exact absurd valid (by decide)

theorem sextets_alphabetOnly :
    sextets (alphabetOnly text) = (alphabetOnly text).map base256Char := by
  have twice : alphabetOnly (alphabetOnly text) = alphabetOnly text := by
    simp [alphabetOnly]
  have valid : endsInvalid (alphabetOnly text) = false := by
    cases last : (alphabetOnly text).getLast? with
    | none => simp [endsInvalid, last]
    | some c =>
      have member := (mem_filter.mp (mem_of_getLast? last)).2
      simpa [endsInvalid, last] using member
  rw [sextets_eq, twice, valid]
  exact append_nil _

theorem length_stripPadding_le : (stripPadding text).length ≤ text.length := by
  have fewer := (dropWhile_sublist (l := text.reverse) fun c => decide (c = padding)).length_le
  rw [stripPadding, length_reverse]
  rwa [length_reverse] at fewer

theorem length_sextets_le : (sextets text).length ≤ text.length := by
  fun_induction sextets text with
  | case1 => exact Nat.le_refl _
  | case2 c rest skipped ih => exact Nat.le_succ_of_le ih
  | case3 c rest kept ih => exact Nat.succ_le_succ ih

end

/-- What is decoded, with room for it. -/
theorem pjBase64Decode_eq {text : Str} {given : Nat} (short : text.length ≤ given) {outLen : Int}
    (room : ((given * 3 / 4 : Nat) : Int) ≤ outLen) :
    pjBase64Decode text outLen = some (bytesOf (sextets (stripPadding text)),
      i32 (bytesOf (sextets (stripPadding text))).length) := by
  have fits := pjBase64ToBase256Len_le (Nat.le_trans (length_stripPadding_le text) short)
  rw [pjBase64Decode, guard, if_pos (Int.le_trans fits room), decodeFrom_eq _ (Nat.le_refl _)]
  rfl

/-- A text is decoded as without its characters outside of the alphabet, and to no more bytes than
there is room for by its length, exactly if none of them is behind an incomplete group at its end,
the padding apart. -/
theorem base64_ignores_iff (text : Str) :
    (∀ outLen : Int, text.length * 3 / 4 ≤ outLen →
      pjBase64Decode text outLen = pjBase64Decode (alphabetOnly text) outLen ∧
        ∀ result ∈ pjBase64Decode text outLen, result.1.length ≤ text.length * 3 / 4) ↔
      ¬(endsInvalid (stripPadding text) ∧ (alphabetOnly text).length % 4 ≠ 0) := by
  have same : ∀ outLen : Int, ((text.length * 3 / 4 : Nat) : Int) ≤ outLen →
      (pjBase64Decode text outLen = pjBase64Decode (alphabetOnly text) outLen ↔
        bytesOf (sextets (stripPadding text)) = bytesOf ((alphabetOnly text).map base256Char)) := by
    intro outLen room
    have fewer : (alphabetOnly text).length ≤ text.length := length_filter_le _ text
    rw [pjBase64Decode_eq (Nat.le_refl _) room, pjBase64Decode_eq fewer room,
      stripPadding_alphabetOnly, sextets_alphabetOnly]
    simp only [Option.some.injEq, Prod.mk.injEq, and_iff_left_iff_imp]
    intro bytes
    rw [bytes]
  rw [sextets_eq, alphabetOnly_stripPadding] at same
  constructor
  · intro ignores bad
    have read := (same _ (Int.le_refl _)).mp (ignores _ (by omega)).1
    rw [if_pos bad.1, bytesOf_mark, length_map] at read
    exact bad.2 read
  · intro good outLen room
    refine ⟨(same outLen (by omega)).mpr ?_, fun result member => ?_⟩
    · by_cases invalid : endsInvalid (stripPadding text) = true
      · rw [if_pos invalid, bytesOf_mark, length_map]
        by_contra bad
        exact good ⟨invalid, bad⟩
      · rw [if_neg invalid, append_nil]
    · rw [pjBase64Decode_eq (Nat.le_refl _) (by omega)] at member
      rw [← Option.some.inj member]
      have bytes := length_bytesOf_le (sextets (stripPadding text))
      have marks := length_sextets_le (stripPadding text)
      have stripped := length_stripPadding_le text
      dsimp only
      omega

/-- A line break behind the padding adds a byte. -/
theorem base64_reads_lineBreak :
    pjBase64Decode (ofChars ['T', 'W', 'E', '=', '\n']) 3 = some ([77, 97, 63], 3) ∧
      pjBase64Decode (alphabetOnly (ofChars ['T', 'W', 'E', '=', '\n'])) 3 = some ([77, 97], 2) := by
  decide +kernel

end Pj.Base64
