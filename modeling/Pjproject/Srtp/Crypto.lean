import Pjproject.Pjlib.Strtok
import Pjproject.PjlibUtil.Base64
import Pjproject.Sdp.Attr
import Pjproject.Stun.Errno

/-!
# Crypto suites and their attribute

`transport_srtp.c` and `transport_srtp_sdes.c`: the crypto suites that the default configuration has,
and the value of the crypto attribute of SDP, which carries a tag, the name of a suite and a key in
base64. Of a suite only the name and the length of its key are modelled.
-/

namespace Pjmedia.Srtp
open List Pj Pj.Base64 Pjmedia.Sdp Pjnath.Stun

/-! ## Statuses -/

/-- `PJMEDIA_SDP_EINATTR`. -/
def pjmediaSdpEinattr : Int := 220027

/-- `PJMEDIA_SDP_EINPROTO`. -/
def pjmediaSdpEinproto : Int := 220036

/-- `PJMEDIA_SRTP_ECRYPTONOTMATCH`. -/
def pjmediaSrtpEcryptonotmatch : Int := 220220

/-- `PJMEDIA_SRTP_EINKEYLEN`. -/
def pjmediaSrtpEinkeylen : Int := 220221

/-- `PJMEDIA_SRTP_ENOTSUPCRYPTO`. -/
def pjmediaSrtpEnotsupcrypto : Int := 220222

/-- `PJMEDIA_SRTP_ESDPAMBIGUEANS`. -/
def pjmediaSrtpEsdpambigueans : Int := 220223

/-- `PJMEDIA_SRTP_ESDPDUPCRYPTOTAG`. -/
def pjmediaSrtpEsdpdupcryptotag : Int := 220224

/-- `PJMEDIA_SRTP_ESDPINCRYPTO`. -/
def pjmediaSrtpEsdpincrypto : Int := 220225

/-- `PJMEDIA_SRTP_ESDPINCRYPTOTAG`. -/
def pjmediaSrtpEsdpincryptotag : Int := 220226

/-- `PJMEDIA_SRTP_ESDPINTRANSPORT`. -/
def pjmediaSrtpEsdpintransport : Int := 220227

/-- `PJMEDIA_SRTP_ESDPREQCRYPTO`. -/
def pjmediaSrtpEsdpreqcrypto : Int := 220228

/-- `PJMEDIA_SRTP_EKEYNOTREADY`. -/
def pjmediaSrtpEkeynotready : Int := 220230

/-- `PJ_ETOOBIG`. -/
def pjEtoobig : Int := 70017

/-! ## Suites -/

/-- `pjmedia_srtp_crypto`. -/
structure SrtpCrypto where
  key : Str
  name : Str
  flags : Nat
deriving DecidableEq, Repr

/-- A crypto that is zeroed. -/
def SrtpCrypto.zero : SrtpCrypto := ⟨[], [], 0⟩

/-- `crypto_suite`. -/
structure CryptoSuite where
  name : Str
  cipherKeyLen : Nat
deriving DecidableEq, Repr

/-- `crypto_suites`. -/
def cryptoSuites : List CryptoSuite :=
  [⟨ofChars "NULL".toList, 0⟩, ⟨ofChars "AES_256_CM_HMAC_SHA1_80".toList, 46⟩,
    ⟨ofChars "AES_256_CM_HMAC_SHA1_32".toList, 46⟩, ⟨ofChars "AES_CM_128_HMAC_SHA1_80".toList, 30⟩,
    ⟨ofChars "AES_CM_128_HMAC_SHA1_32".toList, 30⟩]

/-- The suite at an index. -/
def cryptoSuite (idx : Nat) : CryptoSuite := cryptoSuites.getD idx ⟨[], 0⟩

/-- `get_crypto_idx`. -/
def getCryptoIdx (cryptoName : Str) : Option Nat :=
  if cryptoName = [] then some 0
  else cryptoSuites.findIdx? fun suite => pjStricmpEq cryptoName suite.name

/-- `srtp_crypto_cmp` returns zero. -/
def srtpCryptoEq (c1 c2 : SrtpCrypto) : Bool :=
  c1.key = c2.key && pjStricmpEq c1.name c2.name && c1.flags = c2.flags

/-- `srtp_crypto_empty`. -/
def srtpCryptoEmpty (c : SrtpCrypto) : Bool := c.name = [] || c.key = []

/-! ## The attribute -/

/-- `ID_CRYPTO`. -/
def idCrypto : Str := ofChars "crypto".toList

/-- `MAX_KEY_LEN`. -/
def maxKeyLen : Nat := 128

/-- The generator of keys: the bytes of a key that is generated for a place in the setting. It tries
again until no byte is zero. -/
structure KeySource where
  key : Nat → Nat → Str
  length_key : ∀ place length, (key place length).length = length
  nonzero : ∀ place length, 0 ∉ key place length

/-- A tag in print. -/
def printTag (tag : Int) : Str := if tag < 0 then 45 :: pjUtoa tag.natAbs else pjUtoa tag.toNat

/-- The text of the attribute. -/
def cryptoText (tag : Int) (name text : Str) : Str :=
  printTag tag ++ [32] ++ name ++ [32] ++ ofChars "inline:".toList ++ text

/-- `generate_crypto_attr_value`: the crypto, with a key if it had none, and the value, which is
empty for the suite `NULL`. -/
def generateCryptoAttrValue (source : KeySource) (place : Nat) (crypto : SrtpCrypto) (tag : Int) :
    SrtpCrypto × Except Int Str :=
  match getCryptoIdx crypto.name with
  | none => (crypto, .error pjmediaSrtpEnotsupcrypto)
  | some 0 => (crypto, .ok [])
  | some csIdx =>
    let suite := cryptoSuite csIdx
    let crypto := if crypto.key = [] then { crypto with key := source.key place suite.cipherKeyLen }
      else crypto
    if crypto.key.length ≠ suite.cipherKeyLen then (crypto, .error pjmediaSrtpEinkeylen) else
    match pjBase64Encode crypto.key (pjBase256ToBase64Len maxKeyLen + 1) with
    | none => (crypto, .error pjEtoosmall)
    | some (text, length) =>
      if 512 < (crypto.name.length : Int) + length + 16 then (crypto, .error pjEtoosmall) else
      let value := cryptoText tag suite.name text
      if 512 ≤ value.length then (crypto, .error pjEtoosmall) else (crypto, .ok value)

/-- The key of `parse_attr_crypto`. -/
def parseKey (token : Str) : Except Int Str :=
  if pjBase64ToBase256Len token.length > maxKeyLen then .error pjmediaSrtpEinkeylen else
  match pjBase64Decode token maxKeyLen with
  | none => .error pjEtoosmall
  | some (key, _) => .ok key

/-- `parse_attr_crypto`: the crypto and the tag. -/
def parseAttrCrypto (attr : SdpAttr) : Except Int (SrtpCrypto × Int) :=
  let value := attr.value
  let (foundIdx, token) := pjStrtok value [32] 0
  if foundIdx = value.length then .error pjmediaSdpEinattr else
  -- Tag must not use leading zeroes, and contains only digits.
  if 1 < token.length ∧ token.head? = some 48 then .error pjmediaSdpEinattr else
  if ¬token.all pjIsdigit then .error pjmediaSdpEinattr else
  let tag := i32 (pjStrtoul token)
  let (foundIdx, name) := pjStrtok value [32] (foundIdx + token.length)
  if foundIdx = value.length then .error pjmediaSdpEinattr else
  let (foundIdx, token) := pjStrtok value [58, 32] (foundIdx + name.length)
  if foundIdx = value.length then .error pjmediaSdpEinattr else
  if ¬pjStricmpEq token (ofChars "inline".toList) then .error pjmediaSdpEinattr else
  let (foundIdx, token) := pjStrtok value [124, 32] (foundIdx + token.length)
  if foundIdx = value.length then .error pjmediaSdpEinattr else
  (parseKey token).map fun key => (⟨key, name, 0⟩, tag)

/-! ## Parsing what is generated -/

/-- The first digit of a number is not zero. -/
theorem utoaDigits_getLast {fuel val : Nat} (positive : 0 < val) (h : val < 10 ^ fuel) :
    ∀ digit ∈ (utoaDigits fuel val).getLast?, digit ≠ 0 := by
  induction fuel generalizing val with
  | zero => omega
  | succ fuel ih =>
    intro digit last
    rw [utoaDigits] at last
    by_cases one : val / 10 = 0
    · rw [if_pos one] at last
      have same : val % 10 = digit := Option.some.inj last
      omega
    · rw [if_neg one] at last
      have later := ih (Nat.pos_of_ne_zero one) (by
        omega)
      cases more : utoaDigits fuel (val / 10) with
      | nil =>
        cases fuel with
        | zero =>
          simp at h
          omega
        | succ fuel => simp [utoaDigits] at more
      | cons next rest =>
        rw [more] at last later
        exact later digit last

theorem pjUtoa_head {tag : Nat} (positive : 0 < tag) (small : tag < 2 ^ 31) :
    (pjUtoa tag).head? ≠ some 48 := by
  intro zero
  rw [pjUtoa, head?_reverse, getLast?_map] at zero
  obtain ⟨digit, last, byte⟩ := Option.map_eq_some_iff.mp zero
  have nonzero := utoaDigits_getLast positive (by omega) digit last
  have few : digit < 10 := utoaDigits_lt (mem_of_getLast? last)
  have value := (pjIsdigit_digitByte few).2
  rw [byte] at value
  exact nonzero value.symm

/-- A key is read behind the colon, which is no character of base64. -/
theorem parseKey_colon {key : Str} (some' : key ≠ []) (short : key.length ≤ 46) :
    parseKey (58 :: encodeFrom key) = .ok key := by
  have length := length_encodeFrom key
  have few := length_body key
  have fits : pjBase64ToBase256Len ((58 :: encodeFrom key).length : Nat) ≤ (maxKeyLen : Int) := by
    apply Int.le_trans (pjBase64ToBase256Len_le (Nat.le_refl _))
    rw [length_cons, length, maxKeyLen]
    omega
  have long : 0 < ((body key).map char64).length := by
    have positive := length_pos_iff.mpr some'
    rw [length_map, few]
    omega
  have ⟨first, rest, chars⟩ := exists_cons_of_length_pos long
  have stripped : stripPadding (58 :: encodeFrom key) = 58 :: (body key).map char64 := by
    have bare := stripPadding_body key (padCount key)
    rw [stripPadding, ← encodeFrom_eq] at bare
    have back := congrArg List.reverse bare
    rw [reverse_reverse] at back
    rw [stripPadding, reverse_cons, dropWhile_append, back]
    rw [if_neg (by simp [chars]), reverse_append, reverse_reverse]
    rfl
  have read : decodeFrom (58 :: (body key).map char64).length (58 :: (body key).map char64) =
      some key := by
    have skipped : base256Char 58 = inv ∧ (body key).map char64 ≠ [] :=
      ⟨rfl, ne_nil_of_length_pos long⟩
    rw [decodeFrom_eq _ (Nat.le_refl _), sextets, if_pos skipped, sextets_char64 (body_lt key),
      bytesOf_body]
  have guarded : pjBase64ToBase256Len ((58 :: (body key).map char64).length : Nat) ≤ (maxKeyLen : Int) := by
    apply Int.le_trans (pjBase64ToBase256Len_le (Nat.le_refl _))
    rw [length_cons, length_map, few, maxKeyLen]
    omega
  rw [parseKey, if_neg (Int.not_lt.mpr fits), pjBase64Decode, stripped]
  simp only [guard, if_pos guarded, read]
  rfl

set_option maxRecDepth 3000 in
/-- The characters of base64 are no delimiters. -/
theorem encodeFrom_alphabet {key : Str} {byte : UInt8} (member : byte ∈ encodeFrom key) :
    byte ∉ [124, 32] := by
  rw [encodeFrom_eq] at member
  rcases mem_append.mp member with char | pad
  · obtain ⟨sextet, inside, rfl⟩ := mem_map.mp char
    have each : ∀ value : Fin 256, UInt8.ofFin value < 64 → char64 (UInt8.ofFin value) ∉ [124, 32] := by
      decide
    exact every_byte (P := fun sextet => sextet < 64 → char64 sextet ∉ [124, 32]) each sextet
      (body_lt key sextet inside)
  · rw [eq_of_mem_replicate pad]
    decide

section
variable {suite : CryptoSuite} (member : suite ∈ cryptoSuites.tail)
include member

/-- The names of suites are tokens. -/
theorem suite_name :
    suite.name ≠ [] ∧ 32 ∉ suite.name ∧ suite.cipherKeyLen ≤ 46 ∧ 0 < suite.cipherKeyLen := by
  have each : ∀ suite ∈ cryptoSuites.tail,
      suite.name ≠ [] ∧ 32 ∉ suite.name ∧ suite.cipherKeyLen ≤ 46 ∧ 0 < suite.cipherKeyLen := by
    decide
  exact each suite member

/-- The attribute that is generated is parsed to its suite, key and tag. -/
theorem parse_cryptoText {key attrName : Str} (length : key.length = suite.cipherKeyLen)
    {tag : Nat} (positive : 0 < tag) (small : tag < 2 ^ 31) :
    parseAttrCrypto ⟨attrName, cryptoText tag suite.name (encodeFrom key)⟩ =
      .ok (⟨key, suite.name, 0⟩, tag) := by
  have ⟨name, space, short, nonzero⟩ := suite_name member
  have some' : key ≠ [] := by
    intro none
    rw [none] at length
    exact absurd length (Nat.ne_of_lt nonzero)
  have digits : ∀ byte ∈ pjUtoa tag, pjIsdigit byte = true := fun byte => pjUtoa_isdigit
  have noSpace : ∀ byte ∈ pjUtoa tag, byte ∉ [32] := by
    intro byte member space
    rw [mem_singleton.mp space] at member
    exact absurd (digits 32 member) (by decide)
  have noSpace' : ∀ byte ∈ suite.name, byte ∉ [32] := by
    intro byte member here
    rw [mem_singleton.mp here] at member
    exact space member
  have noDelim : ∀ byte ∈ 58 :: encodeFrom key, byte ∉ [124, 32] := by
    intro byte member
    rcases mem_cons.mp member with colon | member
    · rw [colon]
      decide
    · exact encodeFrom_alphabet member
  let method := ofChars "inline".toList
  have letters : ∀ byte ∈ method, byte ∉ [58, 32] := by
    have each : method.all (fun byte => !List.elem byte [58, 32]) = true := rfl
    intro byte member
    simpa using all_eq_true.mp each byte member
  let rest := 58 :: encodeFrom key
  let value := cryptoText tag suite.name (encodeFrom key)
  have text : value = pjUtoa tag ++ ([32] ++ (suite.name ++ ([32] ++ (method ++ rest)))) := by
    have colon : ofChars "inline:".toList = method ++ [58] := rfl
    have tagText : printTag tag = pjUtoa tag := if_neg (Int.not_lt.mpr (Int.natCast_nonneg tag))
    change printTag tag ++ [32] ++ suite.name ++ [32] ++ ofChars "inline:".toList ++ encodeFrom key = _
    simp only [append_assoc]
    rfl
  have first : pjStrtok value [32] 0 = (0, pjUtoa tag) := by
    have split : value = [] ++ [] ++ pjUtoa tag ++ ([32] ++ (suite.name ++ ([32] ++ (method ++ rest)))) :=
      text
    rw [split]
    exact pjStrtok_append (by simp) noSpace (pjUtoa_ne_nil tag) (by simp)
  have second : pjStrtok value [32] (pjUtoa tag).length = ((pjUtoa tag).length + 1, suite.name) := by
    have split : value = pjUtoa tag ++ [32] ++ suite.name ++ ([32] ++ (method ++ rest)) := by
      rw [text]
      simp
    rw [split]
    exact pjStrtok_append (by simp) noSpace' name (by simp)
  have third : pjStrtok value [58, 32] ((pjUtoa tag).length + 1 + suite.name.length) =
      ((pjUtoa tag).length + 1 + suite.name.length + 1, method) := by
    have split : value = (pjUtoa tag ++ [32] ++ suite.name) ++ [32] ++ method ++ rest := by
      rw [text]
      simp
    have place : (pjUtoa tag).length + 1 + suite.name.length =
        (pjUtoa tag ++ [32] ++ suite.name).length := by
      simp only [length_append, length_singleton]
    rw [split, place]
    exact pjStrtok_append (by simp) letters (by decide) (by simp [rest])
  have fourth : pjStrtok value [124, 32]
      ((pjUtoa tag).length + 1 + suite.name.length + 1 + method.length) =
      ((pjUtoa tag).length + 1 + suite.name.length + 1 + method.length, rest) := by
    have split : value = (pjUtoa tag ++ [32] ++ suite.name ++ [32] ++ method) ++ [] ++ rest ++ [] := by
      rw [text]
      simp
    have place : (pjUtoa tag).length + 1 + suite.name.length + 1 + method.length =
        (pjUtoa tag ++ [32] ++ suite.name ++ [32] ++ method).length := by
      simp only [length_append, length_singleton]
    rw [split, place]
    exact pjStrtok_append (by simp) noDelim (by simp [rest]) (by simp)
  have long : value.length = (pjUtoa tag).length + 1 + suite.name.length + 1 + method.length +
      rest.length := by
    rw [text]
    simp only [length_append, length_singleton]
    omega
  have tagLength := length_pos_iff.mpr (pjUtoa_ne_nil tag)
  have nameLength := length_pos_iff.mpr name
  have noZero : ¬(1 < (pjUtoa tag).length ∧ (pjUtoa tag).head? = some 48) :=
    fun zero => pjUtoa_head positive small zero.2
  have digits' : (pjUtoa tag).all pjIsdigit = true := all_eq_true.mpr digits
  have number : i32 (pjStrtoul (pjUtoa tag) : Nat) = tag := by
    rw [pjStrtoul_pjUtoa (by omega)]
    exact i32_natCast small
  have inline : pjStricmpEq method (ofChars "inline".toList) = true := by decide
  have read := parseKey_colon some' (Nat.le_trans (Nat.le_of_eq length) short)
  have restLength : rest.length = (encodeFrom key).length + 1 := rfl
  have methodLength : method.length = 6 := rfl
  change parseAttrCrypto ⟨attrName, value⟩ = _
  simp only [parseAttrCrypto, first, Nat.zero_add, second, third, fourth]
  rw [if_neg (by omega), if_neg noZero, if_neg (not_not_intro digits'), if_neg (by omega),
    if_neg (by omega), if_neg (not_not_intro inline), if_neg (by omega), number, read]
  rfl

end

end Pjmedia.Srtp
