import Mathlib.Data.List.Forall2
import Pjproject.Stun.Encode
import Pjproject.Stun.Layout

/-!
# What the encoder writes of an attribute is what the decoder finds

An attribute that is encoded and decoded comes back, but for the choices that the encoder makes
itself.
-/

namespace Pjnath.Stun
open List hiding Vector
open Pj Traced

variable {mem : Nat → UInt8} {hdr there : MsgHdr} {p : Nat}

/-! ## Bytes that are held -/

theorem getElem_of_holds {bytes : Str} (held : Holds mem p bytes) {i : Nat} (inside : i < bytes.length) :
    mem (p + i) = bytes[i] := by
  have read := getElem_of_eq held.map_range (by simpa using inside : i < _)
  rw [getElem_map, getElem_range] at read
  exact read

theorem bytesAt_of_holds {bytes : Str} (held : Holds mem p bytes) : bytesAt mem p bytes.length = bytes :=
  held.map_range

theorem array_of_holds {count : Nat} {array : Vector UInt8 count} (held : Holds mem p array.toList) :
    Vector.ofFn (fun i : Fin count => mem (p + i)) = array := by
  ext i inside
  have bound : i < array.toList.length := by
    rw [Vector.length_toList]
    exact inside
  rw [Vector.getElem_ofFn, getElem_of_holds held bound, Vector.getElem_toList]

theorem words_of_holds {words : List UInt16} (held : Holds mem p (words.flatMap (store16 .big))) :
    (List.range words.length).map (fun i => load16 .big mem (p + 2 * i)) = words := by
  induction words generalizing p with
  | nil => rfl
  | cons word rest ih =>
    rw [flatMap_cons, holds_append] at held
    have tail := ih held.2
    rw [length_cons, range_succ_eq_map, map_cons, map_map]
    have shift : ∀ i : Nat, p + 2 * (i + 1) = p + (store16 .big word).length + 2 * i := by
      intro i
      rw [length_store16]
      omega
    simp only [Function.comp_def, shift]
    exact congrArg₂ (· :: ·) held.1.load16 tail

theorem xorBytes_xorBytes {n : Nat} (bytes mask : Vector UInt8 n) :
    xorBytes (xorBytes bytes mask) mask = bytes := by
  ext i inside
  rw [xorBytes, xorBytes, Vector.getElem_zipWith, Vector.getElem_zipWith, UInt8.xor_assoc,
    UInt8.xor_self, UInt8.xor_zero]

theorem xorSockaddr_xorSockaddr (same : there.tsxId = hdr.tsxId) (sockaddr : Sockaddr) :
    xorSockaddr there (xorSockaddr hdr sockaddr) = sockaddr := by
  cases sockaddr with
  | inet port addr => rw [xorSockaddr, xorSockaddr, xorBytes_xorBytes, xorBytes_xorBytes]
  | inet6 port addr => rw [xorSockaddr, xorSockaddr, same, xorBytes_xorBytes, xorBytes_xorBytes]

/-! ## Values -/

variable {attr : Attr}

/-- The value that comes back: the decoder sets the XOR flag as the kind has it, an error code is
two bytes, and a string may have its padding. -/
def received (hdr : MsgHdr) (attr : Attr) (kind : Kind) : AttrValue :=
  match kind, attr.value with
  | .sockaddr, .sockaddr xorEd sockaddr =>
    .sockaddr false (if xorEd then xorSockaddr hdr sockaddr else sockaddr)
  | .xoredSockaddr, .sockaddr xorEd sockaddr =>
    .sockaddr true (if xorEd then sockaddr else xorSockaddr hdr sockaddr)
  | .string, .string value =>
    .string (if hdr.magic ≠ pjStunMagic ∨ attr.type = attrSoftware then value ++ stringPadding value
      else value)
  | .errcode, .errcode errCode reason =>
    .errcode ((UInt8.ofInt (errCode.tdiv 100)).toNat * 100 + (UInt8.ofInt (errCode.tmod 100)).toNat)
      reason
  | _, value => value

/-- A value is coded as some bytes: the decoder of its kind gets it back from where they are. -/
def Coded (hdr : MsgHdr) (kind : Kind) (value : AttrValue) (bytes : Str) : Prop :=
  ∀ (mem : Nat → UInt8) (there : MsgHdr) (p : Nat), there.tsxId = hdr.tsxId → bytes.length < 2 ^ 16 →
    Holds mem (p + 4) bytes →
      (decodeValue mem there p (UInt16.ofNat bytes.length) kind).result = .ok value

/-- The port and the address behind the family. -/
theorem ports_of_holds {count : Nat} {family : UInt8} {port : Vector UInt8 2} {addr : Vector UInt8 count}
    (held : Holds mem (p + 4) ([0, family] ++ port.toList ++ addr.toList)) :
    mem (p + 5) = family ∧ Vector.ofFn (fun i : Fin 2 => mem (p + 6 + i)) = port ∧
      Vector.ofFn (fun i : Fin count => mem (p + 8 + i)) = addr := by
  have parts := holds_append.mp held
  have first := holds_append.mp parts.1
  have start : p + 4 + ([0, family] ++ port.toList).length = p + 8 := by simp
  have addrs := parts.2
  rw [start] at addrs
  exact ⟨first.1.2.1, array_of_holds first.2, array_of_holds addrs⟩

theorem decodeSockaddr_of_holds {sockaddr : Sockaddr} (held : Holds mem (p + 4) (sockaddrBytes sockaddr)) :
    (decodeSockaddr mem p (UInt16.ofNat (sockaddrBytes sockaddr).length)).result = .ok sockaddr := by
  cases sockaddr with
  | inet port addr =>
    have length : UInt16.ofNat (sockaddrBytes (.inet port addr)).length = 8 := by simp [sockaddrBytes]
    have ⟨family, ports, addrs⟩ := ports_of_holds held
    rw [length, decodeSockaddr, if_neg (by decide), result_bind_of_ok (getByte_result mem _),
      if_pos family, if_neg (by decide), result_bind_of_ok (getArray_result mem _ _),
      result_bind_of_ok (getArray_result mem _ _), result_pure, ports, addrs]
  | inet6 port addr =>
    have length : UInt16.ofNat (sockaddrBytes (.inet6 port addr)).length = 20 := by simp [sockaddrBytes]
    have ⟨family, ports, addrs⟩ := ports_of_holds held
    have other : mem (p + 5) ≠ 1 := by
      rw [family]
      decide
    rw [length, decodeSockaddr, if_neg (by decide), result_bind_of_ok (getByte_result mem _),
      if_neg other, if_pos family, if_neg (by decide), result_bind_of_ok (getArray_result mem _ _),
      result_bind_of_ok (getArray_result mem _ _), result_pure, ports, addrs]

theorem pad4_pad4 (length : Nat) : pad4 (pad4 length) = pad4 length := by
  unfold pad4
  omega

theorem length_stringPadding (value : Str) :
    (value ++ stringPadding value).length = pad4 value.length := by
  have longer := pad4_ge value.length
  rw [length_append, stringPadding, length_replicate]
  omega

theorem toNat_ofNat {length : Nat} (small : length < 2 ^ 16) : (UInt16.ofNat length).toNat = length :=
  UInt16.toNat_ofNat_of_lt' small

/-- A value of bytes, of any length. -/
theorem getValue_of_holds {bytes : Str} {length : Int} (long : length = bytes.length)
    (held : Holds mem p bytes) : (getValue mem p length).result = .ok bytes := by
  rw [getValue_result, long, Int.toNat_natCast, bytesAt_of_holds held]

/-- What an encoder writes begins with the coded value, and has its length. -/
structure Piece.Codes (piece : Piece) (hdr : MsgHdr) (kind : Kind) (value : AttrValue) (bytes : Str) :
    Prop where
  body : ∃ rest, piece.body = bytes ++ rest
  extent : pad4 piece.body.length = pad4 bytes.length
  length : piece.length = UInt16.ofNat bytes.length
  init : bytes.length = initLength value
  coded : Coded hdr kind value bytes

theorem encodeSockaddr_codes {kind : Kind} {sent : Sockaddr} {value : AttrValue} {need : Nat}
    (init : (sockaddrBytes sent).length = initLength value)
    (decoded : ∀ (mem : Nat → UInt8) (there : MsgHdr) (p : Nat) (length : UInt16),
      there.tsxId = hdr.tsxId → (decodeSockaddr mem p length).result = .ok sent →
        (decodeValue mem there p length kind).result = .ok value) :
    (Piece.mk (UInt16.ofNat (sockaddrBytes sent).length) (sockaddrBytes sent) need).Codes hdr kind value
      (sockaddrBytes sent) where
  body := ⟨[], (append_nil _).symm⟩
  extent := rfl
  length := rfl
  init := init
  coded := fun mem there p same _ held => decoded mem there p _ same (decodeSockaddr_of_holds held)

theorem length_sockaddrBytes_xor (sockaddr : Sockaddr) :
    (sockaddrBytes (xorSockaddr hdr sockaddr)).length = (sockaddrBytes sockaddr).length := by
  cases sockaddr <;> simp [xorSockaddr, sockaddrBytes]

theorem length_sockaddrBytes (xorEd : Bool) (sockaddr : Sockaddr) :
    (sockaddrBytes sockaddr).length = initLength (.sockaddr xorEd sockaddr) := by
  cases sockaddr <;> simp [initLength, sockaddrBytes]

/-- A string, with or without its padding. -/
theorem encodeString_codes (value : Str) (padded : Prop) [Decidable padded] (need : Nat) :
    let bytes := if padded then value ++ stringPadding value else value
    (Piece.mk (UInt16.ofNat (if padded then (value ++ stringPadding value).length else value.length))
      (value ++ stringPadding value) need).Codes hdr .string (.string bytes) bytes := by
  have decoded : ∀ bytes : Str, Coded hdr .string (.string bytes) bytes := by
    intro bytes mem there p _ small held
    rw [decodeValue, toNat_ofNat small, result_bind_of_ok (getValue_of_holds rfl held), result_pure]
  by_cases met : padded
  · simp only [if_pos met]
    exact {
      body := ⟨[], (append_nil _).symm⟩
      extent := rfl
      length := rfl
      init := rfl
      coded := decoded _ }
  · simp only [if_neg met]
    exact {
      body := ⟨stringPadding value, rfl⟩
      extent := by
        rw [length_stringPadding, pad4_pad4]
      length := rfl
      init := rfl
      coded := decoded _ }

theorem encodeErrcode_codes (high low : UInt8) (reason : Str) (need : Nat) :
    (Piece.mk (UInt16.ofNat (4 + reason.length)) ([0, 0, high, low] ++ reason) need).Codes hdr .errcode
      (.errcode (high.toNat * 100 + low.toNat) reason) ([0, 0, high, low] ++ reason) where
  body := ⟨[], (append_nil _).symm⟩
  extent := rfl
  length := by
    rw [length_append]
    rfl
  init := by
    rw [length_append]
    rfl
  coded := by
    intro mem there p _ small held
    have parts := holds_append.mp held
    have behind : Holds mem (p + 8) reason := parts.2
    have long : ((UInt16.ofNat ([0, 0, high, low] ++ reason).length).toNat : Int) - 4 = reason.length := by
      rw [toNat_ofNat small, length_append, length_cons, length_cons, length_cons,
        length_singleton]
      omega
    rw [decodeValue, result_bind_of_ok (getByte_result mem _), result_bind_of_ok (getByte_result mem _),
      result_bind_of_ok (getValue_of_holds long behind), result_pure]
    have first : mem (p + 6) = high := parts.1.2.2.1
    have second : mem (p + 7) = low := parts.1.2.2.2.1
    rw [first, second]

theorem length_words (words : List UInt16) : (words.flatMap (store16 .big)).length = words.length *
    2 := by
  simp [length_store16, sum_replicate_nat]

theorem encodeUnknown_codes {attrs : List UInt16} (few : attrs.length ≤ pjStunMaxAttr) (need : Nat) :
    (Piece.mk (UInt16.ofNat (attrs.length * 2)) (attrs.flatMap (store16 .big)) need).Codes hdr .unknown
      (.unknown attrs) (attrs.flatMap (store16 .big)) := by
  have length := length_words attrs
  exact {
    body := ⟨[], (append_nil _).symm⟩
    extent := rfl
    length := by
      rw [length]
    init := length
    coded := by
      intro mem there p _ small held
      rw [decodeValue, toNat_ofNat small, length, Nat.mul_div_cancel _ Nat.two_pos,
        if_neg (Nat.not_lt.mpr few), result_access, words_of_holds held] }

/-- The encoder of a kind and its decoder. -/
theorem encodeValue_codes {kind : Kind} {piece : Piece}
    (created : attr.length = UInt16.ofNat (initLength attr.value))
    (few : ∀ attrs, attr.value = .unknown attrs → attrs.length ≤ pjStunMaxAttr)
    (encoded : encodeValue hdr attr kind = some piece) :
    ∃ bytes, piece.Codes hdr kind (received hdr attr kind) bytes := by
  have ⟨type, length, value⟩ := attr
  cases kind with
  | sockaddr =>
    cases value with
    | sockaddr xorEd sockaddr =>
      cases encoded
      refine ⟨_, encodeSockaddr_codes (length_sockaddrBytes false _) ?_⟩
      intro mem there p length same decoded
      rw [decodeValue, result_bind_of_ok decoded]
      rfl
    | _ => cases encoded
  | xoredSockaddr =>
    cases value with
    | sockaddr xorEd sockaddr =>
      cases encoded
      cases xorEd with
      | true =>
        have init := @length_sockaddrBytes_xor hdr sockaddr
        refine ⟨_, encodeSockaddr_codes (init.trans (length_sockaddrBytes true sockaddr)) ?_⟩
        intro mem there p length same decoded
        rw [if_pos rfl] at decoded
        rw [decodeValue, result_bind_of_ok decoded, xorSockaddr_xorSockaddr same]
        rfl
      | false =>
        have init := @length_sockaddrBytes_xor hdr sockaddr
        refine ⟨_, encodeSockaddr_codes (init.symm.trans (length_sockaddrBytes true _)) ?_⟩
        intro mem there p length same decoded
        rw [decodeValue, result_bind_of_ok decoded, xorSockaddr_congr same]
        rfl
    | _ => cases encoded
  | empty =>
    cases value with
    | empty =>
      cases encoded
      exact ⟨[], ⟨[], rfl⟩, rfl, rfl, rfl, fun _ _ _ _ _ _ => rfl⟩
    | _ => cases encoded
  | string =>
    cases value with
    | string value =>
      cases encoded
      exact ⟨_, encodeString_codes value _ _⟩
    | _ => cases encoded
  | uint =>
    cases value with
    | uint value =>
      cases encoded
      refine ⟨store32 .big value, ⟨[], rfl⟩, rfl, rfl, rfl, ?_⟩
      intro mem there p _ _ held
      have length : UInt16.ofNat (store32 .big value).length = 4 := rfl
      rw [length, decodeValue, result_bind_of_ok (getval32h_result mem _), if_neg (by decide), result_pure,
        held.load32]
      rfl
    | _ => cases encoded
  | uint64 =>
    cases value with
    | uint64 hi lo =>
      cases encoded
      refine ⟨store32 .big hi ++ store32 .big lo, ⟨[], rfl⟩, rfl, rfl, rfl, ?_⟩
      intro mem there p _ _ held
      have parts := holds_append.mp held
      have second : load32 .big mem (p + 8) = lo := parts.2.load32
      have length : UInt16.ofNat (store32 .big hi ++ store32 .big lo).length = 8 := rfl
      rw [length, decodeValue, if_neg (by decide), result_bind_of_ok (getval32h_result mem _),
        result_bind_of_ok (getval32h_result mem _), result_pure, parts.1.load32, second]
      rfl
    | _ => cases encoded
  | msgint =>
    cases value with
    | msgint hmac =>
      cases encoded
      have long : hmac.toList.length = 20 := Vector.length_toList
      have length : UInt16.ofNat hmac.toList.length = 20 := by rw [long]; rfl
      refine ⟨hmac.toList, ⟨[], (append_nil _).symm⟩, rfl, created.trans length.symm, long, ?_⟩
      intro mem there p _ _ held
      rw [length, decodeValue, if_neg (by decide), result_bind_of_ok (getArray_result mem _ _), result_pure,
        array_of_holds held]
      rfl
    | _ => cases encoded
  | errcode =>
    cases value with
    | errcode errCode reason =>
      cases encoded
      exact ⟨_, encodeErrcode_codes _ _ reason _⟩
    | _ => cases encoded
  | unknown =>
    cases value with
    | unknown attrs =>
      cases encoded
      exact ⟨_, encodeUnknown_codes (few attrs rfl) _⟩
    | _ => cases encoded
  | binary =>
    cases value with
    | binary data =>
      cases encoded
      refine ⟨data, ⟨[], (append_nil _).symm⟩, rfl, rfl, rfl, ?_⟩
      intro mem there p _ small held
      rw [decodeValue, toNat_ofNat small, result_bind_of_ok (getValue_of_holds rfl held), result_pure]
      rfl
    | _ => cases encoded

/-! ## Attributes -/

/-- A chunk of a packet: an attribute with its padding. It is found again if its length fits a length
field. -/
structure Chunk (hdr : MsgHdr) (attr : Attr) (chunk : Str) : Prop where
  created : attr.length = UInt16.ofNat (initLength attr.value)
  length : chunk.length = pad4 (initLength attr.value) + 4
  found : initLength attr.value < 2 ^ 16 → ∀ (mem : Nat → UInt8) (there : MsgHdr) (p : Nat),
    there.tsxId = hdr.tsxId → Holds mem p chunk → At mem there p attr

/-- A chunk that is not too long is as long as the attribute says. -/
theorem Chunk.extent {chunk : Str} (h : Chunk hdr attr chunk)
    (small : initLength attr.value < 2 ^ 16) : attr.extent = chunk.length := by
  rw [Attr.extent, h.created, toNat_ofNat small, h.length]

/-- An attribute that has been created with a value that can be sent, of a type that receivers do
not have to reject. -/
structure Sendable (attr : Attr) : Prop where
  created : attr.length = UInt16.ofNat (initLength attr.value)
  few : ∀ attrs, attr.value = .unknown attrs → attrs.length ≤ pjStunMaxAttr
  optional : findAttrDesc attr.type = none → ¬attr.type ≤ 0x7FFF

/-- The attribute that comes back. -/
def Attr.received (hdr : MsgHdr) (attr : Attr) : Attr :=
  createAttr attr.type (Stun.received hdr attr (kindOf attr.type))

/-- The decoder of the kind finds the value of an attribute where it is. -/
theorem At.decoded (h : At mem hdr p attr) :
    (decodeValue mem hdr p attr.length (kindOf attr.type)).result = .ok attr.value := by
  have value := h.value
  unfold kindOf
  cases known : findAttrDesc attr.type with
  | some desc =>
    rw [known] at value
    exact value
  | none =>
    rw [known] at value
    rw [value.2]
    rfl

/-- An attribute is where the decoder of its kind finds its value. -/
theorem at_of_value (type : load16 .big mem p = attr.type)
    (length : load16 .big mem (p + 2) = attr.length)
    (optional : findAttrDesc attr.type = none → ¬attr.type ≤ 0x7FFF)
    (value : (decodeValue mem hdr p attr.length (kindOf attr.type)).result = .ok attr.value) :
    At mem hdr p attr where
  type := type
  length := length
  value := by
    unfold kindOf at value
    cases known : findAttrDesc attr.type with
    | some desc =>
      rw [known] at value
      exact value
    | none =>
      rw [known] at value
      exact ⟨optional known, (Except.ok.inj value).symm⟩

variable {old : Nat → UInt8} {bufSize : Nat}

/-- The bytes that are written of an attribute, and what follows them up to a multiple of four. -/
theorem chunk_of_codes {piece : Piece} {bytes padding : Str} (sendable : Sendable attr)
    (codes : piece.Codes hdr (kindOf attr.type) (Stun.received hdr attr (kindOf attr.type)) bytes)
    (padded : padding.length = pad4 piece.body.length - piece.body.length) :
    Chunk hdr (attr.received hdr)
      (store16 .big attr.type ++ (store16 .big piece.length ++ (piece.body ++ padding))) where
  created := rfl
  length := by
    have whole := pad4_ge piece.body.length
    have init : initLength (attr.received hdr).value = bytes.length := codes.init.symm
    rw [init, length_append, length_append, length_append, length_store16, length_store16, padded,
      ← codes.extent]
    omega
  found := by
    intro short mem there p same held
    have init : initLength (attr.received hdr).value = bytes.length := codes.init.symm
    have length : (attr.received hdr).length = UInt16.ofNat bytes.length := congrArg UInt16.ofNat init
    rw [init] at short
    have parts := holds_append.mp held
    have behind := holds_append.mp parts.2
    have second : Holds mem (p + 2) (store16 .big piece.length) := behind.1
    have third : Holds mem (p + 4) (piece.body ++ padding) := behind.2
    have value : Holds mem (p + 4) bytes := by
      have ⟨rest, body⟩ := codes.body
      rw [body, append_assoc] at third
      exact (holds_append.mp third).1
    have decoded := codes.coded mem there p same short value
    have type : load16 .big mem p = (attr.received hdr).type := parts.1.load16
    apply at_of_value type
    · rw [second.load16, codes.length, length]
    · exact sendable.optional
    · rw [length]
      exact decoded

/-- The encoder of an attribute adds a chunk to what has been written. -/
theorem encodeAttr_chunk {out after : Str} (sendable : Sendable attr)
    (encoded : encodeAttr old bufSize hdr attr (kindOf attr.type) out = .ok after) :
    ∃ chunk, after = out ++ chunk ∧ Chunk hdr (attr.received hdr) chunk := by
  have ⟨piece, padding, found, _, long, joined⟩ := encodeAttr_ok encoded
  have ⟨bytes, codes⟩ := encodeValue_codes sendable.created sendable.few found
  exact ⟨_, joined, chunk_of_codes sendable codes long⟩

/-- The first loop takes the attributes up to the first MESSAGE-INTEGRITY or FINGERPRINT. -/
theorem encodeAttrs_chunks {body tail stopped : List Attr} {out after : Str}
    (sendable : ∀ attr ∈ body, Sendable attr)
    (before : ∀ attr ∈ body, ¬(attr.type = attrMessageIntegrity ∨ attr.type = attrFingerprint))
    (behind : ∀ attr ∈ tail, attr.type = attrMessageIntegrity ∨ attr.type = attrFingerprint)
    (encoded : encodeAttrs old bufSize hdr (body ++ tail) out = .ok (after, stopped)) :
    stopped = tail ∧ ∃ chunks : List Str, after = out ++ chunks.flatten ∧
      List.Forall₂ (fun attr chunk => Chunk hdr (attr.received hdr) chunk) body chunks := by
  induction body generalizing out with
  | nil =>
    have same : after = out ∧ stopped = tail := by
      cases tail with
      | nil =>
        cases encoded
        exact ⟨rfl, rfl⟩
      | cons attr rest =>
        rw [nil_append, encodeAttrs, if_pos (behind attr mem_cons_self)] at encoded
        cases encoded
        exact ⟨rfl, rfl⟩
    exact ⟨same.2, [], by rw [same.1]; exact (append_nil _).symm, .nil⟩
  | cons attr rest ih =>
    rw [cons_append, encodeAttrs, if_neg (before attr mem_cons_self)] at encoded
    split at encoded
    · cases encoded
    · next between written =>
      have ⟨chunk, joined, fine⟩ := encodeAttr_chunk (sendable attr mem_cons_self) written
      have later := ih (fun attr among => sendable attr (mem_cons_of_mem _ among))
        (fun attr among => before attr (mem_cons_of_mem _ among)) encoded
      have ⟨same, chunks, whole, all⟩ := later
      refine ⟨same, chunk :: chunks, ?_, .cons fine all⟩
      rw [whole, joined, flatten_cons, append_assoc]

/-- Chunks one behind the other are attributes one behind the other. -/
theorem laid_of_chunks {attrs : List Attr} {chunks : List Str} (same : there.tsxId = hdr.tsxId)
    (all : List.Forall₂ (Chunk hdr) attrs chunks) (small : chunks.flatten.length < 2 ^ 16)
    (held : Holds mem p chunks.flatten) : Laid mem there (p + chunks.flatten.length) p attrs := by
  induction all generalizing p with
  | nil => exact .done (Nat.le_refl _)
  | @cons attr chunk rest chunks fine _ ih =>
    rw [flatten_cons] at small held ⊢
    rw [length_append] at small ⊢
    have length := fine.length
    have longer := pad4_ge (initLength attr.value)
    have short : initLength attr.value < 2 ^ 16 := by omega
    have extent := fine.extent short
    have parts := holds_append.mp held
    have behind := ih (by omega) parts.2
    have padded : pad4 attr.length.toNat + 4 = chunk.length := extent
    apply Laid.cons
    · omega
    · omega
    · exact fine.found short mem there p same parts.1
    · rw [extent, ← Nat.add_assoc]
      exact behind

end Pjnath.Stun
