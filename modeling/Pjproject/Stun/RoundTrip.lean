import Pjproject.Stun.Packet

/-!
# Decoding undoes encoding

A message whose attributes have been built with values of the kinds of their types comes back from its
packet, with the values that the encoder computes and SOFTWARE with its padding.
-/

namespace Pjnath.Stun
open List hiding Vector
open Pj Traced

/-- A value that is built for a kind: the XOR flag is as the kind has it, an error code is one of
100 to 699, and unknown types are fewer than the array has room for. -/
def AttrValue.Of : Kind → AttrValue → Prop
  | .sockaddr, .sockaddr xorEd _ => xorEd = false
  | .xoredSockaddr, .sockaddr xorEd _ => xorEd = true
  | .empty, .empty | .string, .string _ | .uint, .uint _ | .uint64, .uint64 _ _ | .msgint, .msgint _
  | .binary, .binary _ => True
  | .errcode, .errcode errCode _ => 100 ≤ errCode ∧ errCode ≤ 699
  | .unknown, .unknown attrs => attrs.length < pjStunMaxAttr
  | _, _ => False

/-- An attribute that the functions `pj_stun_msg_add_*` add, of a known type and with a value of its
kind. -/
structure Addable (attr : Attr) : Prop where
  created : attr = createAttr attr.type attr.value
  known : ∃ desc, findAttrDesc attr.type = some desc ∧ attr.value.Of desc.kind

/-- SOFTWARE comes back with its padding. -/
def softwarePadded (attr : Attr) : Attr :=
  match attr.value with
  | .string value =>
    if attr.type = attrSoftware then createAttr attr.type (.string (value ++ stringPadding value)) else attr
  | _ => attr

variable {hdr : MsgHdr} {attr : Attr}

theorem errcode_bytes {errCode : Int} (low : 100 ≤ errCode) (high : errCode ≤ 699) :
    ((UInt8.ofInt (errCode.tdiv 100)).toNat * 100 + (UInt8.ofInt (errCode.tmod 100)).toNat : Int) =
      errCode := by
  have positive : 0 ≤ errCode := by omega
  have small : ∀ value : Int, 0 ≤ value → value < 256 → ((UInt8.ofInt value).toNat : Int) = value := by
    intro value nonneg below
    rw [UInt8.ofInt, UInt8.toNat_ofNat']
    omega
  rw [Int.tdiv_eq_ediv_of_nonneg positive, Int.tmod_eq_emod_of_nonneg positive, small _ (by omega) (by omega),
    small _ (by omega) (by omega)]
  omega

theorem Addable.sendable (h : Addable attr) : Sendable attr where
  created := congrArg Attr.length h.created
  few := by
    have ⟨desc, known, value⟩ := h.known
    intro attrs same
    rw [same] at value
    revert value
    cases desc.kind <;> first | exact fun few => Nat.le_of_lt few | exact nofun
  optional := by
    have ⟨desc, known, _⟩ := h.known
    intro none
    rw [none] at known
    cases known

theorem received_of {type length : UInt16} {value : AttrValue} {kind : Kind} (of : value.Of kind)
    (magic : hdr.magic = pjStunMagic) :
    createAttr type (Stun.received hdr ⟨type, length, value⟩ kind) =
      softwarePadded (createAttr type value) := by
  cases kind with
  | sockaddr =>
    cases value with
    | sockaddr xorEd sockaddr =>
      cases (of : xorEd = false)
      rfl
    | _ => exact of.elim
  | xoredSockaddr =>
    cases value with
    | sockaddr xorEd sockaddr =>
      cases (of : xorEd = true)
      rfl
    | _ => exact of.elim
  | string =>
    cases value with
    | string value =>
      by_cases software : type = attrSoftware
      · simp [Stun.received, softwarePadded, createAttr, software]
      · simp [Stun.received, softwarePadded, createAttr, software, magic]
    | _ => exact of.elim
  | errcode =>
    cases value with
    | errcode errCode reason =>
      have bytes := errcode_bytes of.1 of.2
      change createAttr type (.errcode _ reason) = _
      rw [bytes]
      rfl
    | _ => exact of.elim
  | _ =>
    cases value with
    | string value => exact of.elim
    | _ => rfl

theorem Addable.of (h : Addable attr) : attr.value.Of (kindOf attr.type) := by
  have ⟨desc, known, of⟩ := h.known
  rw [kindOf, known]
  exact of

theorem Addable.received (h : Addable attr) (magic : hdr.magic = pjStunMagic) :
    attr.received hdr = softwarePadded attr := by
  conv_rhs => rw [h.created]
  exact received_of h.of magic

variable {old : Nat → UInt8} {bufSize : Nat} {hmac : Str → Str → Vector UInt8 20} {crc : Str → UInt32}
variable {key : Option Str} {msg after : Msg} {packet : Str} {mem : Nat → UInt8}
variable {body : List Attr} {amsgint afingerprint : Option Attr}
variable {digest : Vector UInt8 20} {fingerprint : UInt32} {chunks seals : List Str}

/-- Eight bytes before the end there is no FINGERPRINT, or a right one. -/
def FingerprintRight (crc : Str → UInt32) (mem : Nat → UInt8) (size : Nat) : Prop :=
  load16 .big mem (size - 8) = attrFingerprint →
    load16 .big mem (size - 8 + 2) = 4 ∧
      crc (bytesAt mem 0 (size - 8)) ^^^ stunXorFingerprint = load32 .big mem (size - 8 + 4)

/-- A FINGERPRINT that is last is a right one. -/
theorem Packet.fingerprintRight
    (h : Packet hmac crc key hdr body amsgint (some attr) digest fingerprint packet chunks seals)
    (held : Holds mem 0 packet) : FingerprintRight crc mem packet.length := by
  have ⟨signed, chunk, joined, chunked, same⟩ := h.fingerprint rfl
  have long : chunk.length = 8 := chunked.length.trans (by decide : pad4 4 + 4 = 8)
  have before : packet.length - 8 = signed.length := by
    rw [joined, length_append, long]
    omega
  rw [joined] at held
  have parts := holds_append.mp held
  have there : At mem hdr (packet.length - 8) (createAttr attrFingerprint (.uint fingerprint)) := by
    rw [before, ← Nat.zero_add signed.length]
    exact chunked.found (by decide : 4 < 2 ^ 16) mem hdr _ rfl parts.2
  intro _
  apply And.intro there.length
  have value : load32 .big mem (packet.length - 8 + 4) = fingerprint := by
    have decoded : (decodeValue mem hdr (packet.length - 8) 4 (kindOf attrFingerprint)).result = _ :=
      there.decoded
    exact AttrValue.uint.inj (Except.ok.inj decoded)
  rw [value, before, bytesAt_of_holds parts.1, same]

variable {attrs : List Attr}

/-- The lengths of chunks are multiples of four. -/
theorem length_chunks (all : List.Forall₂ (Chunk hdr) attrs chunks) :
    chunks.flatten.length % 4 = 0 := by
  induction all with
  | nil => rfl
  | @cons attr chunk rest chunks fine _ ih =>
    have length := fine.length
    rw [flatten_cons, length_append]
    unfold pad4 at length
    omega

theorem first_byte {type : UInt16} (small : type.toNat < 2 ^ 9) :
    ¬(UInt8.ofNat (type.toNat / 256) ≠ 0x00 ∧ UInt8.ofNat (type.toNat / 256) ≠ 0x01) := by
  have few : type.toNat / 256 = 0 ∨ type.toNat / 256 = 1 := by omega
  intro neither
  cases few with
  | inl zero => exact neither.1 (by rw [zero]; rfl)
  | inr one => exact neither.2 (by rw [one]; rfl)

theorem type_of_first_byte {type : UInt16}
    (few : UInt8.ofNat (type.toNat / 256) = 0 ∨ UInt8.ofNat (type.toNat / 256) = 1) :
    type.toNat < 2 ^ 9 := by
  have bound := type.toNat_lt
  have value : (UInt8.ofNat (type.toNat / 256)).toNat = type.toNat / 256 := by
    rw [UInt8.toNat_ofNat']
    omega
  cases few with
  | inl zero =>
    rw [zero] at value
    have none : (0 : UInt8).toNat = 0 := rfl
    omega
  | inr one =>
    rw [one] at value
    have single : (1 : UInt8).toNat = 1 := rfl
    omega

section
variable
  (h : Packet hmac crc key hdr body amsgint afingerprint digest fingerprint packet chunks seals)
include h

/-- The first byte and the magic number of a packet. -/
theorem Packet.header (held : Holds mem 0 packet) :
    mem 0 = UInt8.ofNat (hdr.type.toNat / 256) ∧ load32 .big mem 4 = hdr.magic := by
  rw [h.bytes] at held
  have header := msgHdrAt_of_holds (holds_append.mp held).1
  exact ⟨held.1, congrArg MsgHdr.magic header⟩

/-- The check accepts a packet as a datagram. -/
theorem Packet.check {options : Options} (type : hdr.type.toNat < 2 ^ 9)
    (small : packet.length < 2 ^ 16 + 20) (held : Holds mem 0 packet)
    (right : FingerprintRight crc mem packet.length) :
    (pjStunMsgCheck mem packet.length crc options).result = .ok () := by
  have length := h.length
  have whole := held
  rw [h.bytes] at whole
  have header := msgHdrAt_of_holds (holds_append.mp whole).1
  have first := (h.header held).1
  have all : List.Forall₂ (Chunk hdr) (backAttrs hdr body amsgint afingerprint digest fingerprint)
      (chunks ++ seals) := rel_append (List.forall₂_map_left_iff.mpr h.body) h.sealed
  have fours := length_chunks all
  rw [flatten_append] at fours
  have msgLen : (load16 .big mem 2).toNat = packet.length - 20 := by
    have field : load16 .big mem 2 = UInt16.ofNat (chunks.flatten ++ seals.flatten).length :=
      congrArg MsgHdr.length header
    rw [field, toNat_ofNat (by omega)]
    omega
  have position : packet.length - 20 + 20 - 8 = packet.length - 8 := by omega
  unfold pjStunMsgCheck
  rw [if_neg (by omega), result_bind_of_ok (getByte_result mem 0), first, if_neg (first_byte type),
    result_bind_of_ok (getval16h_result mem 2)]
  rw [msgLen, if_neg (by omega), if_neg (by omega), result_bind_of_ok (getval32h_result mem 4), position]
  split
  · rw [result_bind_of_ok (getval16h_result mem _)]
    split
    · next stray =>
      have ⟨four, same⟩ := right stray
      rw [result_bind_of_ok (getval16h_result mem _), result_bind_of_ok (getval32h_result mem _), four,
        if_neg (by decide), result_bind_of_ok (result_access _ _), same, if_neg (not_not.mpr rfl)]
      rfl
    · rfl
  · rfl

end

/-- A datagram that the check accepts. -/
theorem pjStunMsgCheck_datagram {size : Nat} {checkPacket : Bool}
    (accepted : (pjStunMsgCheck mem size crc ⟨true, checkPacket, false⟩).result = .ok ()) :
    (mem 0 = 0 ∨ mem 0 = 1) ∧ (load16 .big mem 2).toNat + 20 = size ∧
      (load32 .big mem 4 = pjStunMagic → FingerprintRight crc mem size) := by
  unfold pjStunMsgCheck at accepted
  split at accepted
  · cases accepted
  · rw [result_bind_of_ok (getByte_result mem 0)] at accepted
    split at accepted
    · cases accepted
    · next first =>
      rw [result_bind_of_ok (getval16h_result mem 2)] at accepted
      dsimp only at accepted
      split at accepted
      · cases accepted
      · next fits =>
        have size_eq : (load16 .big mem 2).toNat + 20 = size := by
          by_contra other
          exact fits (.inr ⟨rfl, other⟩)
        refine ⟨by tauto, size_eq, ?_⟩
        intro magic stray
        split at accepted
        · cases accepted
        · rw [size_eq, result_bind_of_ok (getval32h_result mem 4), if_pos ⟨magic, rfl⟩,
            result_bind_of_ok (getval16h_result mem _), if_pos stray,
            result_bind_of_ok (getval16h_result mem _), result_bind_of_ok (getval32h_result mem _)] at accepted
          split at accepted
          · cases accepted
          · next four =>
            rw [result_bind_of_ok (result_access _ _)] at accepted
            split at accepted
            · cases accepted
            · next same => exact ⟨not_not.mp four, not_not.mp same⟩

/-- MESSAGE-INTEGRITY as it comes back. -/
theorem Addable.msgint_back (h : Addable attr) (special : attr.type = attrMessageIntegrity) :
    createAttr attr.type (.msgint digest) = softwarePadded (computed digest fingerprint attr) := by
  have of := h.of
  have length := congrArg Attr.length h.created
  rw [special, kindOf_msgint] at of
  rw [computed, if_pos special]
  cases value : attr.value with
  | msgint hmac =>
    rw [value] at length
    exact congrArg (Attr.mk attr.type · (.msgint digest)) length.symm
  | _ =>
    rw [value] at of
    exact of.elim

/-- FINGERPRINT as it comes back. -/
theorem Addable.fingerprint_back (h : Addable attr) (special : attr.type = attrFingerprint) :
    createAttr attr.type (.uint fingerprint) = softwarePadded (computed digest fingerprint attr) := by
  have of := h.of
  have length := congrArg Attr.length h.created
  rw [special, kindOf_fingerprint] at of
  rw [computed, if_neg (by rw [special]; decide), if_pos special]
  cases value : attr.value with
  | uint value =>
    rw [value] at length
    exact congrArg (Attr.mk attr.type · (.uint fingerprint)) length.symm
  | _ =>
    rw [value] at of
    exact of.elim

/-- What comes back of an arranged message. -/
theorem backAttrs_eq (magic : hdr.magic = pjStunMagic) (addable : ∀ attr ∈ attrs, Addable attr)
    (arranged : Arranged attrs body amsgint afingerprint) :
    backAttrs hdr body amsgint afingerprint digest fingerprint =
      (attrs.map (computed digest fingerprint)).map softwarePadded := by
  have parts := arranged.attrs
  have inBody : body.map (Attr.received hdr) =
      body.map (softwarePadded ∘ computed digest fingerprint) := by
    apply map_congr_left
    intro attr among
    have special := not_or.mp (arranged.body attr among)
    have one := addable attr (parts ▸ mem_append_left _ among)
    rw [Function.comp_apply, computed, if_neg special.1, if_neg special.2]
    exact one.received magic
  have inMsgint : (amsgint.map fun attr => createAttr attr.type (.msgint digest)).toList =
      amsgint.toList.map (softwarePadded ∘ computed digest fingerprint) := by
    cases amsgint with
    | none => rfl
    | some attr =>
      have one := addable attr (by rw [parts]; simp)
      exact congrArg ([·]) (one.msgint_back (arranged.msgint attr rfl))
  have inFingerprint : (afingerprint.map fun attr => createAttr attr.type (.uint fingerprint)).toList =
      afingerprint.toList.map (softwarePadded ∘ computed digest fingerprint) := by
    cases afingerprint with
    | none => rfl
    | some attr =>
      have one := addable attr (by rw [parts]; simp)
      exact congrArg ([·]) (one.fingerprint_back (arranged.fingerprint attr rfl))
  rw [map_map, parts, map_append, map_append, backAttrs, sealAttrs, inBody, inMsgint,
    inFingerprint]

/-- A packet is a datagram that the check can accept: the first byte of the type is zero or one, the
length fits its field, and what looks like a FINGERPRINT at the end of a packet without one is right. -/
structure Receivable (crc : Str → UInt32) (mem : Nat → UInt8) (size : Nat) (msg : Msg) : Prop where
  type : msg.hdr.type.toNat < 2 ^ 9
  fits : size < 2 ^ 16 + 20
  stray : (∀ attr ∈ msg.attr, attr.type ≠ attrFingerprint) → FingerprintRight crc mem size

/-- The packet of a message that has been built of values of the kinds of their types, with
MESSAGE-INTEGRITY followed at most by FINGERPRINT and FINGERPRINT last, is accepted by the check exactly
if it is receivable, and then the decoder returns the message with the values that the encoder has
computed, and SOFTWARE with its padding. -/
theorem stun_round_trip (magic : msg.hdr.magic = pjStunMagic)
    (count : msg.attr.length ≤ pjStunMaxAttr) (addable : ∀ attr ∈ msg.attr, Addable attr)
    (arranged : ∃ body amsgint afingerprint, Arranged msg.attr body amsgint afingerprint)
    (encoded : pjStunMsgEncode old bufSize hmac crc msg key = .ok (packet, after))
    (held : Holds mem 0 packet) :
    ((pjStunMsgCheck mem packet.length crc ⟨true, false, false⟩).result = .ok () ↔
        Receivable crc mem packet.length msg) ∧
      (Receivable crc mem packet.length msg → ∀ options,
        (pjStunMsgDecode mem packet.length crc options).result =
          .ok ⟨after.hdr, after.attr.map softwarePadded⟩) ∧
      after.hdr = { msg.hdr with length := UInt16.ofNat (packet.length - 20) } ∧
      ∃ digest fingerprint, after.attr = msg.attr.map (computed digest fingerprint) := by
  have ⟨body, amsgint, afingerprint, arranged⟩ := arranged
  have ⟨digest, fingerprint, chunks, seals, sent, hdr, attrs⟩ :=
    pjStunMsgEncode_packet arranged (fun attr among => (addable attr among).sendable) encoded
  have right : Receivable crc mem packet.length msg → FingerprintRight crc mem packet.length := by
    intro receivable
    cases afingerprint with
    | none => exact receivable.stray fun attr among type => nomatch arranged.fingerprint_eq among type
    | some attr =>
      have last := sent.fingerprintRight held
      exact last
  have check : ∀ options, Receivable crc mem packet.length msg →
      (pjStunMsgCheck mem packet.length crc options).result = .ok () := fun options receivable =>
    sent.check receivable.type receivable.fits held (right receivable)
  refine ⟨⟨?_, check _⟩, ?_, hdr, digest, fingerprint, attrs⟩
  · intro accepted
    have ⟨first, length, last⟩ := pjStunMsgCheck_datagram accepted
    have ⟨type, magicAt⟩ := sent.header held
    have bound := (load16 .big mem 2).toNat_lt
    exact {
      type := by
        rw [type] at first
        exact type_of_first_byte first
      fits := by omega
      stray := fun _ => last (magicAt.trans magic) }
  · intro receivable options
    have length := sent.length
    have decoded := sent.decodeMsg arranged count receivable.fits held
    rw [backAttrs_eq magic addable arranged, ← hdr, ← attrs] at decoded
    rw [pjStunMsgDecode, if_neg (by omega)]
    split
    · rw [result_bind_of_ok (check options receivable)]
      exact decoded
    · exact decoded

/-- A binding request with SOFTWARE and FINGERPRINT. -/
def softwareRequest : Msg where
  hdr := ⟨0x0001, 0, pjStunMagic, Vector.replicate 12 0⟩
  attr := [createAttr attrSoftware (.string [97, 98]), createAttr attrFingerprint (.uint 0)]

/-- Its packet. -/
def softwarePacket : Str :=
  hdrBytes softwareRequest.hdr 16 ++
    [0x80, 0x22, 0, 4, 97, 98, 0, 0, 0x80, 0x28, 0, 4, 0x53, 0x54, 0x55, 0x4e]

theorem softwareRequest_addable : ∀ attr ∈ softwareRequest.attr, Addable attr := by
  intro attr among
  rcases mem_cons.mp among with rfl | among
  · exact ⟨rfl, ⟨"SOFTWARE", .string⟩, by decide, trivial⟩
  · rw [mem_singleton.mp among]
    exact ⟨rfl, ⟨"FINGERPRINT", .uint⟩, by decide, trivial⟩

theorem softwareRequest_arranged : Arranged softwareRequest.attr
    [createAttr attrSoftware (.string [97, 98])] none (some (createAttr attrFingerprint (.uint 0))) where
  attrs := rfl
  body := by decide
  msgint := nofun
  fingerprint := fun _ same => Option.some.inj same ▸ rfl

/-- A request with SOFTWARE comes back with two bytes of padding. -/
theorem stun_round_trip_software :
    (pjStunMsgDecode (softwarePacket.getD · 0) 36 (fun _ => 0) ⟨true, true, false⟩).result =
      .ok ⟨{ softwareRequest.hdr with length := 16 },
        [createAttr attrSoftware (.string [97, 98, 0, 0]),
          createAttr attrFingerprint (.uint stunXorFingerprint)]⟩ := by
  have encoded : pjStunMsgEncode (fun _ => 0) 100 (fun _ _ => Vector.replicate 20 0) (fun _ => 0)
      softwareRequest none = .ok (softwarePacket, _) := rfl
  have fingerprint : createAttr attrFingerprint (.uint 0) ∈ softwareRequest.attr :=
    mem_cons_of_mem _ mem_cons_self
  have receivable : Receivable (fun _ => 0) (softwarePacket.getD · 0) 36 softwareRequest :=
    ⟨by decide, by decide, fun none => absurd rfl (none _ fingerprint)⟩
  exact (stun_round_trip rfl (by decide) softwareRequest_addable ⟨_, _, _, softwareRequest_arranged⟩ encoded
    (holds_getD [] softwarePacket)).2.1 receivable ⟨true, true, false⟩

/-- The check rejects a request whose method is 128 or more, and a request without attributes that has
the type of FINGERPRINT in its transaction ID. -/
theorem stun_round_trip_rejected :
    let high : MsgHdr := ⟨0x0200, 0, pjStunMagic, Vector.replicate 12 0⟩
    let stray : MsgHdr := ⟨0x0001, 0, pjStunMagic, #v[0, 0, 0, 0, 0x80, 0x28, 0, 0, 0, 0, 0, 0]⟩
    let encode := pjStunMsgEncode (fun _ => 0) 20 (fun _ _ => Vector.replicate 20 0) (fun _ => 0)
    let check := fun packet : Str =>
      (pjStunMsgCheck (packet.getD · 0) packet.length (fun _ => 0) ⟨true, false, false⟩).result
    encode ⟨high, []⟩ none = .ok (hdrBytes high 0, ⟨high, []⟩) ∧
      check (hdrBytes high 0) = .error pjnathEinstunmsgtype ∧
      encode ⟨stray, []⟩ none = .ok (hdrBytes stray 0, ⟨stray, []⟩) ∧
      check (hdrBytes stray 0) = .error pjnathEstuninattrlen := by
  decide

end Pjnath.Stun
