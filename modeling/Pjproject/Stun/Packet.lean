import Pjproject.Stun.Coding

/-!
# The packets of the encoder

What `pj_stun_msg_encode` writes for a message whose MESSAGE-INTEGRITY is followed at most by
FINGERPRINT, which is last: the header, the chunks of the attributes before these two, and the chunks
of these two, over what has been written before them.
-/

namespace Pjnath.Stun
open List hiding Vector
open Pj Traced

/-- A message is arranged: some attributes, then perhaps MESSAGE-INTEGRITY, then perhaps FINGERPRINT. -/
structure Arranged (attrs body : List Attr) (amsgint afingerprint : Option Attr) : Prop where
  attrs : attrs = body ++ (amsgint.toList ++ afingerprint.toList)
  body : ∀ attr ∈ body, ¬(attr.type = attrMessageIntegrity ∨ attr.type = attrFingerprint)
  msgint : ∀ attr ∈ amsgint, attr.type = attrMessageIntegrity
  fingerprint : ∀ attr ∈ afingerprint, attr.type = attrFingerprint

/-- The attributes with the values that the encoder computes. -/
def computed (digest : Vector UInt8 20) (fingerprint : UInt32) (attr : Attr) : Attr :=
  if attr.type = attrMessageIntegrity then { attr with value := .msgint digest }
  else if attr.type = attrFingerprint then { attr with value := .uint fingerprint }
  else attr

variable {hdr : MsgHdr} {body : List Attr} {amsgint afingerprint : Option Attr}

/-! ## The header -/

theorem length_hdrBytes (hdr : MsgHdr) (length : UInt16) : (hdrBytes hdr length).length = 20 := by
  rw [hdrBytes, length_append, length_append, length_append, length_store16, length_store16,
    length_store32, Vector.length_toList]

theorem setLength_hdrBytes (hdr : MsgHdr) (before after : UInt16) (rest : Str) :
    setLength (hdrBytes hdr before ++ rest) after = hdrBytes hdr after ++ rest := rfl

theorem packetLength_hdrBytes (hdr : MsgHdr) (length : UInt16) (rest : Str) :
    packetLength (hdrBytes hdr length ++ rest) = length :=
  Holds.load16 ⟨rfl, rfl, trivial⟩

theorem msgHdrAt_of_holds {mem : Nat → UInt8} {length : UInt16} (held : Holds mem 0 (hdrBytes hdr length)) :
    msgHdrAt mem = { hdr with length := length } := by
  have parts := holds_append.mp held
  have words := holds_append.mp parts.1
  have types := holds_append.mp words.1
  have second : Holds mem 2 (store16 .big length) := types.2
  have third : Holds mem 4 (store32 .big hdr.magic) := words.2
  have fourth : Holds mem 8 hdr.tsxId.toList := parts.2
  rw [msgHdrAt, types.1.load16, second.load16, third.load32, array_of_holds fourth]

/-! ## The loops -/

variable {attrs : List Attr} {attr : Attr}

section
variable (h : Arranged attrs body amsgint afingerprint)
include h

theorem scanAttrs_arranged :
    scanAttrs (amsgint.toList ++ afingerprint.toList) none none = .ok (amsgint, afingerprint) := by
  have msgint := h.msgint
  have fingerprint := h.fingerprint
  have different : attrFingerprint ≠ attrMessageIntegrity := by decide
  cases amsgint <;> cases afingerprint <;>
    simp_all [scanAttrs]

theorem Arranged.among (among : attr ∈ attrs) :
    attr ∈ body ∨ amsgint = some attr ∨ afingerprint = some attr := by
  rw [h.attrs, mem_append, mem_append, Option.mem_toList, Option.mem_toList] at among
  exact among

/-- The only MESSAGE-INTEGRITY. -/
theorem Arranged.msgint_eq (among : attr ∈ attrs) (type : attr.type = attrMessageIntegrity) :
    amsgint = some attr := by
  rcases h.among among with inside | same | last
  · exact absurd (.inl type) (h.body attr inside)
  · exact same
  · have other := h.fingerprint attr last
    rw [type] at other
    exact absurd other (by decide)

/-- The only FINGERPRINT. -/
theorem Arranged.fingerprint_eq (among : attr ∈ attrs) (type : attr.type = attrFingerprint) :
    afingerprint = some attr := by
  rcases h.among among with inside | same | last
  · exact absurd (.inr type) (h.body attr inside)
  · have other := h.msgint attr same
    rw [type] at other
    exact absurd other (by decide)
  · exact last

end

/-! ## Values that are computed -/

/-- The attributes of a type get a value. -/
def setValue (type : UInt16) (value : AttrValue) (attr : Attr) : Attr :=
  if attr.type = type then { attr with value := value } else attr

theorem setValue_type (type : UInt16) (value : AttrValue) (attr : Attr) :
    (setValue type value attr).type = attr.type := by
  unfold setValue
  split <;> rfl

theorem computed_eq (digest : Vector UInt8 20) (fingerprint : UInt32) (attr : Attr) :
    computed digest fingerprint attr =
      setValue attrFingerprint (.uint fingerprint) (setValue attrMessageIntegrity (.msgint digest) attr) := by
  rw [computed, setValue, setValue_type]
  by_cases msgint : attr.type = attrMessageIntegrity
  · rw [if_pos msgint, if_neg (by rw [msgint]; decide), setValue, if_pos msgint]
  · rw [if_neg msgint, setValue, if_neg msgint]

/-- To patch the only attribute of a type is to set its value. -/
theorem patch_eq {msg : Msg} {type : UInt16} {value : AttrValue} (same : attr.type = type)
    (only : ∀ other ∈ msg.attr, other.type = type → some attr = some other) :
    msg.patch { attr with value := value } = { msg with attr := msg.attr.map (setValue type value) } := by
  have each : ∀ other ∈ msg.attr, (if other.type = attr.type then { attr with value := value } else other) =
      setValue type value other := by
    intro other among
    rw [setValue, same]
    by_cases special : other.type = type
    · rw [if_pos special, if_pos special, ← Option.some.inj (only other among special), same]
    · rw [if_neg special, if_neg special]
  exact congrArg (Msg.mk msg.hdr) (map_congr_left each)

/-- Without an attribute of the type there is nothing to set. -/
theorem setValue_absent {type : UInt16} {value : AttrValue}
    (absent : ∀ attr ∈ attrs, attr.type ≠ type) : attrs.map (setValue type value) = attrs := by
  conv_rhs => rw [← map_id attrs]
  apply map_congr_left
  intro attr among
  rw [setValue, if_neg (absent attr among), id]

/-- The chunks are those of the attributes, as they come back. -/
def Chunks (hdr : MsgHdr) (attrs : List Attr) (chunks : List Str) : Prop :=
  List.Forall₂ (fun attr chunk => Chunk hdr (attr.received hdr) chunk) attrs chunks

theorem Sendable.withValue {value : AttrValue} (h : Sendable attr)
    (length : initLength value = initLength attr.value) (known : ∀ attrs, value ≠ .unknown attrs) :
    Sendable { attr with value := value } where
  created := by
    rw [length]
    exact h.created
  few := fun attrs same => absurd same (known attrs)
  optional := h.optional

variable {old : Nat → UInt8} {bufSize : Nat} {hmac : Str → Str → Vector UInt8 20} {crc : Str → UInt32}
variable {key : Option Str} {msg msg' : Msg} {out after : Str}

theorem received_msgint (hdr : MsgHdr) (attr : Attr) (digest : Vector UInt8 20) :
    Attr.received hdr { attr with value := .msgint digest } = createAttr attr.type (.msgint digest) := by
  rw [Attr.received]
  cases kindOf attr.type <;> rfl

theorem received_uint (hdr : MsgHdr) (attr : Attr) (value : UInt32) :
    Attr.received hdr { attr with value := .uint value } = createAttr attr.type (.uint value) := by
  rw [Attr.received]
  cases kindOf attr.type <;> rfl

theorem kindOf_msgint : kindOf attrMessageIntegrity = .msgint := by decide

theorem kindOf_fingerprint : kindOf attrFingerprint = .uint := by decide

/-- MESSAGE-INTEGRITY is a chunk of 24 bytes, over what has been written before. -/
theorem encodeMsgint_chunk (special : attr.type = attrMessageIntegrity) (sendable : Sendable attr)
    (encoded : encodeMsgint old bufSize hmac key (some attr) out msg = .ok (after, msg')) :
    ∃ (secret : Str) (chunk : Str),
      key = some secret ∧ after = out ++ chunk ∧ chunk.length = 24 ∧
        Chunk msg.hdr (createAttr attr.type (.msgint (hmac secret out))) chunk ∧
        msg' = msg.patch { attr with value := .msgint (hmac secret out) } := by
  rcases encodeMsgint_ok encoded with ⟨none, -⟩ | ⟨known, secret, _, _, same, given, value, found,
    rest⟩
  · cases none
  · cases same
    cases rest
    have again := sendable.withValue (by rw [value]; rfl : initLength (.msgint (hmac secret out)) =
      initLength attr.value) nofun
    have kind : kindOf attr.type = .msgint := special ▸ kindOf_msgint
    rw [← kind] at found
    have ⟨chunk, joined, chunked⟩ := encodeAttr_chunk again found
    rw [received_msgint] at chunked
    have msgint : pad4 20 + 4 = 24 := by decide
    exact ⟨secret, chunk, given, joined, chunked.length.trans msgint, chunked, rfl⟩

/-- FINGERPRINT is a chunk of 8 bytes, over what has been written before with the length put right. -/
theorem encodeFingerprint_chunk (special : attr.type = attrFingerprint) (sendable : Sendable attr)
    (encoded : encodeFingerprint old bufSize crc (some attr) out msg = .ok (after, msg')) :
    ∃ chunk : Str,
      let signed := setLength out (packetLength out + 8)
      after = signed ++ chunk ∧ chunk.length = 8 ∧
        Chunk msg.hdr (createAttr attr.type (.uint (crc signed ^^^ stunXorFingerprint))) chunk ∧
        msg' = msg.patch { attr with value := .uint (crc signed ^^^ stunXorFingerprint) } := by
  rcases encodeFingerprint_ok encoded with ⟨none, -⟩ | ⟨known, _, _, same, value, found, rest⟩
  · cases none
  · cases same
    cases rest
    have again := sendable.withValue (by rw [value]; rfl : initLength
      (.uint (crc (setLength out (packetLength out + 8)) ^^^ stunXorFingerprint)) =
        initLength attr.value) nofun
    have kind : kindOf attr.type = .uint := special ▸ kindOf_fingerprint
    rw [← kind] at found
    have ⟨chunk, joined, chunked⟩ := encodeAttr_chunk again found
    rw [received_uint] at chunked
    have uint : pad4 4 + 4 = 8 := by decide
    exact ⟨chunk, joined, chunked.length.trans uint, chunked, rfl⟩

/-- The last two attributes, as they come back. -/
def sealAttrs (amsgint afingerprint : Option Attr) (digest : Vector UInt8 20) (fingerprint : UInt32) :
    List Attr :=
  (amsgint.map fun attr => createAttr attr.type (.msgint digest)).toList ++
    (afingerprint.map fun attr => createAttr attr.type (.uint fingerprint)).toList

/-- A packet of a message: the chunks of the attributes before MESSAGE-INTEGRITY, and those of the two
that may follow, with what has been computed over the bytes before. -/
structure Packet (hmac : Str → Str → Vector UInt8 20) (crc : Str → UInt32) (key : Option Str)
    (hdr : MsgHdr) (body : List Attr) (amsgint afingerprint : Option Attr) (digest : Vector UInt8 20)
    (fingerprint : UInt32) (packet : Str) (chunks seals : List Str) : Prop where
  bytes : packet = hdrBytes hdr (UInt16.ofNat (chunks.flatten ++ seals.flatten).length) ++
    (chunks.flatten ++ seals.flatten)
  body : List.Forall₂ (fun attr chunk => Chunk hdr (attr.received hdr) chunk) body chunks
  sealed : List.Forall₂ (Chunk hdr) (sealAttrs amsgint afingerprint digest fingerprint) seals
  digest : amsgint.isSome → ∃ secret, key = some secret ∧
    digest = hmac secret
      (hdrBytes hdr (UInt16.ofNat (chunks.flatten.length + 24)) ++ chunks.flatten)
  fingerprint : afingerprint.isSome → ∃ signed chunk : Str, packet = signed ++ chunk ∧
    Chunk hdr (createAttr attrFingerprint (.uint fingerprint)) chunk ∧
    fingerprint = crc signed ^^^ stunXorFingerprint

/-- MESSAGE-INTEGRITY, where there is one, behind the chunks before it. -/
theorem encodeMsgint_seals {chunks : Str} (arranged : Arranged msg.attr body amsgint afingerprint)
    (sendable : ∀ attr ∈ msg.attr, Sendable attr)
    (encoded : encodeMsgint old bufSize hmac key amsgint
      (hdrBytes msg.hdr (UInt16.ofNat (chunks.length + if amsgint.isSome then 24 else 0)) ++ chunks)
      msg = .ok (out, msg')) :
    ∃ (digest : Vector UInt8 20) (seals : List Str),
      out = hdrBytes msg.hdr (UInt16.ofNat (chunks ++ seals.flatten).length) ++ (chunks ++ seals.flatten) ∧
      List.Forall₂ (Chunk msg.hdr)
        (amsgint.map fun attr => createAttr attr.type (.msgint digest)).toList seals ∧
      (amsgint.isSome → ∃ secret, key = some secret ∧
        digest = hmac secret (hdrBytes msg.hdr (UInt16.ofNat (chunks.length + 24)) ++ chunks)) ∧
      msg' = { msg with attr := msg.attr.map (setValue attrMessageIntegrity (.msgint digest)) } := by
  cases amsgint with
  | none =>
    cases encoded
    have absent : ∀ attr ∈ msg.attr, attr.type ≠ attrMessageIntegrity :=
      fun attr among type => nomatch arranged.msgint_eq among type
    refine ⟨Vector.replicate 20 0, [], ?_, .nil, nofun, ?_⟩
    · rw [flatten_nil, append_nil]
      rfl
    · rw [setValue_absent absent]
  | some attr =>
    have among : attr ∈ msg.attr := by
      rw [arranged.attrs]
      simp
    have ⟨secret, chunk, given, joined, long, chunked, rest⟩ :=
      encodeMsgint_chunk (arranged.msgint attr rfl) (sendable attr among) encoded
    refine ⟨_, [chunk], ?_, .cons chunked .nil, fun _ => ⟨secret, given, rfl⟩, ?_⟩
    · rw [joined, flatten_singleton, length_append, long, append_assoc]
      rfl
    · rw [rest]
      exact patch_eq (arranged.msgint attr rfl) fun other inside type => arranged.msgint_eq inside type

/-- FINGERPRINT, where there is one, behind the chunks before it. -/
theorem encodeFingerprint_seals {chunks : Str} (same : hdr = msg.hdr)
    (only : ∀ attr ∈ msg.attr, attr.type = attrFingerprint → afingerprint = some attr)
    (type : ∀ attr ∈ afingerprint, attr.type = attrFingerprint ∧ Sendable attr)
    (encoded : encodeFingerprint old bufSize crc afingerprint
      (hdrBytes hdr (UInt16.ofNat chunks.length) ++ chunks) msg = .ok (out, msg')) :
    ∃ (fingerprint : UInt32) (seals : List Str),
      out = hdrBytes hdr (UInt16.ofNat (chunks ++ seals.flatten).length) ++ (chunks ++ seals.flatten) ∧
      List.Forall₂ (Chunk hdr)
        (afingerprint.map fun attr => createAttr attr.type (.uint fingerprint)).toList seals ∧
      (afingerprint.isSome → ∃ signed chunk : Str, out = signed ++ chunk ∧
        Chunk hdr (createAttr attrFingerprint (.uint fingerprint)) chunk ∧
        fingerprint = crc signed ^^^ stunXorFingerprint) ∧
      msg' = { msg with attr := msg.attr.map (setValue attrFingerprint (.uint fingerprint)) } := by
  cases afingerprint with
  | none =>
    cases encoded
    have absent : ∀ attr ∈ msg.attr, attr.type ≠ attrFingerprint :=
      fun attr among type => nomatch only attr among type
    refine ⟨0, [], ?_, .nil, nofun, ?_⟩
    · rw [flatten_nil, append_nil]
    · rw [setValue_absent absent]
  | some attr =>
    have ⟨special, sendable⟩ := type attr rfl
    have ⟨chunk, joined, long, chunked, rest⟩ := encodeFingerprint_chunk special sendable encoded
    rw [packetLength_hdrBytes, setLength_hdrBytes] at joined chunked rest
    rw [← same] at chunked
    have last := chunked
    rw [special] at last
    refine ⟨_, [chunk], ?_, .cons chunked .nil, fun _ => ⟨_, chunk, joined, last, rfl⟩, ?_⟩
    · have length : UInt16.ofNat chunks.length + 8 = UInt16.ofNat (chunks.length + 8) :=
        (UInt16.ofNat_add _ _).symm
      rw [joined, flatten_singleton, length_append, long, append_assoc, length]
    · rw [rest]
      exact patch_eq special fun other inside type => only other inside type

/-- The encoder writes a packet, and leaves in the message what it has computed. -/
theorem pjStunMsgEncode_packet (arranged : Arranged msg.attr body amsgint afingerprint)
    (sendable : ∀ attr ∈ msg.attr, Sendable attr)
    (encoded : pjStunMsgEncode old bufSize hmac crc msg key = .ok (after, msg')) :
    ∃ (digest : Vector UInt8 20) (fingerprint : UInt32) (chunks seals : List Str),
      Packet hmac crc key msg.hdr body amsgint afingerprint digest fingerprint after chunks seals ∧
        msg'.hdr = { msg.hdr with length := UInt16.ofNat (after.length - 20) } ∧
        msg'.attr = msg.attr.map (computed digest fingerprint) := by
  have ⟨_, out, stopped, found, ⟨signed, between⟩, ⟨packet, last⟩, attrs, scanned, first, second,
    same⟩ :=
    pjStunMsgEncode_ok encoded
  cases same
  have special : ∀ attr ∈ amsgint.toList ++ afingerprint.toList,
      attr.type = attrMessageIntegrity ∨ attr.type = attrFingerprint := by
    intro attr among
    cases mem_append.mp among with
    | inl msgint => exact .inl (arranged.msgint attr (Option.mem_toList.mp msgint))
    | inr fingerprint => exact .inr (arranged.fingerprint attr (Option.mem_toList.mp fingerprint))
  rw [arranged.attrs] at attrs
  have ⟨same, chunks, joined, all⟩ := encodeAttrs_chunks
    (fun attr among => sendable attr (arranged.attrs ▸ mem_append_left _ among))
    arranged.body special attrs
  rw [same, scanAttrs_arranged arranged] at scanned
  cases scanned
  have long : out.length - 20 = chunks.flatten.length := by
    rw [joined, length_append, length_hdrBytes]
    omega
  rw [long, joined, setLength_hdrBytes] at first
  have ⟨digest, seals1, written, sealed1, signed1, rest⟩ :=
    encodeMsgint_seals arranged sendable first
  rw [written] at second
  have only : ∀ attr ∈ between.attr, attr.type = attrFingerprint → afingerprint = some attr := by
    intro attr among type
    rw [rest] at among
    obtain ⟨before, inside, rfl⟩ := mem_map.mp among
    rw [setValue_type] at type
    rw [setValue, if_neg (by rw [type]; decide)]
    exact arranged.fingerprint_eq inside type
  have types : ∀ attr ∈ afingerprint, attr.type = attrFingerprint ∧ Sendable attr := by
    intro attr among
    apply And.intro (arranged.fingerprint attr among)
    apply sendable
    rw [arranged.attrs]
    exact mem_append_right _ (mem_append_right _ (Option.mem_toList.mpr among))
  have ⟨fingerprint, seals2, packet, sealed2, signed2, last⟩ :=
    encodeFingerprint_seals (by rw [rest]) only types second
  rw [append_assoc] at packet
  refine ⟨digest, fingerprint, chunks, seals1 ++ seals2, ⟨?_, all, ?_, signed1, signed2⟩, ?_, ?_⟩
  · rw [flatten_append]
    exact packet
  · exact rel_append sealed1 sealed2
  · rw [last, rest]
  · rw [last, rest]
    rw [map_map]
    apply map_congr_left
    intro attr _
    exact (computed_eq digest fingerprint attr).symm

/-! ## Decoding a packet -/

theorem accept_plain {parsed : Parsed} (room : parsed.attr.length < pjStunMaxAttr)
    (open' : parsed.hasFingerprint = false)
    (plain : ¬(attr.type = attrMessageIntegrity ∨ attr.type = attrFingerprint)) :
    accept parsed attr = some { parsed with attr := parsed.attr ++ [attr] } := by
  have ⟨msgint, fingerprint⟩ := not_or.mp plain
  rw [accept, if_neg (Nat.not_le.mpr room)]
  cases findAttrDesc attr.type with
  | none => rfl
  | some desc =>
    have position : checkPosition parsed attr.type = .ok parsed := by
      rw [checkPosition, if_neg (fun both => msgint both.1), if_neg fingerprint, open']
      rfl
    rw [position]

theorem accept_msgint (room : attrs.length < pjStunMaxAttr)
    (special : attr.type = attrMessageIntegrity) :
    accept ⟨attrs, false, false⟩ attr = some ⟨attrs ++ [attr], true, false⟩ := by
  have ⟨desc, known⟩ := Option.isSome_iff_exists.mp
    (by decide : (findAttrDesc attrMessageIntegrity).isSome)
  rw [accept, if_neg (Nat.not_le.mpr room), special, known]
  rfl

theorem accept_fingerprint {hasMsgInt : Bool} (room : attrs.length < pjStunMaxAttr)
    (special : attr.type = attrFingerprint) :
    accept ⟨attrs, hasMsgInt, false⟩ attr = some ⟨attrs ++ [attr], hasMsgInt, true⟩ := by
  have ⟨desc, known⟩ := Option.isSome_iff_exists.mp
    (by decide : (findAttrDesc attrFingerprint).isSome)
  rw [accept, if_neg (Nat.not_le.mpr room), special, known]
  rfl

theorem acceptAll_plain {parsed : Parsed}
    (room : parsed.attr.length + attrs.length ≤ pjStunMaxAttr)
    (still : parsed.hasFingerprint = false)
    (plain : ∀ attr ∈ attrs, ¬(attr.type = attrMessageIntegrity ∨ attr.type = attrFingerprint)) :
    acceptAll parsed attrs = some { parsed with attr := parsed.attr ++ attrs } := by
  induction attrs generalizing parsed with
  | nil =>
    rw [append_nil]
    rfl
  | cons attr rest ih =>
    rw [length_cons] at room
    have left : (parsed.attr ++ [attr]).length + rest.length ≤ pjStunMaxAttr := by
      rw [length_append, length_singleton]
      omega
    have later : acceptAll { parsed with attr := parsed.attr ++ [attr] } rest = _ :=
      ih left still fun other among => plain other (mem_cons_of_mem _ among)
    rw [acceptAll, accept_plain (by omega) still (plain attr mem_cons_self)]
    dsimp only
    rw [later, append_assoc]
    rfl

/-- Arranged attributes are accepted. -/
theorem Arranged.accepted (h : Arranged attrs body amsgint afingerprint)
    (count : attrs.length ≤ pjStunMaxAttr) : (acceptAll ⟨[], false, false⟩ attrs).isSome := by
  rw [h.attrs, length_append, length_append] at count
  have plain : acceptAll ⟨[], false, false⟩ body = some ⟨body, false, false⟩ :=
    acceptAll_plain (by rw [length_nil]; omega) rfl h.body
  rw [h.attrs, acceptAll_append, plain, Option.bind_some]
  cases amsgint with
  | none =>
    cases afingerprint with
    | none => rfl
    | some last =>
      have one : (some last).toList.length = 1 := rfl
      have fingerprint : accept ⟨body, false, false⟩ last = _ :=
        accept_fingerprint (by omega) (h.fingerprint last rfl)
      rw [Option.toList_none, nil_append, Option.toList_some, acceptAll, fingerprint]
      rfl
  | some attr =>
    have one : (some attr).toList.length = 1 := rfl
    have msgint : accept ⟨body, false, false⟩ attr = _ := accept_msgint (by omega) (h.msgint attr rfl)
    rw [Option.toList_some, singleton_append, acceptAll, msgint]
    cases afingerprint with
    | none => rfl
    | some last =>
      have two : (some last).toList.length = 1 := rfl
      have room : (body ++ [attr]).length < pjStunMaxAttr := by
        rw [length_append, length_singleton]
        omega
      have fingerprint : accept ⟨body ++ [attr], true, false⟩ last = _ :=
        accept_fingerprint room (h.fingerprint last rfl)
      dsimp only
      rw [Option.toList_some, acceptAll, fingerprint]
      rfl

/-- The attributes of a packet, as they come back. -/
def backAttrs (hdr : MsgHdr) (body : List Attr) (amsgint afingerprint : Option Attr)
    (digest : Vector UInt8 20) (fingerprint : UInt32) : List Attr :=
  body.map (Attr.received hdr) ++ sealAttrs amsgint afingerprint digest fingerprint

/-- What comes back is arranged in the same way. -/
theorem Arranged.received (h : Arranged attrs body amsgint afingerprint) (hdr : MsgHdr)
    (digest : Vector UInt8 20) (fingerprint : UInt32) :
    Arranged (backAttrs hdr body amsgint afingerprint digest fingerprint) (body.map (Attr.received hdr))
      (amsgint.map fun attr => createAttr attr.type (.msgint digest))
      (afingerprint.map fun attr => createAttr attr.type (.uint fingerprint)) where
  attrs := rfl
  body := by
    intro attr among
    obtain ⟨before, inside, rfl⟩ := mem_map.mp among
    exact h.body before inside
  msgint := by
    intro attr among
    obtain ⟨before, inside, rfl⟩ := Option.map_eq_some_iff.mp among
    exact h.msgint before inside
  fingerprint := by
    intro attr among
    obtain ⟨before, inside, rfl⟩ := Option.map_eq_some_iff.mp among
    exact h.fingerprint before inside

variable {digest : Vector UInt8 20} {fingerprint : UInt32} {packet : Str} {chunks seals : List Str}

section
variable
  (h : Packet hmac crc key hdr body amsgint afingerprint digest fingerprint packet chunks seals)
include h

theorem Packet.length : packet.length = 20 + (chunks.flatten ++ seals.flatten).length := by
  rw [h.bytes, length_append, length_hdrBytes]

/-- A packet that is not too long is decoded, and all its attributes come back. -/
theorem Packet.decodeMsg {mem : Nat → UInt8} (arranged : Arranged attrs body amsgint afingerprint)
    (count : attrs.length ≤ pjStunMaxAttr) (small : packet.length < 2 ^ 16 + 20)
    (held : Holds mem 0 packet) :
    (decodeMsg mem).result = .ok
      { hdr := { hdr with length := UInt16.ofNat (packet.length - 20) }
        attr := backAttrs hdr body amsgint afingerprint digest fingerprint } := by
  have length := h.length
  have whole := held
  rw [h.bytes] at whole
  have parts := holds_append.mp whole
  have header := msgHdrAt_of_holds parts.1
  have bodyLength : (chunks.flatten ++ seals.flatten).length = packet.length - 20 := by omega
  rw [bodyLength] at header
  apply decodeMsg_result_iff.mpr
  refine ⟨header.symm, ?_, ?_⟩
  · have flat : chunks.flatten ++ seals.flatten = (chunks ++ seals).flatten :=
      flatten_append.symm
    have behind : Holds mem 20 (chunks ++ seals).flatten := by
      have second := parts.2
      rw [length_hdrBytes, flat] at second
      exact second
    have all : List.Forall₂ (Chunk hdr) (backAttrs hdr body amsgint afingerprint digest fingerprint)
        (chunks ++ seals) := rel_append (List.forall₂_map_left_iff.mpr h.body) h.sealed
    rw [flat] at bodyLength
    have same : ({ hdr with length := UInt16.ofNat (packet.length - 20) } : MsgHdr).tsxId = hdr.tsxId := rfl
    have laid := laid_of_chunks same all (by omega) behind
    rw [bodyLength] at laid
    rw [toNat_ofNat (by omega)]
    exact laid
  · apply (arranged.received hdr digest fingerprint).accepted
    rw [arranged.attrs] at count
    have kept : ∀ (sent : Option Attr) (back : Attr → Attr),
        (sent.map back).toList.length = sent.toList.length := fun sent _ => by cases sent <;> rfl
    rw [backAttrs, sealAttrs, length_append, length_append, length_map, kept, kept,
      ← length_append, ← length_append]
    exact count

end

end Pjnath.Stun
