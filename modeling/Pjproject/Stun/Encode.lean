import Pjproject.Stun.Msg

/-!
# The STUN encoder

`pj_stun_msg_encode`, which writes the packet from the start of a buffer on, and the functions that
build attributes. What the buffer held before shows where the encoder moves on over padding that it
does not write.
-/

namespace Pjnath.Stun
open Pj

/-- `PJ_STUN_MAX_PKT_LEN`. -/
def pjStunMaxPktLen : Nat := 800

/-- `padding_char`, which is not set but by a test. -/
def paddingChar : UInt8 := 0

/-- What ends the encoder without a packet: it returns a status, or does what C gives no meaning to,
which is to write outside the buffer, or to take a value for one of another kind. -/
inductive Fault
  | status (status : Int)
  | undefined
deriving DecidableEq, Repr

/-! ## Building attributes -/

/-- The length that `INIT_ATTR` gets from the functions that create attributes. -/
def initLength : AttrValue → Nat
  | .sockaddr _ (.inet _ _) => 8
  | .sockaddr _ (.inet6 _ _) => 20
  | .empty => 0
  | .string value => value.length
  | .uint _ => 4
  | .uint64 _ _ => 8
  | .msgint _ => 20
  | .errcode _ reason => 4 + reason.length
  | .unknown attrs => attrs.length * 2
  | .binary data => data.length

/-- An attribute as the functions `pj_stun_*_attr_create` make it. -/
def createAttr (type : UInt16) (value : AttrValue) : Attr where
  type := type
  length := UInt16.ofNat (initLength value)
  value := value

/-- `pj_stun_msg_create`. -/
def pjStunMsgCreate (msgType : UInt16) (magic : UInt32) (tsxId : Vector UInt8 12) : Msg where
  hdr := ⟨msgType, 0, magic, tsxId⟩
  attr := []

/-- `pj_stun_msg_add_attr`. -/
def pjStunMsgAddAttr (msg : Msg) (attr : Attr) : Except Int Msg :=
  if msg.attr.length < pjStunMaxAttr then .ok { msg with attr := msg.attr ++ [attr] }
  else .error pjEtoomany

/-! ## Attributes -/

/-- What an encoder of attributes writes behind the type: the length field and the value; and the
room that it asks for. -/
structure Piece where
  length : UInt16
  body : Str
  need : Nat
deriving DecidableEq, Repr

/-- The family, the port and the address. -/
def sockaddrBytes : Sockaddr → Str
  | .inet port addr => [0, 1] ++ port.toList ++ addr.toList
  | .inet6 port addr => [0, 2] ++ port.toList ++ addr.toList

/-- The zero bytes behind a string. -/
def stringPadding (value : Str) : Str :=
  List.replicate (pad4 value.length - value.length) paddingChar

/-- The encoders of the kinds. There is none for a value of another kind. -/
def encodeValue (hdr : MsgHdr) (attr : Attr) (kind : Kind) : Option Piece :=
  match kind, attr.value with
  | .sockaddr, .sockaddr xorEd sockaddr | .xoredSockaddr, .sockaddr xorEd sockaddr =>
    let body := sockaddrBytes (if xorEd then xorSockaddr hdr sockaddr else sockaddr)
    some ⟨UInt16.ofNat body.length, body, 4 + body.length⟩
  | .empty, .empty => some ⟨0, [], 4⟩
  | .string, .string value =>
    let body := value ++ stringPadding value
    let length := if hdr.magic ≠ pjStunMagic ∨ attr.type = attrSoftware then body.length
      else value.length
    some ⟨UInt16.ofNat length, body, 4 + body.length⟩
  | .uint, .uint value => some ⟨4, store32 .big value, 8⟩
  | .uint64, .uint64 hi lo => some ⟨8, store32 .big hi ++ store32 .big lo, 12⟩
  | .msgint, .msgint hmac => some ⟨attr.length, hmac.toList, 24⟩
  | .errcode, .errcode errCode reason =>
    let body := [0, 0, UInt8.ofInt (errCode.tdiv 100), UInt8.ofInt (errCode.tmod 100)] ++ reason
    some ⟨UInt16.ofNat (4 + reason.length), body, 8 + reason.length⟩
  | .unknown, .unknown attrs =>
    let body := attrs.flatMap (store16 .big)
    some ⟨UInt16.ofNat (attrs.length * 2), body, 4 + attrs.length * 2⟩
  | .binary, .binary data => some ⟨UInt16.ofNat data.length, data, 4 + pad4 data.length⟩
  | _, _ => none

/-- The kinds that `encode_sockaddr_attr` is for. -/
def Kind.isSockaddr : Kind → Bool
  | .sockaddr | .xoredSockaddr => true
  | _ => false

variable (old : Nat → UInt8) (bufSize : Nat)

/-- An attribute is written behind `out`, as one of a kind. The room is an `unsigned`, and grows large
where the pointer has moved behind the buffer. The encoders of addresses write the type before they
look at it. -/
def encodeAttr (hdr : MsgHdr) (attr : Attr) (kind : Kind) (out : Str) : Except Fault Str :=
  match encodeValue hdr attr kind with
  | none => .error .undefined
  | some piece =>
    let room : Int := (bufSize - out.length : Int) % 2 ^ 32
    if kind.isSockaddr ∧ bufSize < out.length + 2 then .error .undefined
    else if room < piece.need then .error (.status pjEtoosmall)
    else if bufSize < out.length + (4 + piece.body.length) then .error .undefined
    else
      let written := out ++ store16 .big attr.type ++ store16 .big piece.length ++ piece.body
      .ok (written ++ bytesAt old written.length (pad4 piece.body.length - piece.body.length))

/-! ## Messages -/

/-- The kind that an attribute is encoded as: as a binary one if its type is not known. -/
def kindOf (attrType : UInt16) : Kind := ((findAttrDesc attrType).map AttrDesc.kind).getD .binary

/-- The first loop of `pj_stun_msg_encode`, with the attributes from the first MESSAGE-INTEGRITY or
FINGERPRINT on. -/
def encodeAttrs (hdr : MsgHdr) : List Attr → Str → Except Fault (Str × List Attr)
  | [], out => .ok (out, [])
  | attr :: rest, out =>
    if attr.type = attrMessageIntegrity ∨ attr.type = attrFingerprint then .ok (out, attr :: rest)
    else
      match encodeAttr old bufSize hdr attr (kindOf attr.type) out with
      | .error fault => .error fault
      | .ok out => encodeAttrs hdr rest out

/-- The second loop, over the attributes that are left. -/
def scanAttrs : List Attr → Option Attr → Option Attr → Except Fault (Option Attr × Option Attr)
  | [], amsgint, afingerprint => .ok (amsgint, afingerprint)
  | attr :: rest, amsgint, afingerprint =>
    if afingerprint.isSome then .error (.status pjnathEstunfingerpos)
    else if attr.type = attrMessageIntegrity then
      if amsgint.isSome then .error (.status pjnathEstunmsgintpos)
      else scanAttrs rest (some attr) afingerprint
    else if attr.type = attrFingerprint then scanAttrs rest amsgint (some attr)
    else scanAttrs rest amsgint afingerprint

/-- The header of a packet. -/
def hdrBytes (hdr : MsgHdr) (length : UInt16) : Str :=
  store16 .big hdr.type ++ store16 .big length ++ store32 .big hdr.magic ++ hdr.tsxId.toList

/-- `PUTVAL16H(start, 2, length)`. -/
def setLength (out : Str) (length : UInt16) : Str := out.take 2 ++ store16 .big length ++ out.drop 4

/-- `GETVAL16H(start, 2)`. -/
def packetLength (out : Str) : UInt16 := load16 .big (out.getD · 0) 2

/-- The attribute of a type is changed in place. -/
def Msg.patch (msg : Msg) (attr : Attr) : Msg where
  hdr := msg.hdr
  attr := msg.attr.map fun other => if other.type = attr.type then attr else other

variable (hmac : Str → Str → Vector UInt8 20) (crc : Str → UInt32)

/-- The MESSAGE-INTEGRITY, if there is one. The test of its position that is made here never fails:
the index is behind all attributes. -/
def encodeMsgint (key : Option Str) (amsgint : Option Attr) (out : Str) (msg : Msg) :
    Except Fault (Str × Msg) :=
  match amsgint with
  | none => .ok (out, msg)
  | some attr =>
    match key, attr.value with
    | none, _ => .error (.status pjEinvalidop)
    | some key, .msgint _ =>
      let attr := { attr with value := .msgint (hmac key out) }
      match encodeAttr old bufSize msg.hdr attr .msgint out with
      | .error fault => .error fault
      | .ok out => .ok (out, msg.patch attr)
    | _, _ => .error .undefined

/-- The FINGERPRINT, if there is one. -/
def encodeFingerprint (afingerprint : Option Attr) (out : Str) (msg : Msg) :
    Except Fault (Str × Msg) :=
  match afingerprint with
  | none => .ok (out, msg)
  | some attr =>
    match attr.value with
    | .uint _ =>
      let out := setLength out (packetLength out + 8)
      let attr := { attr with value := .uint (crc out ^^^ stunXorFingerprint) }
      match encodeAttr old bufSize msg.hdr attr .uint out with
      | .error fault => .error fault
      | .ok out => .ok (out, msg.patch attr)
    | _ => .error .undefined

/-- `pj_stun_msg_encode`, with `pj_hmac_sha1` and `pj_crc32_calc`: the packet, and the message that it
changes. -/
def pjStunMsgEncode (msg : Msg) (key : Option Str) : Except Fault (Str × Msg) := do
  if bufSize = 0 then throw (.status pjEinval)
  else if bufSize < 20 then throw (.status pjEtoosmall)
  else
    let (out, stopped) ← encodeAttrs old bufSize msg.hdr msg.attr (hdrBytes msg.hdr 0)
    let (amsgint, afingerprint) ← scanAttrs stopped none none
    let bodyLen := out.length - 20 + if amsgint.isSome then 24 else 0
    let (out, msg) ←
      encodeMsgint old bufSize hmac key amsgint (setLength out (UInt16.ofNat bodyLen)) msg
    let (out, msg) ← encodeFingerprint old bufSize crc afingerprint out msg
    return (out, { msg with hdr := { msg.hdr with length := UInt16.ofNat (out.length - 20) } })

/-! ## What has been encoded -/

variable {old bufSize hmac crc} {hdr : MsgHdr} {attr : Attr} {kind : Kind} {piece : Piece}
variable {out after : Str} {amsgint afingerprint : Option Attr} {key : Option Str} {msg : Msg}
variable {result : Str × Msg}

/-- There is room for an attribute at a position, but perhaps not for its padding. -/
structure Roomy (bufSize pos : Nat) (kind : Kind) (piece : Piece) : Prop where
  start : ¬(kind.isSockaddr ∧ bufSize < pos + 2)
  need : ¬(bufSize - pos : Int) % 2 ^ 32 < piece.need
  inside : ¬bufSize < pos + (4 + piece.body.length)

theorem encodeAttr_ok (encoded : encodeAttr old bufSize hdr attr kind out = .ok after) :
    ∃ piece padding, encodeValue hdr attr kind = some piece ∧ Roomy bufSize out.length kind piece ∧
      padding.length = pad4 piece.body.length - piece.body.length ∧
      after = out ++ (store16 .big attr.type ++ (store16 .big piece.length ++ (piece.body ++
        padding))) := by
  unfold encodeAttr at encoded
  split at encoded
  · cases encoded
  · next piece found =>
    dsimp only at encoded
    split at encoded
    · cases encoded
    · split at encoded
      · cases encoded
      · split at encoded
        · cases encoded
        · cases encoded
          simp only [List.append_assoc]
          exact ⟨piece, _, found, ⟨‹_›, ‹_›, ‹_›⟩, (List.length_map _).trans List.length_range, rfl⟩

theorem Roomy.encodes (room : Roomy bufSize out.length kind piece)
    (found : encodeValue hdr attr kind = some piece) :
    ∃ after, encodeAttr old bufSize hdr attr kind out = .ok after := by
  unfold encodeAttr
  rw [found]
  dsimp only
  rw [if_neg room.start, if_neg room.need, if_neg room.inside]
  exact ⟨_, rfl⟩

/-- What is encoded ends behind the padding. -/
theorem length_encodeAttr (found : encodeValue hdr attr kind = some piece)
    (encoded : encodeAttr old bufSize hdr attr kind out = .ok after) :
    after.length = out.length + (4 + pad4 piece.body.length) := by
  have ⟨other, padding, same, _, long, joined⟩ := encodeAttr_ok encoded
  cases found.symm.trans same
  rw [joined]
  simp only [List.length_append, length_store16, long]
  unfold pad4
  omega

theorem encodeMsgint_ok (encoded : encodeMsgint old bufSize hmac key amsgint out msg = .ok result) :
    amsgint = none ∧ result = (out, msg) ∨ ∃ attr secret digest written, amsgint = some attr ∧
      key = some secret ∧ attr.value = .msgint digest ∧
      encodeAttr old bufSize msg.hdr { attr with value := .msgint (hmac secret out) } .msgint out =
        .ok written ∧
      result = (written, msg.patch { attr with value := .msgint (hmac secret out) }) := by
  unfold encodeMsgint at encoded
  split at encoded
  · cases encoded
    exact .inl ⟨rfl, rfl⟩
  · dsimp only at encoded
    split at encoded
    · cases encoded
    · split at encoded
      · cases encoded
      · cases encoded
        exact .inr ⟨_, _, _, _, rfl, rfl, ‹_›, ‹_›, rfl⟩
    · cases encoded

theorem encodeFingerprint_ok
    (encoded : encodeFingerprint old bufSize crc afingerprint out msg = .ok result) :
    afingerprint = none ∧ result = (out, msg) ∨ ∃ attr before written, afingerprint = some attr ∧
      attr.value = .uint before ∧
      let signed := setLength out (packetLength out + 8)
      let attr := { attr with value := .uint (crc signed ^^^ stunXorFingerprint) }
      encodeAttr old bufSize msg.hdr attr .uint signed = .ok written ∧
        result = (written, msg.patch attr) := by
  unfold encodeFingerprint at encoded
  split at encoded
  · cases encoded
    exact .inl ⟨rfl, rfl⟩
  · split at encoded
    · dsimp only at encoded
      split at encoded
      · cases encoded
      · cases encoded
        exact .inr ⟨_, _, _, rfl, ‹_›, ‹_›, rfl⟩
    · cases encoded

/-- A sequence of the encoder ends with a result if its parts do. -/
theorem encode_bind {α β : Type} {first : Except Fault α} {next : α → Except Fault β} {result : β}
    (run : first >>= next = .ok result) : ∃ value, first = .ok value ∧ next value = .ok result := by
  cases first with
  | error fault => cases run
  | ok value => exact ⟨value, rfl, run⟩

theorem encode_bind_error {α β : Type} {first : Except Fault α} {next : α → Except Fault β}
    {fault : Fault} (run : first >>= next = .error fault) :
    first = .error fault ∨ ∃ value, first = .ok value ∧ next value = .error fault := by
  cases first with
  | error early =>
    cases run
    exact .inl rfl
  | ok value => exact .inr ⟨value, rfl, run⟩

theorem pjStunMsgEncode_ok
    (encoded : pjStunMsgEncode old bufSize hmac crc msg key = .ok result) :
    20 ≤ bufSize ∧ ∃ out stopped found signed last,
      encodeAttrs old bufSize msg.hdr msg.attr (hdrBytes msg.hdr 0) = .ok (out, stopped) ∧
      scanAttrs stopped none none = .ok found ∧
      encodeMsgint old bufSize hmac key found.1
        (setLength out (UInt16.ofNat (out.length - 20 + if found.1.isSome then 24 else 0))) msg =
          .ok signed ∧
      encodeFingerprint old bufSize crc found.2 signed.1 signed.2 = .ok last ∧
      result = (last.1, { last.2 with
        hdr := { last.2.hdr with length := UInt16.ofNat (last.1.length - 20) } }) := by
  unfold pjStunMsgEncode at encoded
  split at encoded
  · cases encoded
  · split at encoded
    · cases encoded
    · have ⟨_, attrs, encoded⟩ := encode_bind encoded
      have ⟨_, scanned, encoded⟩ := encode_bind encoded
      have ⟨_, first, encoded⟩ := encode_bind encoded
      have ⟨_, second, encoded⟩ := encode_bind encoded
      cases encoded
      exact ⟨by omega, _, _, _, _, _, attrs, scanned, first, second, rfl⟩

end Pjnath.Stun
