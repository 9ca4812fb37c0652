import Mathlib.Data.Vector.Defs
import Pjproject.Lib.Traced
import Pjproject.Pjlib.ByteOrder
import Pjproject.Pjlib.Str
import Pjproject.Stun.Errno

/-!
# STUN messages

The messages of `stun_msg.c`, and `pj_stun_msg_check` and `pj_stun_msg_decode` over the memory from
the first byte of a packet on. Pointers are offsets from there, and what is behind the packet is
memory too, which the C code may read. The log of a run has the bytes it reads, the lengths of the
strings and binary values it forms, and what it stores in arrays. Error responses, which callers
need not ask for, and the log texts are left out.
-/

namespace Pjnath.Stun
open Pj Traced

/-- `PJ_STUN_MAX_ATTR`. -/
def pjStunMaxAttr : Nat := 16

/-- `PJ_STUN_MAGIC`. -/
def pjStunMagic : UInt32 := 0x2112A442

/-- `STUN_XOR_FINGERPRINT`. -/
def stunXorFingerprint : UInt32 := 0x5354554e

/-- The types of attributes that the code names. -/
def attrUsername : UInt16 := 0x0006
def attrMessageIntegrity : UInt16 := 0x0008
def attrErrorCode : UInt16 := 0x0009
def attrUnknownAttributes : UInt16 := 0x000A
def attrRealm : UInt16 := 0x0014
def attrNonce : UInt16 := 0x0015
def attrSoftware : UInt16 := 0x8022
def attrFingerprint : UInt16 := 0x8028

/-- `pj_stun_msg_hdr`. -/
structure MsgHdr where
  type : UInt16
  length : UInt16
  magic : UInt32
  tsxId : Vector UInt8 12
deriving DecidableEq, Repr

/-- A `pj_sockaddr` of either family, with its port and its address as they are in memory. -/
inductive Sockaddr
  | inet (port : Vector UInt8 2) (addr : Vector UInt8 4)
  | inet6 (port : Vector UInt8 2) (addr : Vector UInt8 16)
deriving DecidableEq, Repr

/-- What the structures of the attributes have behind their header. -/
inductive AttrValue
  | sockaddr (xorEd : Bool) (sockaddr : Sockaddr)
  | empty
  | string (value : Str)
  | uint (value : UInt32)
  | uint64 (hi lo : UInt32)
  | msgint (hmac : Vector UInt8 20)
  | errcode (errCode : Int) (reason : Str)
  | unknown (attrs : List UInt16)
  | binary (data : Str)
deriving DecidableEq, Repr

/-- An attribute, with the two fields of its `pj_stun_attr_hdr`. -/
structure Attr where
  type : UInt16
  length : UInt16
  value : AttrValue
deriving DecidableEq, Repr

/-- `pj_stun_msg`. -/
structure Msg where
  hdr : MsgHdr
  attr : List Attr
deriving DecidableEq, Repr

/-- The pairs of a decoder and an encoder. -/
inductive Kind
  | sockaddr
  | xoredSockaddr
  | empty
  | string
  | uint
  | uint64
  | msgint
  | errcode
  | unknown
  | binary
deriving DecidableEq, Repr

/-- `attr_desc`. -/
structure AttrDesc where
  name : String
  kind : Kind
deriving DecidableEq, Repr

/-- `mandatory_attr_desc`. -/
def mandatoryAttrDesc : List (Option AttrDesc) := [
  none,
  some ⟨"MAPPED-ADDRESS", .sockaddr⟩,
  some ⟨"RESPONSE-ADDRESS", .sockaddr⟩,
  some ⟨"CHANGE-REQUEST", .uint⟩,
  some ⟨"SOURCE-ADDRESS", .sockaddr⟩,
  some ⟨"CHANGED-ADDRESS", .sockaddr⟩,
  some ⟨"USERNAME", .string⟩,
  some ⟨"PASSWORD", .string⟩,
  some ⟨"MESSAGE-INTEGRITY", .msgint⟩,
  some ⟨"ERROR-CODE", .errcode⟩,
  some ⟨"UNKNOWN-ATTRIBUTES", .unknown⟩,
  some ⟨"REFLECTED-FROM", .sockaddr⟩,
  some ⟨"CHANNEL-NUMBER", .uint⟩,
  some ⟨"LIFETIME", .uint⟩,
  none,
  some ⟨"MAGIC-COOKIE", .uint⟩,
  some ⟨"BANDWIDTH", .uint⟩,
  none,
  some ⟨"XOR-PEER-ADDRESS", .xoredSockaddr⟩,
  some ⟨"DATA", .binary⟩,
  some ⟨"REALM", .string⟩,
  some ⟨"NONCE", .string⟩,
  some ⟨"XOR-RELAYED-ADDRESS", .xoredSockaddr⟩,
  some ⟨"REQUESTED-ADDRESS-FAMILY", .uint⟩,
  some ⟨"EVEN-PORT", .uint⟩,
  some ⟨"REQUESTED-TRANSPORT", .uint⟩,
  some ⟨"DONT-FRAGMENT", .empty⟩,
  none, none, none, none, none,
  some ⟨"XOR-MAPPED-ADDRESS", .xoredSockaddr⟩,
  some ⟨"TIMER-VAL", .uint⟩,
  some ⟨"RESERVATION-TOKEN", .uint64⟩,
  some ⟨"XOR-REFLECTED-FROM", .xoredSockaddr⟩,
  some ⟨"PRIORITY", .uint⟩,
  some ⟨"USE-CANDIDATE", .empty⟩,
  none, none, none, none, none, none, none, none, none, none,
  some ⟨"ICMP", .uint⟩]

/-- `extended_attr_desc`, from `PJ_STUN_ATTR_START_EXTENDED_ATTR` on. -/
def extendedAttrDesc : List (Option AttrDesc) := [
  none,
  some ⟨"SOFTWARE", .string⟩,
  some ⟨"ALTERNATE-SERVER", .sockaddr⟩,
  some ⟨"REFRESH-INTERVAL", .uint⟩,
  none, none, none,
  some ⟨"FINGERPRINT", .uint⟩,
  some ⟨"ICE-CONTROLLED", .uint64⟩,
  some ⟨"ICE-CONTROLLING", .uint64⟩]

/-- `find_attr_desc`. -/
def findAttrDesc (attrType : UInt16) : Option AttrDesc :=
  if attrType < 0x8021 then (mandatoryAttrDesc[attrType.toNat]?).join
  else (extendedAttrDesc[attrType.toNat - 0x8021]?).join

example : (findAttrDesc attrFingerprint).map AttrDesc.kind = some .uint := by decide

/-- `PJ_STUN_IS_REQUEST`. -/
def pjStunIsRequest (msgType : UInt16) : Bool := msgType &&& 0x0110 = 0x0000

/-- `pj_stun_msg_find_attr`, from the start. -/
def pjStunMsgFindAttr (msg : Msg) (attrType : UInt16) : Option Attr :=
  msg.attr.find? fun attr => attr.type = attrType

/-! ## Reading -/

/-- What is logged: a byte that is read, a string or binary value of a length that is formed, and an
element of an array of `PJ_STUN_MAX_ATTR` elements, of attributes or of unknown types, that is
stored. -/
inductive Access
  | read (position : Nat)
  | value (length : Int)
  | store (index : Nat)
deriving DecidableEq, Repr

abbrev Decoder := Traced Access Int

variable (mem : Nat → UInt8) (size : Nat)

/-- The reads of some bytes. -/
def reads (p count : Nat) : List Access := (List.range count).map fun i => .read (p + i)

/-- The bytes at a position. -/
def bytesAt (p count : Nat) : Str := (List.range count).map fun i => mem (p + i)

/-- A byte. -/
def getByte (p : Nat) : Decoder UInt8 := access (reads p 1) (mem p)

/-- `GETVAL16H`. -/
def getval16h (p : Nat) : Decoder UInt16 := access (reads p 2) (load16 .big mem p)

/-- `GETVAL32H`. -/
def getval32h (p : Nat) : Decoder UInt32 := access (reads p 4) (load32 .big mem p)

/-- A `pj_memcpy` to an array. -/
def getArray (p count : Nat) : Decoder (Vector UInt8 count) :=
  access (reads p count) (Vector.ofFn fun i => mem (p + i))

/-- A copy of a string or binary value. A negative length is only logged: there is no telling what
a copy of so many bytes does. -/
def getValue (p : Nat) (length : Int) : Decoder Str :=
  access (.value length :: reads p length.toNat) (bytesAt mem p length.toNat)

/-- `GETATTRHDR`, with the value that is still to come. -/
def getAttrHdr (p : Nat) : Decoder (AttrValue → Attr) := do
  let type ← getval16h mem p
  let length ← getval16h mem (p + 2)
  return fun value => ⟨type, length, value⟩

theorem getByte_result (p : Nat) : (getByte mem p).result = .ok (mem p) := rfl

theorem getval16h_result (p : Nat) : (getval16h mem p).result = .ok (load16 .big mem p) := rfl

theorem getval32h_result (p : Nat) : (getval32h mem p).result = .ok (load32 .big mem p) := rfl

theorem getArray_result (p count : Nat) :
    (getArray mem p count).result = .ok (Vector.ofFn fun i => mem (p + i)) := rfl

theorem getValue_result (p : Nat) (length : Int) :
    (getValue mem p length).result = .ok (bytesAt mem p length.toNat) := rfl

theorem getAttrHdr_result (p : Nat) : (getAttrHdr mem p).result =
    .ok fun value => ⟨load16 .big mem p, load16 .big mem (p + 2), value⟩ := rfl

/-! ## Attributes -/

/-- The bytes of `PJ_STUN_MAGIC` in network order. -/
def magicBytes : Vector UInt8 4 := #v[0x21, 0x12, 0xA4, 0x42]

/-- An exclusive or, byte by byte. -/
def xorBytes {n : Nat} (left right : Vector UInt8 n) : Vector UInt8 n :=
  Vector.zipWith (· ^^^ ·) left right

/-- The port and the address of an XOR attribute. -/
def xorSockaddr (hdr : MsgHdr) : Sockaddr → Sockaddr
  | .inet port addr => .inet (xorBytes port #v[0x21, 0x12]) (xorBytes addr magicBytes)
  | .inet6 port addr => .inet6 (xorBytes port #v[0x21, 0x12]) (xorBytes addr (magicBytes ++ hdr.tsxId))

/-- `decode_sockaddr_attr`, up to the address. -/
def decodeSockaddr (p : Nat) (length : UInt16) : Decoder Sockaddr := do
  if length ≠ 8 ∧ length ≠ 20 then throw pjnathEstuninattrlen
  else
    let val ← getByte mem (p + 5)
    if val = 1 then
      if length ≠ 8 then throw pjnathEstuninattrlen
      else
        let port ← getArray mem (p + 6) 2
        let addr ← getArray mem (p + 8) 4
        return .inet port addr
    else if val = 2 then
      if length ≠ 20 then throw pjnathEstuninattrlen
      else
        let port ← getArray mem (p + 6) 2
        let addr ← getArray mem (p + 8) 16
        return .inet6 port addr
    else throw pjnathEinvaf

/-- The value of an attribute whose header has been read, as the decoders of the kinds find it. -/
def decodeValue (hdr : MsgHdr) (p : Nat) (length : UInt16) : Kind → Decoder AttrValue
  | .sockaddr => do
    let sockaddr ← decodeSockaddr mem p length
    return .sockaddr false sockaddr
  | .xoredSockaddr => do
    let sockaddr ← decodeSockaddr mem p length
    return .sockaddr true (xorSockaddr hdr sockaddr)
  | .empty => if length ≠ 0 then throw pjnathEstuninattrlen else return .empty
  | .string => do
    let value ← getValue mem (p + 4) length.toNat
    return .string value
  | .uint => do
    let value ← getval32h mem (p + 4)
    if length ≠ 4 then throw pjnathEstuninattrlen else return .uint value
  | .uint64 => do
    if length ≠ 8 then throw pjnathEstuninattrlen
    else
      let hi ← getval32h mem (p + 4)
      let lo ← getval32h mem (p + 8)
      return .uint64 hi lo
  | .msgint => do
    if length ≠ 20 then throw pjnathEstuninattrlen
    else
      let hmac ← getArray mem (p + 4) 20
      return .msgint hmac
  | .errcode => do
    let hundreds ← getByte mem (p + 6)
    let units ← getByte mem (p + 7)
    let reason ← getValue mem (p + 8) (length.toNat - 4)
    return .errcode (hundreds.toNat * 100 + units.toNat) reason
  | .unknown =>
    if length.toNat / 2 > pjStunMaxAttr then throw pjEtoomany
    else access (reads (p + 4) (length.toNat / 2 * 2) ++ (List.range (length.toNat / 2)).map .store)
      (.unknown ((List.range (length.toNat / 2)).map fun i => load16 .big mem (p + 4 + 2 * i)))
  | .binary => do
    let data ← getValue mem (p + 4) length.toNat
    return .binary data

/-- An attribute that the tables know. -/
def decodeAttr (hdr : MsgHdr) (p : Nat) (desc : AttrDesc) : Decoder Attr := do
  let attr ← getAttrHdr mem p
  let value ← decodeValue mem hdr p (attr .empty).length desc.kind
  return attr value

/-! ## Messages -/

/-- The state of the loop of `pj_stun_msg_decode`. -/
structure Parsed where
  attr : List Attr
  hasMsgInt : Bool
  hasFingerprint : Bool
deriving DecidableEq, Repr

/-- The checks of the position of a known attribute, and the flags they set. -/
def checkPosition (parsed : Parsed) (attrType : UInt16) : Except Int Parsed :=
  if attrType = attrMessageIntegrity ∧ !parsed.hasFingerprint then
    if parsed.hasMsgInt then .error pjnathEstundupattr else .ok { parsed with hasMsgInt := true }
  else if attrType = attrFingerprint then
    if parsed.hasFingerprint then .error pjnathEstundupattr
    else .ok { parsed with hasFingerprint := true }
  else if parsed.hasFingerprint then .error pjnathEstunfingerpos
  else .ok parsed

/-- `msg->attr[msg->attr_count++] = attr`. -/
def storeAttr (parsed : Parsed) (attr : Attr) : Decoder Parsed :=
  access [.store parsed.attr.length] { parsed with attr := parsed.attr ++ [attr] }

/-- The attribute is added, if there is room. -/
def addAttr (parsed : Parsed) (attr : Attr) : Decoder Parsed :=
  if parsed.attr.length ≥ pjStunMaxAttr then throw pjnathEstuntoomanyattr else storeAttr parsed attr

/-- The attribute at a position, in the loop of `pj_stun_msg_decode`. -/
def parseAttr (hdr : MsgHdr) (p : Nat) (attrType : UInt16) (parsed : Parsed) : Decoder Parsed :=
  match findAttrDesc attrType with
  | none => do
    if attrType ≤ 0x7FFF then throw (pjStatusFromStunCode 420)
    else if parsed.attr.length ≥ pjStunMaxAttr then throw pjnathEstuntoomanyattr
    else
      let length ← getval16h mem (p + 2)
      let data ← getValue mem (p + 4) length.toNat
      storeAttr parsed ⟨attrType, length, .binary data⟩
  | some desc => do
    let attr ← decodeAttr mem hdr p desc
    match checkPosition parsed attrType with
    | .error status => throw status
    | .ok parsed => addAttr parsed attr

/-- A length, with the padding to a multiple of four. -/
def pad4 (length : Nat) : Nat := (length + 3) / 4 * 4

/-- The loop of `pj_stun_msg_decode`. A turn takes four bytes or more, so the number of the bytes
that are left is enough fuel. It returns what is left. -/
def parseAttrs (hdr : MsgHdr) : Nat → Nat → Nat → Parsed → Decoder (Nat × Parsed)
  | 0, _, pduLen, parsed => return (pduLen, parsed)
  | fuel + 1, p, pduLen, parsed => do
    if pduLen < 4 then return (pduLen, parsed)
    else
      let attrType ← getval16h mem p
      let length ← getval16h mem (p + 2)
      let attrValLen := pad4 length.toNat
      if pduLen < attrValLen then throw pjnathEstuninattrlen
      else
        let parsed ← parseAttr mem hdr p attrType parsed
        if attrValLen + 4 ≥ pduLen then return (0, parsed)
        else parseAttrs hdr fuel (p + (attrValLen + 4)) (pduLen - (attrValLen + 4)) parsed

/-- The options of `pj_stun_msg_check` and `pj_stun_msg_decode`. -/
structure Options where
  isDatagram : Bool
  checkPacket : Bool
  noFingerprintCheck : Bool
deriving DecidableEq, Repr

variable (crc : Str → UInt32)

/-- `pj_stun_msg_check`, with `pj_crc32_calc`. -/
def pjStunMsgCheck (options : Options) : Decoder Unit := do
  if size < 20 then throw pjnathEinstunmsglen
  else
    let first ← getByte mem 0
    if first ≠ 0x00 ∧ first ≠ 0x01 then throw pjnathEinstunmsgtype
    else
      let length ← getval16h mem 2
      let msgLen := length.toNat
      if msgLen + 20 > size ∨ options.isDatagram ∧ msgLen + 20 ≠ size then throw pjnathEinstunmsglen
      else if msgLen % 4 ≠ 0 then throw pjnathEinstunmsglen
      else
        let magic ← getval32h mem 4
        if magic = pjStunMagic ∧ !options.noFingerprintCheck then
          let attrType ← getval16h mem (msgLen + 20 - 8)
          if attrType = attrFingerprint then
            let attrLen ← getval16h mem (msgLen + 20 - 8 + 2)
            let fingerprint ← getval32h mem (msgLen + 20 - 8 + 4)
            if attrLen ≠ 4 then throw pjnathEstuninattrlen
            else
              let bytes ← access (reads 0 (msgLen + 20 - 8)) (bytesAt mem 0 (msgLen + 20 - 8))
              if crc bytes ^^^ stunXorFingerprint ≠ fingerprint then throw pjnathEstunfingerprint
              else return ()
          else return ()
        else return ()

/-- The header at the start of a packet. -/
def msgHdrAt : MsgHdr where
  type := load16 .big mem 0
  length := load16 .big mem 2
  magic := load32 .big mem 4
  tsxId := Vector.ofFn fun i => mem (8 + i)

/-- A copy of the header. -/
def getMsgHdr : Decoder MsgHdr := access (reads 0 20) (msgHdrAt mem)

theorem getMsgHdr_result : (getMsgHdr mem).result = .ok (msgHdrAt mem) := rfl

/-- `pj_stun_msg_decode` behind the check. -/
def decodeMsg : Decoder Msg := do
  let hdr ← getMsgHdr mem
  let (pduLen, parsed) ← parseAttrs mem hdr hdr.length.toNat 20 hdr.length.toNat ⟨[], false, false⟩
  if pduLen > 0 then throw pjnathEinstunmsglen else return ⟨hdr, parsed.attr⟩

/-- `pj_stun_msg_decode`. -/
def pjStunMsgDecode (options : Options) : Decoder Msg :=
  if size = 0 then throw pjEinval
  else if options.checkPacket then do
    pjStunMsgCheck mem size crc options
    decodeMsg mem
  else decodeMsg mem

end Pjnath.Stun
