import Pjproject.Lib.Buffer

/-!
# H.263 packetizer

`pjmedia_h263_packetize` and `pjmedia_h263_unpacketize` of `h263_packetizer.c`, in the mode of
RFC 4629, the only one there is. A bitstream is the list of its bytes and a pointer an offset into
it. Bitstreams are in memory, so that offsets do not wrap; a write outside the buffer of the
receiver has no result.
-/

namespace Pjmedia.H263

/-- What the functions return. -/
inductive Status
  | success
  | einval
  | etoosmall
  | eignored
deriving DecidableEq, Repr

/-- `pjmedia_h263_packetizer`. -/
structure Packetizer where
  mtu : Nat
  unpackLastSyncPos : Nat
  unpackPrevLost : Bool
deriving DecidableEq, Repr

/-- Two zero octets, the mark of a synchronization point. -/
def syncAt (data : List UInt8) (p : Nat) : Bool := data[p]? = some 0 && data[p + 1]? = some 0

/-- `find_sync_point`. -/
def findSyncPoint : List UInt8 → Option Nat
  | first :: second :: rest =>
    if first ≠ 0 ∨ second ≠ 0 then (findSyncPoint (second :: rest)).map (· + 1) else some 0
  | _ => none

/-- The loop of `find_sync_point_rev`, which goes down from the byte below the index. -/
def findSyncPointRevFrom (data : List UInt8) : Nat → Nat
  | 0 => data.length
  | p + 1 => if syncAt data p then p else findSyncPointRevFrom data p

/-- `find_sync_point_rev`. -/
def findSyncPointRev (data : List UInt8) : Nat := findSyncPointRevFrom data (data.length - 1)

/-- A call of `pjmedia_h263_packetize`: the bitstream after it, the payload, and the position. -/
structure Packet where
  bits : List UInt8
  payload : List UInt8
  pos : Nat
deriving DecidableEq, Repr

/-- The end of `pjmedia_h263_packetize`, once the header is at `p`. -/
def takePayload (pktz : Packetizer) (bits : List UInt8) (p : Nat) : Packet :=
  let stop :=
    if bits.length - p > pktz.mtu then
      p + 2 + findSyncPointRev ((bits.drop (p + 2)).take (pktz.mtu - 2))
    else bits.length
  { bits := bits, payload := (bits.drop p).take (stop - p), pos := stop }

/-- `pjmedia_h263_packetize`. -/
def pjmediaH263Packetize (pktz : Packetizer) (bits : List UInt8) (pos : Nat) : Option Packet :=
  if bits.length - pos > 2 ∧ syncAt bits pos then
    some (takePayload pktz ((bits.set pos 0x04).set (pos + 1) 0) pos)
  else if pos < 2 then none
  else some (takePayload pktz ((bits.set (pos - 2) 0).set (pos - 2 + 1) 0) (pos - 2))

/-- What `pjmedia_h263_unpacketize` leaves. -/
structure Unpacked where
  status : Status
  pktz : Packetizer
  bits : List UInt8
  pos : Nat
deriving DecidableEq, Repr

/-- The end of `pjmedia_h263_unpacketize`, which writes the payload at `q`. -/
def appendPayload (pktz : Packetizer) (sync : Bool) (bits : List UInt8) (q : Nat)
    (payload : List UInt8) : Option Unpacked := do
  if sync then
    let bits ← Buffer.write bits q [0, 0]
    let bits ← Buffer.write bits (q + 2) payload
    return {
      status := .success
      pktz := { pktz with unpackLastSyncPos := q, unpackPrevLost := false }
      bits := bits
      pos := q + 2 + payload.length }
  else
    let bits ← Buffer.write bits q payload
    return {
      status := .success
      pktz := { pktz with unpackPrevLost := false }
      bits := bits
      pos := q + payload.length }

/-- The payload after a loss, of which what follows a synchronization point is used. -/
def appendAfterLoss (pktz : Packetizer) (bits : List UInt8) (pos q : Nat) (payload : List UInt8) :
    Option Unpacked :=
  match findSyncPoint payload with
  | some sync => appendPayload pktz true bits q (payload.drop (sync + 2))
  | none => some { status := .eignored, pktz := pktz, bits := bits, pos := pos }

/-- The payload that is not at a synchronization point. -/
def appendContinuation (pktz : Packetizer) (bits : List UInt8) (pos : Nat)
    (pictureHeader payload : List UInt8) : Option Unpacked := do
  if pos = 0 then
    let pktz := { pktz with unpackPrevLost := true }
    if pictureHeader ≠ [] then
      let bits ← Buffer.write bits pos (0 :: 0 :: pictureHeader)
      appendAfterLoss pktz bits pos (pos + 2 + pictureHeader.length) payload
    else appendAfterLoss pktz bits pos pos payload
  else if pktz.unpackPrevLost then
    appendAfterLoss pktz bits pos pktz.unpackLastSyncPos payload
  else appendPayload pktz false bits pos payload

/-- `pjmedia_h263_unpacketize`. -/
def pjmediaH263Unpacketize (pktz : Packetizer) (payload : Option (List UInt8)) (bits : List UInt8)
    (pos : Nat) : Option Unpacked :=
  let lost := { pktz with unpackPrevLost := true }
  match payload with
  | none => some { status := .success, pktz := lost, bits := bits, pos := pos }
  | some (first :: second :: rest) =>
    let fresh := { pktz with unpackLastSyncPos := if pos = 0 then 0 else pktz.unpackLastSyncPos }
    let lost := { fresh with unpackPrevLost := true }
    let plen := (((first &&& 0x01) <<< 5) + ((second &&& 0xF8) >>> 3)).toNat
    let skipped := (if first &&& 0x02 ≠ 0 then 1 else 0) + plen
    if rest.length > skipped then
      let body := rest.drop skipped
      if bits.length < pos + body.length + 2 then
        some { status := .etoosmall, pktz := lost, bits := bits, pos := pos }
      else if first &&& 0x04 ≠ 0 then appendPayload fresh true bits pos body
      else appendContinuation fresh bits pos ((rest.drop (skipped - plen)).take plen) body
    else some { status := .einval, pktz := lost, bits := bits, pos := pos }
  | some _ => some { status := .einval, pktz := lost, bits := bits, pos := pos }

/-! ## A picture -/

/-- A call of the sender, and the position it started from. -/
structure Call where
  start : Nat
  packet : Packet

/-- The calls of `pjmedia_h263_packetize` until the end of the bitstream. A call that does not
fail moves on, so the length of the bitstream and one more is enough fuel. -/
def packetizeFrom (pktz : Packetizer) : Nat → List UInt8 → Nat → Option (List Call)
  | 0, _, _ => none
  | fuel + 1, bits, pos =>
    if pos < bits.length then do
      let packet ← pjmediaH263Packetize pktz bits pos
      let calls ← packetizeFrom pktz fuel packet.bits packet.pos
      return { start := pos, packet := packet } :: calls
    else some []

/-- All calls of `pjmedia_h263_packetize` for a bitstream. -/
def packetizeAll (pktz : Packetizer) (bits : List UInt8) : Option (List Call) :=
  packetizeFrom pktz (bits.length + 1) bits 0

/-- The receiver takes the payloads in order. -/
def unpacketizeFrom (pktz : Packetizer) (bits : List UInt8) (pos : Nat) :
    List (List UInt8) → Option (List Status × List UInt8 × Nat)
  | [] => some ([], bits, pos)
  | payload :: rest => do
    let unpacked ← pjmediaH263Unpacketize pktz (some payload) bits pos
    let (statuses, bits, pos) ← unpacketizeFrom unpacked.pktz unpacked.bits unpacked.pos rest
    return (unpacked.status :: statuses, bits, pos)

/-- The receiver takes the payloads of a picture. -/
def unpacketizeAll (pktz : Packetizer) (bits : List UInt8) (payloads : List (List UInt8)) :
    Option (List Status × List UInt8 × Nat) :=
  unpacketizeFrom pktz bits 0 payloads

end Pjmedia.H263
