import Pjproject.Rtp.FbRoundTrip

/-!
# RTCP source descriptions

`pjmedia_rtcp_build_rtcp_sdes` and `parse_rtcp_sdes`, which copies the items that it finds to the
buffer of the session as long as they fit. What is built is parsed to the same items, but for
those that do not fit behind the ones before them.
-/

namespace Pjmedia.Rtp
open Pj Traced

/-- `PJMEDIA_RTCP_RX_SDES_BUF_LEN`. -/
def rtcpRxSdesBufLen : Nat := 64

/-- The items of `pjmedia_rtcp_sdes`. -/
structure RtcpSdes (α : Type) where
  cname : α
  name : α
  email : α
  phone : α
  loc : α
  tool : α
  note : α
deriving DecidableEq, Repr

/-- The items by their types, from `RTCP_SDES_CNAME` to `RTCP_SDES_NOTE`. -/
def RtcpSdes.toList {α : Type} (sdes : RtcpSdes α) : List α :=
  [sdes.cname, sdes.name, sdes.email, sdes.phone, sdes.loc, sdes.tool, sdes.note]

/-- The switch of `parse_rtcp_sdes`. -/
def RtcpSdes.set {α : Type} (sdes : RtcpSdes α) (type : Nat) (value : α) : RtcpSdes α :=
  match type with
  | 1 => { sdes with cname := value }
  | 2 => { sdes with name := value }
  | 3 => { sdes with email := value }
  | 4 => { sdes with phone := value }
  | 5 => { sdes with loc := value }
  | 6 => { sdes with tool := value }
  | 7 => { sdes with note := value }
  | _ => sdes

/-! ## The builder -/

/-- The errors of `pjmedia_rtcp_build_rtcp_sdes`. -/
inductive SdesError
  /-- `PJ_EINVAL`. -/
  | einval
  /-- `PJ_ETOOSMALL`. -/
  | etoosmall
deriving DecidableEq, Repr

/-- `BUILD_SDES_ITEM`. -/
def buildSdesItem (value : List UInt8) (type : Nat) : List UInt8 :=
  if value = [] then [] else UInt8.ofNat type :: UInt8.ofNat value.length :: value

/-- The size of a string of items. -/
def sdesItemLen (value : List UInt8) : Nat := if value = [] then 0 else value.length + 2

/-- The zeros up to a multiple of four bytes. -/
def padTo32Bit (packet : List UInt8) : List UInt8 :=
  packet ++ List.replicate ((4 - packet.length % 4) % 4) 0

/-- `pjmedia_rtcp_build_rtcp_sdes`: the buffer and the length. -/
def rtcpBuildRtcpSdes (order : ByteOrder) (session : RtcpSession) (buf : List UInt8)
    (sdes : RtcpSdes (List UInt8)) : Except SdesError (List UInt8 × Nat) :=
  if sdes.toList.any fun value => 255 < value.length then .error .einval
  else
    let len := 8 + (sdes.toList.map sdesItemLen).sum
    -- The null termination, and whole words.
    let len := (len + 1 + 3) / 4 * 4
    if len > buf.length then .error .etoosmall
    else
      let hdr :=
        { session.rtcpSrPkt.common with
          pt := 202, length := pjHtons order (UInt16.ofInt ((len / 4 : Nat) - 1)) }
      .ok
        (overwrite buf
          (padTo32Bit (hdr.bytes order ++
            (buildSdesItem sdes.cname 1 ++ buildSdesItem sdes.name 2 ++
              buildSdesItem sdes.email 3 ++ buildSdesItem sdes.phone 4 ++
              buildSdesItem sdes.loc 5 ++ buildSdesItem sdes.tool 6 ++
              buildSdesItem sdes.note 7 ++ [0]))),
          len)

/-! ## The parser -/

/-- What is logged of a received RTCP packet: the bytes that are read, and the indices of the peer
SDES buffer that are written. -/
inductive RtcpAccess
  | read (address : Nat)
  | write (index : Nat)
deriving DecidableEq, Repr

/-- A parser of received packets, which does not fail. -/
abbrev RtcpParser := Traced RtcpAccess Empty

/-- A string in the peer SDES buffer. -/
structure SdesSlot where
  ptr : Nat
  slen : Nat
deriving DecidableEq, Repr

/-- `peer_sdes` and `peer_sdes_buf_`. -/
structure PeerSdes where
  sdes : RtcpSdes SdesSlot
  buf : Nat → UInt8

/-- An empty string. -/
def SdesSlot.zero : SdesSlot := { ptr := 0, slen := 0 }

/-- A `pjmedia_rtcp_sdes` of zeros. -/
def RtcpSdes.zero : RtcpSdes SdesSlot :=
  ⟨.zero, .zero, .zero, .zero, .zero, .zero, .zero⟩

/-- The bytes of a string. -/
def SdesSlot.content (slot : SdesSlot) (buf : Nat → UInt8) : List UInt8 :=
  (List.range slot.slen).map fun i => buf (slot.ptr + i)

/-- The items of the peer, by their types. -/
def PeerSdes.values (peer : PeerSdes) : List (List UInt8) :=
  peer.sdes.toList.map fun slot => slot.content peer.buf

variable (mem : Nat → UInt8)

/-- `pj_memcpy` of `len` bytes at `p` to the index `b` of the peer SDES buffer. -/
def copyToSdesBuf (buf : Nat → UInt8) (b p len : Nat) : RtcpParser (Nat → UInt8) :=
  access ((List.range len).map (fun i => .read (p + i)) ++
      (List.range len).map (fun i => .write (b + i)))
    fun i => if b ≤ i ∧ i < b + len then mem (p + (i - b)) else buf i

/-- The loop of `parse_rtcp_sdes`, from `p` on. -/
def sdesItems (pEnd p b : Nat) (peer : PeerSdes) : RtcpParser PeerSdes :=
  if p < pEnd then do
    let sdesType ← access [.read p] (mem p).toNat
    if sdesType = 0 ∨ p + 1 = pEnd then return peer
    else
      let sdesLen ← access [.read (p + 1)] (mem (p + 1)).toNat
      if p + 2 + sdesLen > pEnd then return peer
      else if b + sdesLen < rtcpRxSdesBufLen then
        let buf ← copyToSdesBuf mem peer.buf b (p + 2) sdesLen
        sdesItems pEnd (p + 2 + sdesLen) (b + sdesLen)
          { sdes := peer.sdes.set sdesType { ptr := b, slen := sdesLen }, buf := buf }
      else sdesItems pEnd (p + 2 + sdesLen) b peer
  else return peer
termination_by pEnd - p

/-- `parse_rtcp_sdes`. -/
def parseRtcpSdes (pkt size : Nat) (peer : PeerSdes) : RtcpParser PeerSdes :=
  sdesItems mem (pkt + size) (pkt + 8) 0 { peer with sdes := RtcpSdes.zero }

end Pjmedia.Rtp
