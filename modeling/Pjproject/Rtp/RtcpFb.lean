import Pjproject.Lib.Traced
import Pjproject.Pjlib.Int
import Pjproject.Rtp.Rtcp

/-!
# RTCP feedback messages

The builders and parsers of `rtcp_fb.c`. A builder writes to the start of a buffer, of which it
leaves the last four bytes of the packet as they are. A parser reads the memory from the address
of a packet on, with the addresses that it reads in its log. A `pj_size_t` is a word of 32 bits.
-/

namespace Pjmedia.Rtp
open Pj Traced

/-- `RTCP_RTPFB` and `RTCP_PSFB`. -/
def rtcpRtpfb : Nat := 205
def rtcpPsfb : Nat := 206

/-- What the functions return other than `PJ_SUCCESS`. -/
inductive FbError
  /-- `PJ_EINVAL`. -/
  | einval
  /-- `PJ_ETOOSMALL`. -/
  | etoosmall
  /-- `PJ_ENOTFOUND`. -/
  | enotfound
deriving DecidableEq, Repr

/-- `pjmedia_rtcp_fb_nack`. -/
structure RtcpFbNack where
  /-- Packet ID, a `pj_int32_t`. -/
  pid : Int
  /-- Bitmask of following lost packets. -/
  blp : UInt16
deriving DecidableEq, Repr

/-- `pjmedia_rtcp_fb_sli`. -/
structure RtcpFbSli where
  /-- First lost macroblock. -/
  first : UInt16
  /-- The number of lost macroblocks. -/
  number : UInt16
  /-- Picture ID. -/
  pictId : UInt8
deriving DecidableEq, Repr

/-- `pjmedia_rtcp_fb_rpsi`, with the bytes that its string points to. -/
structure RtcpFbRpsi where
  /-- Payload type. -/
  pt : UInt8
  /-- Native RPSI bit string. -/
  rpsi : List UInt8
  /-- Length of RPSI in bits. -/
  rpsiBitLen : Nat
deriving DecidableEq, Repr

/-! ## Builders -/

/-- The bytes of a common header in memory. The bit fields of both byte orders are the same
bytes. -/
def RtcpCommon.bytes (order : ByteOrder) (common : RtcpCommon) : List UInt8 :=
  UInt8.ofNat (common.version * 64 + common.p.toNat * 32 + common.count) ::
    UInt8.ofNat common.pt :: (store16 order common.length ++ store32 order common.ssrc)

/-- The buffer with some bytes at its start. -/
def overwrite (buf data : List UInt8) : List UInt8 := data ++ buf.drop data.length

/-- The end of a builder: the common header of the receiver report with another type, FMT and
length, and the feedback control information behind it. -/
def fbBuild (order : ByteOrder) (session : RtcpSession) (buf : List UInt8) (pt fmt len : Nat)
    (fci : List UInt8) : Except FbError (List UInt8 × Nat) :=
  if len > buf.length then .error .etoosmall
  else
    let hdr :=
      { session.rtcpRrPkt.common with
        pt := pt, count := fmt, length := pjHtons order (UInt16.ofInt ((len / 4 : Nat) - 1)) }
    .ok (overwrite buf (hdr.bytes order ++ fci), len)

/-- An entry of `pjmedia_rtcp_fb_build_nack`. -/
def nackBytes (order : ByteOrder) (nack : RtcpFbNack) : List UInt8 :=
  store16 order (pjHtons order (UInt16.ofInt nack.pid)) ++ store16 order (pjHtons order nack.blp)

/-- `pjmedia_rtcp_fb_build_nack`: the buffer and the length. -/
def rtcpFbBuildNack (order : ByteOrder) (session : RtcpSession) (buf : List UInt8)
    (nack : List RtcpFbNack) : Except FbError (List UInt8 × Nat) :=
  if nack = [] then .error .einval
  else
    fbBuild order session buf rtcpRtpfb 1 (u32 ((3 + nack.length) * 4))
      (nack.flatMap (nackBytes order))

/-- An entry of `pjmedia_rtcp_fb_build_sli`: 13 bits of `first`, 13 of `number` and 6 of
`pict_id`. -/
def sliBytes (sli : RtcpFbSli) : List UInt8 :=
  [(sli.first >>> 5 &&& 0xFF).toUInt8,
    ((sli.first &&& 31) <<< 3).toUInt8 ||| (sli.number >>> 10 &&& 7).toUInt8,
    (sli.number >>> 2 &&& 0xFF).toUInt8,
    ((sli.number &&& 3) <<< 6).toUInt8 ||| (sli.pictId &&& 63)]

/-- `pjmedia_rtcp_fb_build_sli`: the buffer and the length. -/
def rtcpFbBuildSli (order : ByteOrder) (session : RtcpSession) (buf : List UInt8)
    (sli : List RtcpFbSli) : Except FbError (List UInt8 × Nat) :=
  if sli = [] then .error .einval
  else
    fbBuild order session buf rtcpPsfb 2 (u32 ((3 + sli.length) * 4)) (sli.flatMap sliBytes)

/-- The padding bits of `pjmedia_rtcp_fb_build_rpsi`. -/
def rpsiPadlen (bitlen : Nat) : Nat := (32 - bitlen % 32) % 32

/-- The feedback control information of `pjmedia_rtcp_fb_build_rpsi`. -/
def rpsiBytes (rpsi : RtcpFbRpsi) (padlen : Nat) : List UInt8 :=
  UInt8.ofNat padlen :: (rpsi.pt &&& 0x7F) :: rpsi.rpsi.take (rpsi.rpsiBitLen / 8) ++
    (if rpsi.rpsiBitLen % 8 ≠ 0 then [rpsi.rpsi.getD (rpsi.rpsiBitLen / 8) 0] else []) ++
    List.replicate (padlen / 8) 0

/-- `pjmedia_rtcp_fb_build_rpsi`: the buffer and the length. -/
def rtcpFbBuildRpsi (order : ByteOrder) (session : RtcpSession) (buf : List UInt8)
    (rpsi : RtcpFbRpsi) : Except FbError (List UInt8 × Nat) :=
  let bitlen := u32 (rpsi.rpsiBitLen + 16)
  let padlen := rpsiPadlen bitlen
  fbBuild order session buf rtcpPsfb 3 (u32 ((3 + u32 (bitlen + padlen) / 32) * 4))
    (rpsiBytes rpsi padlen)

/-! ## Parsers -/

/-- A parser logs the addresses that it reads. -/
abbrev FbParser := Traced Nat FbError

variable {α : Type} (mem : Nat → UInt8)

/-- The number of two bytes in network order. -/
def netWord (address : Nat) : UInt16 :=
  UInt16.ofNat ((mem address).toNat * 256 + (mem (address + 1)).toNat)

/-- The checks of the parsers on the length, the type and the FMT of the packet `buf`. -/
def fbCheck (buf length pt fmt : Nat) : FbParser Unit := do
  if length < 8 then throw .etoosmall
  else
    let type ← access [buf + 1] (mem (buf + 1)).toNat
    if type ≠ pt then throw .enotfound
    else
      let count ← access [buf] ((mem buf).toNat % 32)
      if count ≠ fmt then throw .enotfound else return ()

/-- The `length` of the header. -/
def fbLengthField (buf : Nat) : FbParser Nat :=
  access [buf + 2, buf + 3] (netWord mem (buf + 2)).toNat

/-- The loops of the parsers over entries of four bytes. -/
def fbEntries (entry : Nat → α) (p : Nat) : Nat → FbParser (List α)
  | 0 => return []
  | count + 1 => do
    let first ← access [p, p + 1, p + 2, p + 3] (entry p)
    let rest ← fbEntries entry (p + 4) count
    return first :: rest

/-- The parsers of a list of entries, into an array of size `cnt`. -/
def fbParse (pt fmt : Nat) (entry : Nat → α) (buf length cnt : Nat) : FbParser (List α) := do
  fbCheck mem buf length pt fmt
  let field ← fbLengthField mem buf
  let total := u32 ((field : Int) - 2)
  if length < u32 (u32 (total + 3) * 4) then throw .etoosmall
  else fbEntries entry (buf + 8) (min cnt total)

/-- The entry at `p` of `pjmedia_rtcp_fb_parse_nack`. -/
def nackAt (p : Nat) : RtcpFbNack :=
  { pid := (netWord mem p).toNat, blp := netWord mem (p + 2) }

/-- `pjmedia_rtcp_fb_parse_nack`. -/
def rtcpFbParseNack (buf length nackCnt : Nat) : FbParser (List RtcpFbNack) :=
  fbParse mem rtcpRtpfb 1 (nackAt mem) buf length nackCnt

/-- The entry at `p` of `pjmedia_rtcp_fb_parse_sli`. -/
def sliAt (p : Nat) : RtcpFbSli :=
  { first := (mem p).toUInt16 <<< 5 + ((mem (p + 1) &&& 0xF8) >>> 3).toUInt16
    number :=
      (mem (p + 1) &&& 0x07).toUInt16 <<< 10 + (mem (p + 2)).toUInt16 <<< 2 +
        ((mem (p + 3) &&& 0xC0) >>> 6).toUInt16
    pictId := mem (p + 3) &&& 0x3F }

/-- `pjmedia_rtcp_fb_parse_sli`. -/
def rtcpFbParseSli (buf length sliCnt : Nat) : FbParser (List RtcpFbSli) :=
  fbParse mem rtcpPsfb 2 (sliAt mem) buf length sliCnt

/-- What `pjmedia_rtcp_fb_parse_rpsi` fills in, with an address and a length for its string. -/
structure ParsedRpsi where
  pt : UInt8
  ptr : Nat
  slen : Nat
  rpsiBitLen : Nat
deriving DecidableEq, Repr

/-- `pjmedia_rtcp_fb_parse_rpsi`. -/
def rtcpFbParseRpsi (buf length : Nat) : FbParser ParsedRpsi := do
  fbCheck mem buf length rtcpPsfb 3
  let field ← fbLengthField mem buf
  let rpsiLen := u32 (((field : Int) - 2) * 4)
  if length < u32 (rpsiLen + 12) then throw .etoosmall
  else
    let padlen ← access [buf + 8] (mem (buf + 8)).toNat
    let pt ← access [buf + 9] (mem (buf + 9) &&& 0x7F)
    let rpsiBitLen := u32 ((rpsiLen : Int) * 8 - 16 - padlen)
    return { pt := pt, ptr := buf + 10, slen := u32 (rpsiBitLen + 7) / 8, rpsiBitLen := rpsiBitLen }

/-- The message that is parsed, with the bytes of its string. -/
def ParsedRpsi.message (parsed : ParsedRpsi) : RtcpFbRpsi :=
  { pt := parsed.pt, rpsiBitLen := parsed.rpsiBitLen
    rpsi := (List.range parsed.slen).map fun i => mem (parsed.ptr + i) }

end Pjmedia.Rtp
