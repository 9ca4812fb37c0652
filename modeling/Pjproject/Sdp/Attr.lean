import Pjproject.Sdp.Parse

/-!
# Attributes and media lines

The functions of `sdp.c` that look up, remove and read attributes, compare transports and
deactivate a media. An attribute found by address is the first one that matches.
-/

namespace Pjmedia.Sdp
open Pj

/-- `"rtpmap"`. -/
def rtpmap : Str := ofChars ['r', 't', 'p', 'm', 'a', 'p']

/-- `"fmtp"`. -/
def fmtp : Str := ofChars ['f', 'm', 't', 'p']

/-- `pj_strtoul` of a payload type, stored in an `unsigned`. -/
def payloadType (fmt : Str) : Nat := pjStrtoul fmt % 2 ^ 32

/-- The test of `pjmedia_sdp_attr_find`: the name, and the payload type the value begins with. -/
def attrMatches (name fmt : Str) (attr : SdpAttr) : Bool :=
  attr.name = name && payloadType attr.value = payloadType fmt

/-- `pjmedia_sdp_attr_find` with a format. -/
def pjmediaSdpAttrFind (attrs : List SdpAttr) (name fmt : Str) : Option SdpAttr :=
  attrs.find? (attrMatches name fmt)

/-- `pjmedia_sdp_media_find_attr2` with a format. -/
def pjmediaSdpMediaFindAttr2 (m : SdpMedia) (name fmt : Str) : Option SdpAttr :=
  pjmediaSdpAttrFind m.attr name fmt

/-- `pjmedia_sdp_media_find_attr2` without a format finds an attribute. -/
def hasAttr (m : SdpMedia) (name : Str) : Bool := m.attr.any fun attr => attr.name = name

/-- `pjmedia_sdp_attr_remove` of the attribute that `pjmedia_sdp_attr_find` finds, if there is
one. -/
def removeFoundAttr (attrs : List SdpAttr) (name fmt : Str) : List SdpAttr :=
  attrs.eraseP (attrMatches name fmt)

/-- The removal of the `rtpmap` and the `fmtp` of a format. -/
def removeFormatAttrs (attrs : List SdpAttr) (fmt : Str) : List SdpAttr :=
  removeFoundAttr (removeFoundAttr attrs rtpmap fmt) fmtp fmt

/-- `pjmedia_sdp_media_remove_all_attr`. -/
def pjmediaSdpMediaRemoveAllAttr (m : SdpMedia) (name : Str) : SdpMedia :=
  { m with attr := m.attr.filter fun attr => attr.name ≠ name }

/-- `pjmedia_sdp_rtpmap`. -/
structure SdpRtpmap where
  /-- Payload type. -/
  pt : Str
  /-- Encoding name. -/
  encName : Str
  /-- Clock rate. -/
  clockRate : Nat
  /-- Parameter. -/
  param : Str
deriving DecidableEq, Repr

/-- `pjmedia_sdp_attr_get_rtpmap`, as far as it gets: its callers do not look at the status. An
empty value leaves the structure of the caller alone, which is not initialized; here it is
empty. -/
def pjmediaSdpAttrGetRtpmap (attr : SdpAttr) : SdpRtpmap :=
  let empty : SdpRtpmap := { pt := [], encName := [], clockRate := 0, param := [] }
  match pjScanGet csToken (pjScanInit attr.value true) with
  | none => empty
  | some (pt, scanner) =>
    match pjScanGet csToken scanner with
    | none => { empty with pt := pt }
    | some (encName, scanner) =>
      match pjScanGetChar scanner with
      | some (47, scanner) =>
        match pjScanGet csDigit scanner with
        | none => { empty with pt := pt, encName := encName }
        | some (token, scanner) =>
          { pt := pt, encName := encName, clockRate := payloadType token
            param :=
              if scanner.peek 0 = 47 then
                (pjScanGetChar scanner).elim [] fun next => next.2.rest
              else [] }
      | _ => { empty with pt := pt, encName := encName }

/-- The parameter of an rtpmap is the byte `'1'`. -/
def isOne (param : Str) : Bool := param = [49]

/-- `pjmedia_sdp_transport_get_proto` has the flags of `PJMEDIA_TP_PROTO_RTP_AVP`. -/
def isRtpAvp (tp : Str) : Bool :=
  let tokenStart := tp.dropWhile (· = 47)
  let token := tokenStart.takeWhile (· ≠ 47)
  -- The length of the token is used as its end, which ignores slashes in front of it.
  let rest := if tokenStart = [] then [] else tp.drop (token.length + 1)
  let avp := ofChars ['A', 'V', 'P']
  let savp := ofChars ['S', 'A', 'V', 'P']
  let avpf := ofChars ['A', 'V', 'P', 'F']
  let savpf := ofChars ['S', 'A', 'V', 'P', 'F']
  let dtls := ofChars ['T', 'L', 'S', '/', 'R', 'T', 'P', '/']
  if pjStricmpEq token (ofChars ['R', 'T', 'P']) then
    [avp, savp, avpf, savpf].any (pjStricmpEq rest)
  else if pjStricmpEq token (ofChars ['U', 'D', 'P']) then
    [dtls ++ savp, dtls ++ savpf].any (pjStricmpEq rest)
  else false

/-- `pjmedia_sdp_transport_cmp` returns success. -/
def pjmediaSdpTransportCmp (left right : Str) : Bool :=
  pjStricmpEq left right || (isRtpAvp left && isRtpAvp right)

/-- `pjmedia_sdp_media_deactivate`, and `pjmedia_sdp_media_clone_deactivate`. -/
def pjmediaSdpMediaDeactivate (m : SdpMedia) : SdpMedia := { m with port := 0, attr := [] }

end Pjmedia.Sdp
