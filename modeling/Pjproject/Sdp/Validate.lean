import Pjproject.Sdp.Attr

/-!
# Validating a session description

`pjmedia_sdp_validate2` is a sequence of checks, of which the first one that fails gives the
status.
-/

namespace Pjmedia.Sdp
open Pj

/-- The status codes of the validation and of the negotiator. -/
inductive Status
  | success
  | einval
  | ebug
  | enomem
  | einorigin
  | einname
  | einconn
  | emissingconn
  | einmedia
  | enofmt
  | einpt
  | emissingrtpmap
  | einstate
  | enoactive
  | enomedia
  | einvansmedia
  | einvanstp
  | eansnomedia
  | noanscodec
  | noansunknown
deriving DecidableEq, Repr

/-- `CHECK`. -/
def check (exp : Bool) (ret : Status) : Status := if exp then .success else ret

/-- The status of checks in a sequence. -/
def firstFailure : List Status → Status
  | [] => .success
  | status :: rest => if status = .success then firstFailure rest else status

/-- `"IN"`. -/
def netTypeIn : Str := ofChars ['I', 'N']

/-- `"IP4"`. -/
def ip4 : Str := ofChars ['I', 'P', '4']

/-- `"IP6"`. -/
def ip6 : Str := ofChars ['I', 'P', '6']

/-- `validate_sdp_conn`. -/
def validateSdpConn (c : SdpConn) : Status :=
  firstFailure
    [check (c.netType = netTypeIn) .einconn,
     check (c.addrType = ip4 || c.addrType = ip6) .einconn,
     check (c.addr ≠ []) .einconn]

/-- The checks of a format. A number too big for `pj_strtoul3` is past 127 as well. -/
def validateFormat (m : SdpMedia) (fmt : Str) : Status :=
  if pjIsdigit (fmt.headD 0) then
    firstFailure
      [check (pjStrtoul fmt ≤ 127) .einpt,
       if m.port ≠ 0 ∧ 96 ≤ pjStrtoul fmt then
         check (pjmediaSdpMediaFindAttr2 m rtpmap fmt).isSome .emissingrtpmap
       else .success]
  else .success

/-- The checks of a media. -/
def validateMedia (sdp : SdpSession) (strict : Bool) (m : SdpMedia) : Status :=
  firstFailure
    ([check (m.media ≠ []) .einmedia,
      check (m.transport ≠ []) .einmedia,
      check (m.fmt ≠ [] || m.port = 0) .enofmt,
      m.conn.elim .success validateSdpConn,
      check (m.conn.isSome || sdp.conn.isSome || !(strict || m.port ≠ 0)) .emissingconn] ++
      m.fmt.map (validateFormat m))

/-- `pjmedia_sdp_validate2`. -/
def pjmediaSdpValidate2 (sdp : SdpSession) (strict : Bool) : Status :=
  firstFailure
    ([check (sdp.origin.user ≠ []) .einorigin,
      check (sdp.origin.netType = netTypeIn) .einorigin,
      check (sdp.origin.addrType = ip4 || sdp.origin.addrType = ip6) .einorigin,
      check (sdp.origin.addr ≠ []) .einorigin,
      check (sdp.name ≠ []) .einname,
      sdp.conn.elim .success validateSdpConn] ++
      sdp.media.map (validateMedia sdp strict))

/-- `pjmedia_sdp_validate`. -/
def pjmediaSdpValidate (sdp : SdpSession) : Status := pjmediaSdpValidate2 sdp true

end Pjmedia.Sdp
