import Pjproject.Pjlib.Str

/-!
# Session descriptions

The structures of `sdp.h`. An array with its count is a list, and a number is a natural number
whatever its type.
-/

namespace Pjmedia.Sdp
open Pj

/-- `PJMEDIA_MAX_SDP_FMT`. -/
def maxSdpFmt : Nat := 32

/-- `PJMEDIA_MAX_SDP_BANDW`. -/
def maxSdpBandw : Nat := 4

/-- `PJMEDIA_MAX_SDP_ATTR`. -/
def maxSdpAttr : Nat := maxSdpFmt * 2 + 4

/-- `PJMEDIA_MAX_SDP_MEDIA`. -/
def maxSdpMedia : Nat := 16

/-- `pjmedia_sdp_attr`. -/
structure SdpAttr where
  /-- Attribute name. -/
  name : Str
  /-- Attribute value; a missing one is empty. -/
  value : Str
deriving DecidableEq, Repr

/-- `pjmedia_sdp_conn`. -/
structure SdpConn where
  /-- Network type. -/
  netType : Str
  /-- Address type. -/
  addrType : Str
  /-- The address. -/
  addr : Str
deriving DecidableEq, Repr

/-- `pjmedia_sdp_bandw`. -/
structure SdpBandw where
  /-- Bandwidth modifier. -/
  modifier : Str
  /-- Bandwidth value. -/
  value : Nat
deriving DecidableEq, Repr

/-- `pjmedia_sdp_media`, with the fields of its `desc`. -/
structure SdpMedia where
  /-- Media type. -/
  media : Str
  /-- Port number. -/
  port : Nat
  /-- Port count. -/
  portCount : Nat
  /-- Transport. -/
  transport : Str
  /-- Media formats. -/
  fmt : List Str
  /-- Connection info. -/
  conn : Option SdpConn
  /-- Bandwidth info. -/
  bandw : List SdpBandw
  /-- Attributes. -/
  attr : List SdpAttr
deriving DecidableEq, Repr

/-- The `origin` of `pjmedia_sdp_session`. -/
structure SdpOrigin where
  /-- User. -/
  user : Str
  /-- Session ID. -/
  id : Nat
  /-- Session version. -/
  version : Nat
  /-- Network type. -/
  netType : Str
  /-- Address type. -/
  addrType : Str
  /-- The address. -/
  addr : Str
deriving DecidableEq, Repr

/-- `pjmedia_sdp_session`, with the fields of its `time`. -/
structure SdpSession where
  /-- Origin line. -/
  origin : SdpOrigin
  /-- Subject line. -/
  name : Str
  /-- Connection line. -/
  conn : Option SdpConn
  /-- Bandwidth info. -/
  bandw : List SdpBandw
  /-- Start time. -/
  start : Nat
  /-- Stop time. -/
  stop : Nat
  /-- Attributes. -/
  attr : List SdpAttr
  /-- Media. -/
  media : List SdpMedia
deriving DecidableEq, Repr

/-- A zero-filled `pjmedia_sdp_conn`. -/
def SdpConn.zero : SdpConn := { netType := [], addrType := [], addr := [] }

/-- A zero-filled `pjmedia_sdp_media`. -/
def SdpMedia.zero : SdpMedia :=
  { media := [], port := 0, portCount := 0, transport := [], fmt := [], conn := none, bandw := []
    attr := [] }

/-- A zero-filled `pjmedia_sdp_session`. -/
def SdpSession.zero : SdpSession :=
  { origin := { user := [], id := 0, version := 0, netType := [], addrType := [], addr := [] }
    name := [], conn := none, bandw := [], start := 0, stop := 0, attr := [], media := [] }

end Pjmedia.Sdp
