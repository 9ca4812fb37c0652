import Pjproject.PjlibUtil.Scanner
import Pjproject.Sdp.Session

/-!
# Parsing a session description

The line parsers of `sdp.c` and the loop of `pjmedia_sdp_parse`. A line parser without a result
has thrown; what is thrown is told by the `last_error` it sets first.
-/

namespace Pjmedia.Sdp
open Pj

/-- The status codes of the parser. -/
inductive SdpError
  | einsdp
  | einver
  | einorigin
  | eintime
  | einconn
  | einbandw
  | einmedia
  | einattr
deriving DecidableEq, Repr

/-- `TOKEN`. -/
def tokenChars : Str :=
  ofChars ['!', '#', '$', '%', '&', '\'', '*', '+', '-', '.', '^', '_', '`', '{', '|', '}', '~']

/-- `cs_token`. -/
def csToken (byte : UInt8) : Bool :=
  (97 ≤ byte && byte ≤ 122) || (65 ≤ byte && byte ≤ 90) || pjIsdigit byte ||
    decide (byte ∈ tokenChars)

/-- `cs_digit`. -/
def csDigit (byte : UInt8) : Bool := pjIsdigit byte

/-- The delimiters of most last fields of a line, `" \t\r\n"`. -/
def lineDelims : Str := [32, 9, 13, 10]

/-- The check of the equal sign that most line parsers begin with. -/
def hasEqual (scanner : Scanner) : Bool := scanner.peek 1 = 61

/-- `parse_version`. -/
def parseVersion (scanner : Scanner) : Option Scanner :=
  if hasEqual scanner ∧ scanner.peek 2 = 48 then some (pjScanSkipLine scanner) else none

/-- `parse_origin`. -/
def parseOrigin (scanner : Scanner) : Option (SdpOrigin × Scanner) := do
  guard (hasEqual scanner)
  let scanner ← pjScanAdvanceN 2 scanner
  let (user, scanner) ← pjScanGetUntilCh 32 scanner
  let (_, scanner) ← pjScanGetChar scanner
  let (id, scanner) ← pjScanGetUntilCh 32 scanner
  let (_, scanner) ← pjScanGetChar scanner
  let (version, scanner) ← pjScanGetUntilCh 32 scanner
  let (_, scanner) ← pjScanGetChar scanner
  let (netType, scanner) ← pjScanGetUntilCh 32 scanner
  let (_, scanner) ← pjScanGetChar scanner
  let (addrType, scanner) ← pjScanGetUntilCh 32 scanner
  let (_, scanner) ← pjScanGetChar scanner
  let (addr, scanner) ← pjScanGetUntilChr lineDelims scanner
  return (
    { user := user, id := pjStrtoul id % 2 ^ 32, version := pjStrtoul version % 2 ^ 32
      netType := netType, addrType := addrType, addr := addr },
    pjScanSkipLine scanner)

/-- `parse_time`: the start and stop time. -/
def parseTime (scanner : Scanner) : Option ((Nat × Nat) × Scanner) := do
  guard (hasEqual scanner)
  let scanner ← pjScanAdvanceN 2 scanner
  let (start, scanner) ← pjScanGetUntilCh 32 scanner
  let (_, scanner) ← pjScanGetChar scanner
  let (stop, scanner) ← pjScanGetUntilChr lineDelims scanner
  return ((pjStrtoul start % 2 ^ 32, pjStrtoul stop % 2 ^ 32), pjScanSkipLine scanner)

/-- `parse_generic_line`. -/
def parseGenericLine (scanner : Scanner) : Option (Str × Scanner) := do
  guard (hasEqual scanner)
  let scanner ← pjScanAdvanceN 2 scanner
  let (str, scanner) ← pjScanGetUntilChr [13, 10] scanner
  let scanner ← pjScanGetNewline scanner
  return (str, scanner)

/-- `parse_connection_info`. -/
def parseConnectionInfo (scanner : Scanner) : Option (SdpConn × Scanner) := do
  let scanner ← pjScanAdvanceN 2 scanner
  let (netType, scanner) ← pjScanGetUntilCh 32 scanner
  let (_, scanner) ← pjScanGetChar scanner
  let (addrType, scanner) ← pjScanGetUntilCh 32 scanner
  let (_, scanner) ← pjScanGetChar scanner
  let (addr, scanner) ← pjScanGetUntilChr (47 :: lineDelims) scanner
  return ({ netType := netType, addrType := addrType, addr := addr }, pjScanSkipLine scanner)

/-- `parse_bandwidth_info`. -/
def parseBandwidthInfo (scanner : Scanner) : Option (SdpBandw × Scanner) := do
  let scanner ← pjScanAdvanceN 2 scanner
  let (modifier, scanner) ← pjScanGetUntilCh 58 scanner
  let (_, scanner) ← pjScanGetChar scanner
  let (value, scanner) ← pjScanGetUntilChr lineDelims scanner
  return ({ modifier := modifier, value := pjStrtoul value % 2 ^ 32 }, pjScanSkipLine scanner)

/-- The format loop of `parse_media`. A format past `PJMEDIA_MAX_SDP_FMT` is ignored. Every
round reads a byte, so `fuel` is the length of the buffer. -/
def parseFormats : Nat → List Str → Scanner → Option (List Str × Scanner)
  | 0, fmt, scanner => some (fmt, scanner)
  | fuel + 1, fmt, scanner =>
    if scanner.peek 0 = 32 then do
      let (_, scanner) ← pjScanGetChar scanner
      if scanner.peek 0 = 13 ∨ scanner.peek 0 = 10 then return (fmt, scanner)
      let (next, scanner) ← pjScanGet csToken scanner
      parseFormats fuel (if fmt.length < maxSdpFmt then fmt ++ [next] else fmt) scanner
    else some (fmt, scanner)

/-- The port count of `parse_media`, zero where there is none. -/
def parsePortCount (scanner : Scanner) : Option (Nat × Scanner) :=
  if scanner.peek 0 = 47 then do
    let (_, scanner) ← pjScanGetChar scanner
    let (portCount, scanner) ← pjScanGet csToken scanner
    return (pjStrtoul portCount % 2 ^ 32, scanner)
  else some (0, scanner)

/-- `parse_media`. -/
def parseMedia (scanner : Scanner) : Option (SdpMedia × Scanner) := do
  guard (hasEqual scanner)
  let scanner ← pjScanAdvanceN 2 scanner
  let (media, scanner) ← pjScanGetUntilCh 32 scanner
  let (_, scanner) ← pjScanGetChar scanner
  let (port, scanner) ← pjScanGet csToken scanner
  let (portCount, scanner) ← parsePortCount scanner
  let (space, scanner) ← pjScanGetChar scanner
  guard (space = 32)
  let (transport, scanner) ← pjScanGetUntilChr lineDelims scanner
  let (fmt, scanner) ← parseFormats scanner.rest.length [] scanner
  return (
    { SdpMedia.zero with
      media := media, port := pjStrtoul port % 2 ^ 16, portCount := portCount
      transport := transport, fmt := fmt },
    pjScanSkipLine scanner)

/-- The value of an attribute, in `parse_attr`. -/
def parseAttrValue (scanner : Scanner) : Option (Str × Scanner) :=
  if scanner.peek 0 ≠ 0 ∧ scanner.peek 0 ≠ 13 ∧ scanner.peek 0 ≠ 10 then do
    let scanner ←
      if scanner.peek 0 = 58 then (pjScanGetChar scanner).map Prod.snd else some scanner
    if scanner.peek 0 ≠ 13 ∧ scanner.peek 0 ≠ 10 then pjScanGetUntilChr [13, 10] scanner
    else some ([], scanner)
  else some ([], scanner)

/-- `parse_attr`. -/
def parseAttr (scanner : Scanner) : Option (SdpAttr × Scanner) := do
  guard (hasEqual scanner)
  let scanner ← pjScanAdvanceN 2 scanner
  let (name, scanner) ← pjScanGet csToken scanner
  let (value, scanner) ← parseAttrValue scanner
  return ({ name := name, value := value }, pjScanSkipLine scanner)

/-- The local `media` of `pjmedia_sdp_parse`: not set, an element of the session's array, or one
that was too many for the array. -/
inductive CurrentMedia
  | null
  | element (index : Nat)
  | ignored (media : SdpMedia)

/-- The locals of the loop of `pjmedia_sdp_parse`. -/
structure ParseState where
  session : SdpSession
  media : CurrentMedia

/-- A change of what `media` points to. -/
def ParseState.updateMedia (state : ParseState) (f : SdpMedia → SdpMedia) : ParseState :=
  match state.media with
  | .null => state
  | .element index =>
    { state with session := { state.session with media := state.session.media.modify index f } }
  | .ignored media => { state with media := .ignored (f media) }

/-- `pjmedia_sdp_attr_add` after a check of the count. -/
def addAttr (attr : List SdpAttr) (new : SdpAttr) : List SdpAttr :=
  if attr.length < maxSdpAttr then attr ++ [new] else attr

/-- The addition of bandwidth info in `pjmedia_sdp_parse`. -/
def addBandw (bandw : List SdpBandw) (new : SdpBandw) : List SdpBandw :=
  if bandw.length < maxSdpBandw then bandw ++ [new] else bandw

/-- The case `'a'`. -/
def ParseState.onAttr (state : ParseState) (attr : SdpAttr) : ParseState :=
  match state.media with
  | .null => { state with session := { state.session with attr := addAttr state.session.attr attr } }
  | _ => state.updateMedia fun m => { m with attr := addAttr m.attr attr }

/-- The case `'c'`. -/
def ParseState.onConn (state : ParseState) (conn : SdpConn) : ParseState :=
  match state.media with
  | .null => { state with session := { state.session with conn := some conn } }
  | _ => state.updateMedia fun m => { m with conn := some conn }

/-- The case `'b'`. -/
def ParseState.onBandw (state : ParseState) (bandw : SdpBandw) : ParseState :=
  match state.media with
  | .null =>
    { state with session := { state.session with bandw := addBandw state.session.bandw bandw } }
  | _ => state.updateMedia fun m => { m with bandw := addBandw m.bandw bandw }

/-- The case `'m'`. -/
def ParseState.onMedia (state : ParseState) (media : SdpMedia) : ParseState :=
  if state.session.media.length < maxSdpMedia then
    { session := { state.session with media := state.session.media ++ [media] }
      media := .element state.session.media.length }
  else { state with media := .ignored media }

/-- A line parser with the `last_error` it sets. -/
def orError {α : Type} (error : SdpError) (result : Option α) : Except SdpError α :=
  match result with
  | some value => .ok value
  | none => .error error

/-- One round of the loop of `pjmedia_sdp_parse`. -/
def parseLine (state : ParseState) (scanner : Scanner) : Except SdpError (ParseState × Scanner) :=
  let curName := scanner.peek 0
  if curName = 97 then do
    let (attr, scanner) ← orError .einattr (parseAttr scanner)
    return (state.onAttr attr, scanner)
  else if curName = 111 then do
    let (origin, scanner) ← orError .einorigin (parseOrigin scanner)
    return ({ state with session := { state.session with origin := origin } }, scanner)
  else if curName = 115 then do
    let (name, scanner) ← orError .einsdp (parseGenericLine scanner)
    return ({ state with session := { state.session with name := name } }, scanner)
  else if curName = 99 then do
    let (conn, scanner) ← orError .einconn (parseConnectionInfo scanner)
    return (state.onConn conn, scanner)
  else if curName = 116 then do
    let (time, scanner) ← orError .eintime (parseTime scanner)
    return ({ state with session := { state.session with start := time.1, stop := time.2 } },
      scanner)
  else if curName = 109 then do
    let (media, scanner) ← orError .einmedia (parseMedia scanner)
    return (state.onMedia media, scanner)
  else if curName = 118 then do
    let scanner ← orError .einver (parseVersion scanner)
    return (state, scanner)
  else if curName = 13 ∨ curName = 10 then
    -- Only newlines may follow an empty line.
    if scanner.rest.all fun byte => byte = 13 || byte = 10 then
      .ok (state, { scanner with rest := [] })
    else .error .einsdp
  else if curName = 98 then do
    let (bandw, scanner) ← orError .einbandw (parseBandwidthInfo scanner)
    return (state.onBandw bandw, scanner)
  else if 97 ≤ curName ∧ curName ≤ 122 then do
    let (_, scanner) ← orError .einsdp (parseGenericLine scanner)
    return (state, scanner)
  else .error .einsdp

/-- The loop of `pjmedia_sdp_parse`. Every round reads a byte, so `fuel` is the length of the
buffer. -/
def parseLines : Nat → ParseState → Scanner → Except SdpError ParseState
  | 0, state, _ => .ok state
  | fuel + 1, state, scanner =>
    if pjScanIsEof scanner then .ok state
    else do
      let (state, scanner) ← parseLine state scanner
      parseLines fuel state scanner

/-- `"sendonly"`. -/
def sendonly : Str := ofChars ['s', 'e', 'n', 'd', 'o', 'n', 'l', 'y']

/-- `"recvonly"`. -/
def recvonly : Str := ofChars ['r', 'e', 'c', 'v', 'o', 'n', 'l', 'y']

/-- `"inactive"`. -/
def inactive : Str := ofChars ['i', 'n', 'a', 'c', 't', 'i', 'v', 'e']

/-- `"sendrecv"`. -/
def sendrecv : Str := ofChars ['s', 'e', 'n', 'd', 'r', 'e', 'c', 'v']

/-- The attribute is one of the directions that `apply_media_direction` looks for in the
session. -/
def isDirection (attr : SdpAttr) : Bool :=
  attr.name = sendonly || attr.name = recvonly || attr.name = inactive

/-- `apply_media_direction`. The direction attribute is removed by its address, the first one
with its name. -/
def applyMediaDirection (sdp : SdpSession) : SdpSession :=
  match sdp.attr.find? isDirection with
  | none => sdp
  | some dirAttr =>
    { sdp with
      attr := sdp.attr.eraseP isDirection
      media := sdp.media.map fun m =>
        if m.attr.any fun attr => attr.name = sendrecv || isDirection attr then m
        else { m with attr := addAttr m.attr dirAttr } }

/-- `pjmedia_sdp_parse` of a NUL-terminated buffer. -/
def pjmediaSdpParse (buf : Str) : Except SdpError SdpSession := do
  let start := (pjScanInit buf false).rest.dropWhile fun byte => byte = 13 || byte = 10
  let state ← parseLines start.length { session := SdpSession.zero, media := .null }
    { rest := start, skipWs := false }
  return applyMediaDirection state.session

end Pjmedia.Sdp
