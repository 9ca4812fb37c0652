import Pjproject.Srtp.Sdes

/-!
# The SRTP transport

`transport_srtp.c`: packets are protected on their way to the member transport and unprotected on
their way to the stream, unless SRTP is bypassed. What libsrtp and the member transport return comes
with each call, and descriptions are as the member transport leaves them. The copy of a policy whose
key lies in a buffer of the transport changes with the buffer.
-/

namespace Pjmedia.Srtp
open Pj Pjmedia.Sdp Pjnath.Stun

/-! ## Creation -/

/-- `pjmedia_srtp_setting`. -/
structure SrtpSetting where
  use : SrtpUse
  crypto : List SrtpCrypto
  fits : crypto.length ≤ maxCryptos

/-- The check of a crypto in `pjmedia_transport_srtp_create`. -/
def checkCrypto (crypto : SrtpCrypto) : Except Int CryptoSuite :=
  match getCryptoIdx crypto.name with
  | none => .error pjmediaSrtpEnotsupcrypto
  | some csIdx =>
    if crypto.key ≠ [] ∧ crypto.key.length < (cryptoSuite csIdx).cipherKeyLen then
      .error pjmediaSrtpEinkeylen
    else .ok (cryptoSuite csIdx)

/-- A crypto of the transport: it has the name of the table, and the key is cut. -/
def resetCrypto (crypto : SrtpCrypto) : Except Int SrtpCrypto :=
  (checkCrypto crypto).map fun suite =>
    { crypto with name := suite.name, key := crypto.key.take suite.cipherKeyLen }

/-- `pjmedia_srtp_enum_crypto`: all suites except `NULL`. -/
def pjmediaSrtpEnumCrypto : List SrtpCrypto :=
  (cryptoSuites.tail.map fun suite => ⟨[], suite.name, 0⟩).take maxCryptos

/-- `PROBATION_CNT_INIT`. -/
def probationCntInit : Nat := 100

/-- `pjmedia_transport_srtp_create`. -/
def pjmediaTransportSrtpCreate (opt : SrtpSetting) : Except Int TransportSrtp := do
  let crypto ← if opt.use = .disabled then .ok [] else opt.crypto.mapM resetCrypto
  return {
    use := opt.use
    crypto := if crypto = [] ∧ opt.use ≠ .disabled then pjmediaSrtpEnumCrypto else crypto
    useRtcpMux := false
    sessionInited := false
    offererSide := false
    bypassSrtp := false
    txPolicy := .zero
    rxPolicy := .zero
    txPolicyNeg := .zero
    rxPolicyNeg := .zero
    started := false
    peerUse := opt.use
    probationCnt := probationCntInit
    keying := false }

/-! ## Sessions -/

/-- What the functions of libsrtp do during a call: the errors of `srtp_create` for the two contexts,
and the error and the packet of the others. Packets are unprotected a second time after a restart. -/
structure Libsrtp where
  create : Bool → Int
  protect : Str → Int × Str
  protectRtcp : Str → Int × Str
  unprotect : Bool → Str → Int × Str
  unprotectRtcp : Str → Int × Str

/-- `srtp_err_status_ok`. -/
def srtpErrStatusOk : Int := 0

/-- `srtp_err_status_replay_fail`. -/
def srtpErrStatusReplayFail : Int := 9

/-- `srtp_err_status_replay_old`. -/
def srtpErrStatusReplayOld : Int := 10

/-- `PJMEDIA_ERRNO_FROM_LIBSRTP`. -/
def pjmediaErrnoFromLibsrtp (err : Int) : Int := 259799 + err

/-- `PJMEDIA_SRTP_NO_ENCRYPTION`. -/
def pjmediaSrtpNoEncryption : Nat := 1

/-- `PJMEDIA_SRTP_NO_AUTHENTICATION`. -/
def pjmediaSrtpNoAuthentication : Nat := 2

/-- The index of a crypto, or of `NULL` if a flag is set. -/
def idxUnless (crypto : SrtpCrypto) (flag : Nat) : Option Nat :=
  if crypto.flags &&& flag ≠ 0 then some 0 else getCryptoIdx crypto.name

/-- A policy with its key in a buffer that a key is copied to. -/
def SrtpCrypto.overwritten (policy : SrtpCrypto) (key : Str) : SrtpCrypto :=
  { policy with key := key.take policy.key.length ++ policy.key.drop key.length }

/-- A policy that is in use, with the name of the table. -/
def SrtpCrypto.inUse (crypto : SrtpCrypto) : SrtpCrypto :=
  { crypto with name := (cryptoSuite ((getCryptoIdx crypto.name).getD 0)).name }

/-- `pjmedia_transport_srtp_stop`. -/
def pjmediaTransportSrtpStop (srtp : TransportSrtp) : TransportSrtp :=
  if srtp.sessionInited then
    { srtp with sessionInited := false, rxPolicy := .zero, txPolicy := .zero }
  else srtp

/-- `pjmedia_transport_srtp_start` where the suites are known: the contexts are created. -/
def createContexts (lib : Libsrtp) (srtp : TransportSrtp) (tx rx : SrtpCrypto) :
    TransportSrtp × Int :=
  let srtp := { srtp with txPolicy := srtp.txPolicy.overwritten tx.key }
  if lib.create true ≠ srtpErrStatusOk then (srtp, pjmediaErrnoFromLibsrtp (lib.create true)) else
  let srtp := { srtp with txPolicy := tx.inUse, rxPolicy := srtp.rxPolicy.overwritten rx.key }
  if lib.create false ≠ srtpErrStatusOk then (srtp, pjmediaErrnoFromLibsrtp (lib.create false)) else
  ({ srtp with rxPolicy := rx.inUse, sessionInited := true }, pjSuccess)

/-- `pjmedia_transport_srtp_start`. -/
def pjmediaTransportSrtpStart (lib : Libsrtp) (srtp : TransportSrtp) (tx rx : SrtpCrypto) :
    TransportSrtp × Int :=
  let srtp := pjmediaTransportSrtpStop srtp
  let crTxIdx := idxUnless tx pjmediaSrtpNoEncryption
  let auTxIdx := idxUnless tx pjmediaSrtpNoAuthentication
  let crRxIdx := idxUnless rx pjmediaSrtpNoEncryption
  let auRxIdx := idxUnless rx pjmediaSrtpNoAuthentication
  match crTxIdx, auTxIdx, crRxIdx, auRxIdx with
  | some crTxIdx, some auTxIdx, some crRxIdx, some auRxIdx =>
    if crTxIdx = 0 ∧ crRxIdx = 0 ∧ auTxIdx = 0 ∧ auRxIdx = 0 then
      ({ srtp with bypassSrtp := true }, pjSuccess)
    else if tx.key.length ≠ (cryptoSuite crTxIdx).cipherKeyLen ∨
        rx.key.length ≠ (cryptoSuite crRxIdx).cipherKeyLen then
      (srtp, pjmediaSrtpEinkeylen)
    else createContexts lib srtp tx rx
  | _, _, _, _ => (srtp, pjmediaSrtpEnotsupcrypto)

/-- `start_srtp`. -/
def startSrtp (lib : Libsrtp) (srtp : TransportSrtp) : TransportSrtp × Int :=
  if srtpCryptoEmpty srtp.txPolicyNeg || srtpCryptoEmpty srtp.rxPolicyNeg then
    (pjmediaTransportSrtpStop { srtp with bypassSrtp := true, peerUse := .disabled }, pjSuccess)
  else
    let srtp := { srtp with probationCnt := probationCntInit }
    if srtpCryptoEq srtp.txPolicyNeg srtp.txPolicy && srtpCryptoEq srtp.rxPolicyNeg srtp.rxPolicy then
      ({ srtp with bypassSrtp := false }, pjSuccess)
    else
      let (srtp, status) := pjmediaTransportSrtpStart lib srtp srtp.txPolicyNeg srtp.rxPolicyNeg
      if status ≠ pjSuccess then (srtp, status) else ({ srtp with bypassSrtp := false }, pjSuccess)

/-! ## Packets -/

/-- `PJMEDIA_MAX_MTU`, the size of the buffers. -/
def pjmediaMaxMtu : Nat := 1500

/-- `SRTP_MAX_TRAILER_LEN`. -/
def maxTrailerLen : Nat := 144

/-- `transport_send_rtp`: what is handed to the member transport, or an error. -/
def transportSendRtp (lib : Libsrtp) (srtp : TransportSrtp) (pkt : Str) : Except Int Str :=
  if srtp.bypassSrtp then .ok pkt
  else if pkt.length > pjmediaMaxMtu - maxTrailerLen then .error pjEtoobig
  else if ¬srtp.sessionInited then .error pjmediaSrtpEkeynotready
  else
    let (err, pkt) := lib.protect pkt
    if err = srtpErrStatusOk then .ok pkt else .error (pjmediaErrnoFromLibsrtp err)

/-- `transport_send_rtcp2`. -/
def transportSendRtcp2 (lib : Libsrtp) (srtp : TransportSrtp) (pkt : Str) : Except Int Str :=
  if srtp.bypassSrtp then .ok pkt
  else if pkt.length > pjmediaMaxMtu - (maxTrailerLen + 4) then .error pjEtoobig
  else if ¬srtp.sessionInited then .error pjmediaSrtpEkeynotready
  else
    let (err, pkt) := lib.protectRtcp pkt
    if err = srtpErrStatusOk then .ok pkt else .error (pjmediaErrnoFromLibsrtp err)

/-- `srtp_rtcp_cb`: what is handed to the stream. A packet of a negative size is an error of the
member transport. -/
def srtpRtcpCb (lib : Libsrtp) (srtp : TransportSrtp) (pkt : Except Int Str) :
    Option (Except Int Str) :=
  if srtp.bypassSrtp then some pkt else
  match pkt with
  | .error _ => none
  | .ok pkt =>
    if ¬srtp.sessionInited then none else
    let (err, pkt) := lib.unprotectRtcp pkt
    if err = srtpErrStatusOk then some (.ok pkt) else none

/-- The packet type of a header is one of RTCP. -/
def isRtcpPt (pkt : Str) : Bool := 64 ≤ pkt.getD 1 0 &&& 127 && pkt.getD 1 0 &&& 127 ≤ 95

/-- `srtp_rtp_cb`: the transport, and what is handed to the stream. -/
def srtpRtpCb (lib : Libsrtp) (srtp : TransportSrtp) (pkt : Except Int Str) :
    TransportSrtp × Option (Except Int Str) :=
  if srtp.bypassSrtp then (srtp, some pkt) else
  match pkt with
  | .error _ => (srtp, none)
  | .ok pkt =>
    let srtp := { srtp with probationCnt := srtp.probationCnt - 1 }
    if ¬srtp.sessionInited then (srtp, none) else
    if srtp.useRtcpMux ∧ isRtcpPt pkt then (srtp, srtpRtcpCb lib srtp (.ok pkt)) else
    let (err, pkt) := lib.unprotect false pkt
    if 0 < srtp.probationCnt ∧ (err = srtpErrStatusReplayOld ∨ err = srtpErrStatusReplayFail) then
      -- The numbers of the stream may have started again.
      let (srtp, status) := pjmediaTransportSrtpStart lib srtp srtp.txPolicy srtp.rxPolicy
      if status = pjSuccess ∧ ¬srtp.bypassSrtp then
        let (err, pkt) := lib.unprotect true pkt
        (srtp, if err = srtpErrStatusOk then some (.ok pkt) else none)
      else (srtp, none)
    else (srtp, if err = srtpErrStatusOk then some (.ok pkt) else none)

/-! ## Media -/

/-- The policies that are negotiated start again. -/
def TransportSrtp.clearNeg (srtp : TransportSrtp) : TransportSrtp :=
  { srtp with rxPolicyNeg := .zero, txPolicyNeg := .zero }

/-- `transport_media_create`, with the status of the member transport. -/
def transportMediaCreate (srtp : TransportSrtp) (member : Int) (mRem : Option SdpMedia) :
    TransportSrtp × Int :=
  let srtp := { srtp.clearNeg with offererSide := mRem.isNone }
  let skipped := srtp.offererSide ∧ srtp.use = .disabled
  let srtp := { srtp with bypassSrtp := decide skipped, keying := decide ¬skipped }
  if member ≠ pjSuccess then (srtp, member) else
  if ¬srtp.keying then (srtp, pjSuccess) else
  let status := sdesMediaCreate srtp mRem
  if status ≠ pjSuccess then ({ srtp with keying := false }, status)
  else if srtp.use = .disabled then ({ srtp with bypassSrtp := true, keying := false }, pjSuccess)
  else (srtp, pjSuccess)

/-- `transport_encode_sdp`, with the status of the member transport and the local media that it
leaves. -/
def transportEncodeSdp (source : KeySource) (srtp : TransportSrtp) (member : Int) (mLoc : SdpMedia)
    (mRem : Option SdpMedia) : Option (TransportSrtp × SdpMedia × Int) :=
  let srtp := { srtp.clearNeg with offererSide := mRem.isNone }
  let srtp := { srtp with keying := srtp.keying || (!srtp.offererSide && srtp.started) }
  if member ≠ pjSuccess then some (srtp, mLoc, member) else
  if ¬srtp.keying then some (srtp, mLoc, pjSuccess) else
  (sdesEncodeSdp source srtp mLoc mRem).map fun (srtp, mLoc, status) =>
    if status ≠ pjSuccess then ({ srtp with keying := false }, mLoc, status)
    else if srtp.use = .disabled then
      ({ srtp with bypassSrtp := true, keying := false }, mLoc, pjSuccess)
    else (srtp, mLoc, pjSuccess)

/-- `transport_media_start`, with the status of the member transport. -/
def transportMediaStart (lib : Libsrtp) (srtp : TransportSrtp) (member : Int) (mLoc mRem : SdpMedia) :
    Option (TransportSrtp × SdpMedia × Int) :=
  let srtp := { srtp with started := true }
  if member ≠ pjSuccess then some (srtp, mLoc, member) else
  if ¬srtp.keying then some (srtp, mLoc, pjSuccess) else
  (sdesMediaStart srtp mLoc mRem).map fun (srtp, mLoc, status) =>
    if status ≠ pjSuccess then ({ srtp with keying := false }, mLoc, status)
    else
      let (srtp, status) := startSrtp lib srtp
      (srtp, mLoc, status)

/-- `transport_media_stop`. -/
def transportMediaStop (srtp : TransportSrtp) : TransportSrtp :=
  pjmediaTransportSrtpStop { srtp with started := false }

/-! ## Runs -/

/-- What happens to a transport: a call, with what libsrtp and the member transport do, or a packet
that the member transport has received. -/
inductive Event
  | attach (useRtcpMux : Bool)
  | mediaCreate (member : Int) (mRem : Option SdpMedia)
  | encodeSdp (source : KeySource) (member : Int) (mLoc : SdpMedia) (mRem : Option SdpMedia)
  | mediaStart (lib : Libsrtp) (member : Int) (mLoc mRem : SdpMedia)
  | mediaStop
  | rtp (lib : Libsrtp) (pkt : Except Int Str)

/-- One step. Sending a packet and receiving one of RTCP leave the transport as it is. -/
def step (srtp : TransportSrtp) : Event → Option TransportSrtp
  | .attach useRtcpMux => some { srtp with useRtcpMux := useRtcpMux }
  | .mediaCreate member mRem => some (transportMediaCreate srtp member mRem).1
  | .encodeSdp source member mLoc mRem => (transportEncodeSdp source srtp member mLoc mRem).map Prod.fst
  | .mediaStart lib member mLoc mRem => (transportMediaStart lib srtp member mLoc mRem).map Prod.fst
  | .mediaStop => some (transportMediaStop srtp)
  | .rtp lib pkt => some (srtpRtpCb lib srtp pkt).1

/-- A run goes on as long as its steps have an outcome. -/
def next (srtp : Option TransportSrtp) (event : Event) : Option TransportSrtp :=
  srtp.bind fun srtp => step srtp event

end Pjmedia.Srtp
