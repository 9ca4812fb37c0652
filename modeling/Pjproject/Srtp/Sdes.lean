import Pjproject.Srtp.Crypto

/-!
# Keys in session descriptions

`transport_srtp_sdes.c`: an offer lists the suites of the setting with their keys, an answer takes
the first one that it knows and puts its own key there, and the offerer looks its key up by the name
of that suite. A function has no outcome where it leaves an array: `tags` has room for 64 attributes,
and a tag of the local description may be zero.
-/

namespace Pjmedia.Srtp
open Pj Pjmedia.Sdp Pjnath.Stun

/-! ## The transport -/

/-- `pjmedia_srtp_use`. -/
inductive SrtpUse
  | disabled | optional | mandatory
deriving DecidableEq, Repr

/-- `transport_srtp`, with the `use` and the `crypto` of its `setting`. The only keying method is SDES,
and `keying` says that it is active. -/
structure TransportSrtp where
  use : SrtpUse
  crypto : List SrtpCrypto
  useRtcpMux : Bool
  sessionInited : Bool
  offererSide : Bool
  bypassSrtp : Bool
  txPolicy : SrtpCrypto
  rxPolicy : SrtpCrypto
  txPolicyNeg : SrtpCrypto
  rxPolicyNeg : SrtpCrypto
  started : Bool
  peerUse : SrtpUse
  probationCnt : Nat
  keying : Bool
deriving DecidableEq, Repr

/-! ## Media transports -/

/-- `pjmedia_tp_proto` without the flag of RTCP feedback. Others than the two are not told apart. -/
inductive TpProto
  | rtpAvp | rtpSavp | other
deriving DecidableEq, Repr

/-- `ID_RTP_AVP`. -/
def idRtpAvp : Str := ofChars "RTP/AVP".toList

/-- `ID_RTP_SAVP`. -/
def idRtpSavp : Str := ofChars "RTP/SAVP".toList

/-- `pjmedia_sdp_transport_get_proto`. -/
def transportProto (tp : Str) : TpProto :=
  let tokenStart := tp.dropWhile (· = 47)
  let token := tokenStart.takeWhile (· ≠ 47)
  -- The length of the token is used as its end, which ignores slashes in front of it.
  let rest := if tokenStart = [] then [] else tp.drop (token.length + 1)
  if pjStricmpEq token (ofChars "RTP".toList) then
    if pjStricmpEq rest (ofChars "AVP".toList) || pjStricmpEq rest (ofChars "AVPF".toList) then .rtpAvp
    else if pjStricmpEq rest (ofChars "SAVP".toList) || pjStricmpEq rest (ofChars "SAVPF".toList) then
      .rtpSavp
    else .other
  else .other

/-- An error, and whether the media is deactivated. -/
structure Refusal where
  status : Int
  deactivate : Bool
deriving DecidableEq, Repr

/-- `DEACTIVATE_MEDIA` and the status. -/
def Refusal.answer (refusal : Refusal) (srtp : TransportSrtp) (m : SdpMedia) :
    TransportSrtp × SdpMedia × Int :=
  (srtp, if refusal.deactivate then pjmediaSdpMediaDeactivate m else m, refusal.status)

/-- The attribute is one of crypto. -/
def isCrypto (attr : SdpAttr) : Bool := pjStricmpEq attr.name idCrypto

/-- `sdes_media_create`, where the remote media is that of an offer. -/
def sdesMediaCreate (srtp : TransportSrtp) : Option SdpMedia → Int
  | none => pjSuccess
  | some mRem =>
    match transportProto mRem.transport, srtp.use with
    | .other, _ => pjmediaSrtpEsdpintransport
    | .rtpSavp, .disabled => pjmediaSrtpEsdpintransport
    | .rtpAvp, .mandatory => pjmediaSrtpEsdpintransport
    | _, _ => pjSuccess

/-! ## Offers -/

/-- The loop over the setting in `sdes_encode_sdp`: the cryptos with their keys, the values of the
attributes, and the status. -/
def offerCrypto (source : KeySource) (txName : Str) : Nat → Int → List SrtpCrypto →
    List SrtpCrypto × List Str × Int
  | _, _, [] => ([], [], pjSuccess)
  | place, tag, crypto :: rest =>
    if txName ≠ [] ∧ ¬pjStricmpEq txName crypto.name then
      let (rest, values, status) := offerCrypto source txName (place + 1) tag rest
      (crypto :: rest, values, status)
    else
      match generateCryptoAttrValue source place crypto tag with
      | (crypto, .error status) => (crypto :: rest, [], status)
      | (crypto, .ok value) =>
        if value = [] then
          let (rest, values, status) := offerCrypto source txName (place + 1) tag rest
          (crypto :: rest, values, status)
        else
          let (rest, values, status) := offerCrypto source txName (place + 1) (tag + 1) rest
          (crypto :: rest, value :: values, status)

/-- `sdes_encode_sdp` of an offerer. -/
def sdesEncodeOffer (source : KeySource) (srtp : TransportSrtp) (mLoc : SdpMedia) :
    TransportSrtp × SdpMedia × Int :=
  if transportProto mLoc.transport = .other then (srtp, mLoc, pjmediaSrtpEsdpintransport) else
  if srtp.use = .disabled then (srtp, mLoc, pjSuccess) else
  let savp := srtp.use = .mandatory ∨ srtp.peerUse = .mandatory
  let mLoc := { mLoc with transport := if savp then idRtpSavp else idRtpAvp }
  if hasAttr mLoc idCrypto then (srtp, mLoc, pjSuccess) else
  let (crypto, values, status) := offerCrypto source srtp.txPolicy.name 0 1 srtp.crypto
  ({ srtp with crypto := crypto },
    { mLoc with attr := mLoc.attr ++ values.map fun value => ⟨idCrypto, value⟩ }, status)

/-! ## Answers -/

/-- What the loop over the attributes of an offer has found: `has_crypto_attr`, the tags, and the place
in the setting, the crypto and the tag of the match. -/
structure Choice where
  hasCryptoAttr : Bool
  tags : List Int
  matched : Option (Nat × SrtpCrypto × Int)
deriving DecidableEq, Repr

/-- Before the loop. -/
def Choice.start : Choice := ⟨false, [], none⟩

/-- The loop over the attributes of an offer in `sdes_encode_sdp`. -/
def chooseCrypto (setting : List SrtpCrypto) : List SdpAttr → Choice → Option (Choice × Option Refusal)
  | [], choice => some (choice, none)
  | attr :: rest, choice =>
    if ¬isCrypto attr then chooseCrypto setting rest choice else
    if 64 ≤ choice.tags.length then none else
    let choice := { choice with hasCryptoAttr := true }
    match parseAttrCrypto attr with
    | .error status => some (choice, some ⟨status, false⟩)
    | .ok (tmpRxCrypto, tag) =>
      if tag ∈ choice.tags then some (choice, some ⟨pjmediaSrtpEsdpdupcryptotag, true⟩) else
      let found := setting.findIdx? fun crypto => pjStricmpEq tmpRxCrypto.name crypto.name
      match choice.matched, found with
      | none, some matchedIdx =>
        match getCryptoIdx tmpRxCrypto.name with
        | none => some (choice, some ⟨pjmediaSrtpEnotsupcrypto, false⟩)
        | some csIdx =>
          if tmpRxCrypto.key.length ≠ (cryptoSuite csIdx).cipherKeyLen then
            some (choice, some ⟨pjmediaSrtpEinkeylen, false⟩)
          else
            chooseCrypto setting rest { choice with
              tags := choice.tags ++ [tag], matched := some (matchedIdx, tmpRxCrypto, tag) }
      | _, _ => chooseCrypto setting rest { choice with tags := choice.tags ++ [tag] }

/-- The answer to a choice: the key of the place is put into the local media. -/
def answerCrypto (source : KeySource) (srtp : TransportSrtp) (mLoc mRem : SdpMedia)
    (place : Nat) (tag : Int) : TransportSrtp × SdpMedia × Int :=
  let crypto := srtp.crypto.getD place .zero
  let (crypto, generated) := generateCryptoAttrValue source place crypto tag
  let srtp := { srtp with crypto := srtp.crypto.set place crypto }
  match generated with
  | .error status => (srtp, mLoc, status)
  | .ok value =>
    let attr := if value = [] then mLoc.attr else mLoc.attr ++ [⟨idCrypto, value⟩]
    ({ srtp with txPolicyNeg := crypto }, { mLoc with attr := attr, transport := mRem.transport },
      pjSuccess)

/-- `sdes_encode_sdp` of an answerer. -/
def sdesEncodeAnswer (source : KeySource) (srtp : TransportSrtp) (mLoc mRem : SdpMedia) :
    Option (TransportSrtp × SdpMedia × Int) :=
  let remProto := transportProto mRem.transport
  if remProto = .other then some (srtp, mLoc, pjmediaSrtpEsdpintransport) else
  if srtp.use = .disabled then
    some (srtp, mLoc, if remProto = .rtpSavp then pjmediaSrtpEsdpintransport else pjSuccess) else
  if srtp.use = .mandatory ∧ remProto ≠ .rtpSavp then some (srtp, mLoc, pjmediaSrtpEsdpintransport) else
  if hasAttr mLoc idCrypto then some (srtp, { mLoc with transport := mRem.transport }, pjSuccess) else do
  let (choice, refusal) ← chooseCrypto srtp.crypto mRem.attr .start
  let srtp := { srtp with
    rxPolicyNeg := (choice.matched.map fun matched => matched.2.1).getD srtp.rxPolicyNeg }
  match refusal, choice.matched with
  | some refusal, _ => return refusal.answer srtp mLoc
  | none, some (place, _, tag) => return answerCrypto source srtp mLoc mRem place tag
  | none, none =>
    if srtp.use = .optional ∧ remProto = .rtpAvp then return (srtp, mLoc, pjSuccess)
    let status := if choice.hasCryptoAttr then pjmediaSrtpEnotsupcrypto else pjmediaSrtpEsdpreqcrypto
    return Refusal.answer ⟨status, true⟩ srtp mLoc

/-- `sdes_encode_sdp`. -/
def sdesEncodeSdp (source : KeySource) (srtp : TransportSrtp) (mLoc : SdpMedia) :
    Option SdpMedia → Option (TransportSrtp × SdpMedia × Int)
  | none => some (sdesEncodeOffer source srtp mLoc)
  | some mRem => sdesEncodeAnswer source srtp mLoc mRem

/-! ## The start of media -/

/-- `PJMEDIA_SRTP_MAX_CRYPTOS`. -/
def maxCryptos : Nat := 16

/-- `fill_local_crypto`: the array and the count, which an error leaves at the size of the array. -/
def fillLocalCrypto : List SdpAttr → List SrtpCrypto → Int → Option (List SrtpCrypto × Int)
  | [], locCrypto, count => some (locCrypto, count)
  | attr :: rest, locCrypto, count =>
    if ¬isCrypto attr then fillLocalCrypto rest locCrypto count else
    match parseAttrCrypto attr with
    | .error _ => some (locCrypto, maxCryptos)
    | .ok (tmpCrypto, locTag) =>
      if locTag > maxCryptos then some (locCrypto, maxCryptos)
      else if locTag < 1 then none
      else fillLocalCrypto rest (locCrypto.set (locTag - 1).toNat tmpCrypto) (count + 1)

/-- The checks on the crypto of an answer: its tag is one of the offer, and its suite that of the tag. -/
def answerRefusal (srtp : TransportSrtp) (locCrypto : List SrtpCrypto) (count : Int)
    (tmpTxCrypto : SrtpCrypto) (remTag : Int) : Option Refusal :=
  if remTag < 1 ∨ remTag > srtp.crypto.length ∨ remTag > count then
    some ⟨pjmediaSrtpEsdpincryptotag, true⟩
  else if ¬pjStricmpEq tmpTxCrypto.name (locCrypto.getD (remTag - 1).toNat .zero).name then
    some ⟨pjmediaSrtpEcryptonotmatch, true⟩
  else none

/-- The policies of an answer: the crypto of the setting with the name of the suite, if there is one. -/
def takeAnswer (srtp : TransportSrtp) (tmpTxCrypto : SrtpCrypto) : TransportSrtp :=
  { srtp with
    txPolicyNeg := (srtp.crypto.find? fun crypto =>
      pjStricmpEq tmpTxCrypto.name crypto.name).getD srtp.txPolicyNeg
    rxPolicyNeg := tmpTxCrypto }

/-- The loop over the attributes of an answer in `sdes_media_start`, with `has_crypto_attr`. -/
def readAnswer (locCrypto : List SrtpCrypto) (count : Int) : List SdpAttr → TransportSrtp → Bool →
    TransportSrtp × Bool × Option Refusal
  | [], srtp, hasCryptoAttr => (srtp, hasCryptoAttr, none)
  | attr :: rest, srtp, hasCryptoAttr =>
    if ¬isCrypto attr then readAnswer locCrypto count rest srtp hasCryptoAttr else
    if hasCryptoAttr then (srtp, true, some ⟨pjmediaSrtpEsdpambigueans, true⟩) else
    match parseAttrCrypto attr with
    | .error status => (srtp, true, some ⟨status, false⟩)
    | .ok (tmpTxCrypto, remTag) =>
      match answerRefusal srtp locCrypto count tmpTxCrypto remTag with
      | some refusal => (srtp, true, some refusal)
      | none => readAnswer locCrypto count rest (takeAnswer srtp tmpTxCrypto) true

/-- `sdes_media_start`. -/
def sdesMediaStart (srtp : TransportSrtp) (mLoc mRem : SdpMedia) :
    Option (TransportSrtp × SdpMedia × Int) :=
  let remProto := transportProto mRem.transport
  if remProto = .other then some (srtp, mLoc, pjmediaSrtpEsdpintransport) else
  let srtp := { srtp with peerUse := if remProto = .rtpSavp then .mandatory else .optional }
  -- The policies of an answerer are those of its answer.
  if ¬srtp.offererSide then some (srtp, mLoc, pjSuccess) else
  if srtp.use = .disabled then
    if hasAttr mRem idCrypto then some (Refusal.answer ⟨pjmediaSrtpEsdpincrypto, true⟩ srtp mLoc)
    else some (srtp, mLoc, pjSuccess) else
  if srtp.use = .mandatory ∧ srtp.peerUse ≠ .mandatory then
    some (Refusal.answer ⟨pjmediaSdpEinproto, true⟩ srtp mLoc) else do
  let (locCrypto, count) ← fillLocalCrypto mLoc.attr (List.replicate maxCryptos .zero) 0
  match readAnswer locCrypto count mRem.attr srtp false with
  | (srtp, _, some refusal) => return refusal.answer srtp mLoc
  | (srtp, hasCryptoAttr, none) =>
    if srtp.use = .mandatory ∧ ¬hasCryptoAttr then
      return Refusal.answer ⟨pjmediaSrtpEsdpreqcrypto, true⟩ srtp mLoc
    return (srtp, mLoc, pjSuccess)

end Pjmedia.Srtp
