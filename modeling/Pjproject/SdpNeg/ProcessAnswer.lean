import Pjproject.Sdp.Validate

/-!
# Processing the answer to an offer

`process_answer` walks over the media of the offer and of the answer and changes both in place.
A format of the offer is kept if it matches one of the answer; the kept ones are put in the
order of the answer. Each format travels with its `offer_fmt_prior`, the index of the answer's
format it matches first. No callback is registered with `custom_fmt_match`.
-/

namespace Pjmedia.SdpNeg
open Pj Sdp

/-- The directions of `pjmedia_dir`. -/
inductive MediaDir
  | none
  | encoding
  | decoding
  | encodingDecoding
deriving DecidableEq, Repr

/-- The direction in the attributes of a media, in `update_media_direction`. -/
def mediaDirection (m : SdpMedia) : MediaDir :=
  if hasAttr m sendonly then .encoding
  else if hasAttr m recvonly then .decoding
  else if hasAttr m inactive then .none
  else .encodingDecoding

/-- The direction for a remote media in `update_media_direction`. -/
def answeredDirection (remote : SdpMedia) (oldDir : MediaDir) : MediaDir :=
  if hasAttr remote inactive then .none
  else if hasAttr remote sendonly then
    match oldDir with
    | .encodingDecoding => .decoding
    | .decoding => .decoding
    | _ => .none
  else if hasAttr remote recvonly then
    match oldDir with
    | .encodingDecoding => .encoding
    | .encoding => .encoding
    | _ => .none
  else oldDir

/-- `remove_all_media_directions`. -/
def removeAllMediaDirections (m : SdpMedia) : SdpMedia :=
  [inactive, sendrecv, sendonly, recvonly].foldl pjmediaSdpMediaRemoveAllAttr m

/-- The attribute of a direction, which `sendrecv` does not need. -/
def directionAttr : MediaDir → Option SdpAttr
  | .none => some { name := inactive, value := [] }
  | .encoding => some { name := sendonly, value := [] }
  | .decoding => some { name := recvonly, value := [] }
  | .encodingDecoding => Option.none

/-- `update_media_direction`. -/
def updateMediaDirection (remote localMedia : SdpMedia) : SdpMedia :=
  let oldDir := mediaDirection localMedia
  let newDir := answeredDirection remote oldDir
  if newDir = oldDir then localMedia
  else
    let removed := removeAllMediaDirections localMedia
    { removed with attr := (directionAttr newDir).elim removed.attr (addAttr removed.attr) }

/-- The rtpmap of an answered format matches the one of an offered format, in
`process_m_answer`. -/
def rtpmapAnswers (offered answered : SdpRtpmap) : Bool :=
  pjStricmpEq offered.encName answered.encName && offered.clockRate = answered.clockRate &&
    (pjStricmpEq offered.param answered.param || isOne answered.param)

/-- The first format of the answer that matches a format of the offer, the count of formats
where there is none. Without a result the `rtpmap` of a dynamic format is missing. -/
def findAnswered (answer : SdpMedia) (offerAttr : List SdpAttr) (fmt : Str) : Option Nat :=
  if payloadType fmt < 96 then some (answer.fmt.findIdx (· = fmt))
  else do
    let a ← pjmediaSdpAttrFind offerAttr rtpmap fmt
    return answer.fmt.findIdx fun answered =>
      (pjmediaSdpMediaFindAttr2 answer rtpmap answered).any fun a' =>
        rtpmapAnswers (pjmediaSdpAttrGetRtpmap a) (pjmediaSdpAttrGetRtpmap a')

/-- The loop that removes the formats of the offer without a match, with their attributes. The
formats before the one at hand are `kept`. -/
def removeUnanswered (answer : SdpMedia) (kept : List (Str × Nat)) :
    List Str → List SdpAttr → Status × List (Str × Nat) × List SdpAttr
  | [], attr => (.success, kept, attr)
  | fmt :: rest, attr =>
    match findAnswered answer attr fmt with
    | none => (.ebug, kept ++ (fmt :: rest).map (·, 0), attr)
    | some prior =>
      if prior = answer.fmt.length then
        removeUnanswered answer kept rest (removeFormatAttrs attr fmt)
      else removeUnanswered answer (kept ++ [(fmt, prior)]) rest attr

/-- The inner loop of the sort: the format at `i` is swapped with each later one of a smaller
priority. -/
def sortFirst (first : Str × Nat) : List (Str × Nat) → (Str × Nat) × List (Str × Nat)
  | [] => (first, [])
  | next :: rest =>
    if next.2 < first.2 then
      let (least, later) := sortFirst next rest
      (least, first :: later)
    else
      let (least, later) := sortFirst first rest
      (least, next :: later)

/-- The loop that sorts the formats of the offer, of which there are `count`. -/
def sortFormats : Nat → List (Str × Nat) → List (Str × Nat)
  | count + 1, first :: rest =>
    let (least, later) := sortFirst first rest
    least :: sortFormats count later
  | _, formats => formats

/-- The loop that removes the formats of the answer without a match, with their attributes. The
formats before the one at hand are `kept`, and `delCnt` ones have been removed. -/
def removeUnoffered (prior : List Nat) (kept : List Str) (delCnt : Nat) :
    List Str → List SdpAttr → List Str × List SdpAttr
  | [], attr => (kept, attr)
  | fmt :: rest, attr =>
    if prior[kept.length]? = some (kept.length + delCnt) then
      removeUnoffered prior (kept ++ [fmt]) delCnt rest attr
    else removeUnoffered prior kept (delCnt + 1) rest (removeFormatAttrs attr fmt)

/-- The formats of `process_m_answer` if asymmetric media is not allowed. -/
def processFormats (offer answer : SdpMedia) : Status × SdpMedia × SdpMedia :=
  match removeUnanswered answer [] offer.fmt offer.attr with
  | (.success, kept, attr) =>
    if kept = [] then (.eansnomedia, { offer with fmt := [], attr := attr }, answer)
    else
      let sorted := sortFormats kept.length kept
      let (ansFmt, ansAttr) := removeUnoffered (sorted.map Prod.snd) [] 0 answer.fmt answer.attr
      (.success, { offer with fmt := sorted.map Prod.fst, attr := attr },
        { answer with fmt := ansFmt, attr := ansAttr })
  | (status, kept, attr) => (status, { offer with fmt := kept.map Prod.fst, attr := attr }, answer)

/-- The search of `process_m_answer` if asymmetric media is allowed. It compares the answer's
formats with themselves. -/
def hasAsymFormat (offer answer : SdpMedia) : Bool :=
  answer.fmt.any fun remFmt =>
    (List.range offer.fmt.length).any fun j => answer.fmt[j]? = some remFmt

/-- `process_m_answer`. -/
def processMAnswer (offer answer : SdpMedia) (allowAsym : Bool) : Status × SdpMedia × SdpMedia :=
  if answer.media ≠ offer.media then (.einvansmedia, offer, answer)
  else if ¬pjmediaSdpTransportCmp answer.transport offer.transport then (.einvanstp, offer, answer)
  else if answer.port = 0 then (.success, pjmediaSdpMediaDeactivate offer, answer)
  else if offer.port = 0 then (.success, offer, answer)
  else
    let offer := updateMediaDirection answer offer
    if allowAsym then
      (if hasAsymFormat offer answer then .success else .eansnomedia, offer, answer)
    else processFormats offer answer

/-- `sdp_media_clone_deactivate`. -/
def sdpMediaCloneDeactivate (remMed localMed : SdpMedia) (localSess : SdpSession) : SdpMedia :=
  let res := pjmediaSdpMediaDeactivate remMed
  if res.conn.isNone ∧ localSess.conn.isNone then
    { res with
      conn := some (localMed.conn.getD
        { netType := netTypeIn, addrType := ip4
          addr := ofChars ['1', '2', '7', '.', '0', '.', '0', '.', '1'] }) }
  else res

/-- What the loop of `process_answer` leaves. -/
structure Processed where
  /-- The status that ends the loop, success at its end. -/
  status : Status
  /-- The media of the offer from the current one on. -/
  offer : List SdpMedia
  /-- The media of the answer from the current one on. -/
  answer : List SdpMedia
  /-- Some media of the offer is active. -/
  hasActive : Bool

/-- One round of the loop of `process_answer`, before the rounds that leave `rest`. -/
def Processed.cons (offer : SdpMedia) (answer : List SdpMedia) (active : Bool) (rest : Processed) :
    Processed :=
  { rest with
    offer := offer :: rest.offer, answer := answer ++ rest.answer
    hasActive := active || rest.hasActive }

/-- The loop of `process_answer`, over the media of the offer and of the answer that are left. -/
def processMedia (offerSdp : SdpSession) (allowAsym : Bool) :
    List SdpMedia → List SdpMedia → Processed
  | [], answer => { status := .success, offer := [], answer := answer, hasActive := false }
  | om :: offer, [] =>
    -- The answer has less media than the offer.
    (processMedia offerSdp allowAsym offer []).cons (pjmediaSdpMediaDeactivate om)
      [sdpMediaCloneDeactivate om om offerSdp] false
  | om :: offer, am :: answer =>
    match processMAnswer om am allowAsym with
    | (.einvansmedia, om, am) =>
      (processMedia offerSdp allowAsym offer (am :: answer)).cons (pjmediaSdpMediaDeactivate om) []
        false
    | (.eansnomedia, om, am) =>
      (processMedia offerSdp allowAsym offer answer).cons (pjmediaSdpMediaDeactivate om)
        [pjmediaSdpMediaDeactivate am] false
    | (.success, om, am) =>
      (processMedia offerSdp allowAsym offer answer).cons om [am] (om.port ≠ 0)
    | (status, om, am) =>
      { status := status, offer := om :: offer, answer := am :: answer, hasActive := false }

/-- `process_answer`: the status, and the offer and the answer it changes. -/
def processAnswer (offer answer : SdpSession) (allowAsym : Bool) :
    Status × SdpSession × SdpSession :=
  let processed := processMedia offer allowAsym offer.media answer.media
  (if processed.status ≠ .success then processed.status
    else if processed.hasActive then .success else .enomedia,
    { offer with media := processed.offer }, { answer with media := processed.answer })

end Pjmedia.SdpNeg
