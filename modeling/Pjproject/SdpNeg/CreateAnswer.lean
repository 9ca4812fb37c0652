import Pjproject.SdpNeg.ProcessAnswer

/-!
# Creating the answer to an offer

`create_answer` answers each media of the offer with the first media of the capability that
`match_offer` accepts and that is not used yet, or with a copy of the offered media with port
zero. No callback is registered with `custom_fmt_match`.
-/

namespace Pjmedia.SdpNeg
open Pj Sdp

/-- `"telephone-event"`. -/
def telephoneEvent : Str :=
  ofChars ['t', 'e', 'l', 'e', 'p', 'h', 'o', 'n', 'e', '-', 'e', 'v', 'e', 'n', 't']

/-- The options of the negotiator that `match_offer` takes. -/
structure Options where
  /-- `prefer_remote_codec_order`. -/
  preferRemoteCodecOrder : Bool
  /-- `answer_with_multiple_codecs`. -/
  answerWithMultipleCodecs : Bool
deriving DecidableEq, Repr

/-- The default options of a negotiator. -/
def Options.default : Options :=
  { preferRemoteCodecOrder := true, answerWithMultipleCodecs := false }

/-- The locals of the loop of `match_offer`. -/
structure Matched where
  masterHasCodec : Bool
  masterHasOther : Bool
  foundMatchingCodec : Bool
  foundMatchingTelephoneEvent : Bool
  foundMatchingOther : Bool
  /-- `pt_offer` and `pt_answer`. -/
  pts : List (Str × Str)
deriving DecidableEq, Repr

/-- The locals before the loop. -/
def Matched.start : Matched :=
  { masterHasCodec := false, masterHasOther := false, foundMatchingCodec := false
    foundMatchingTelephoneEvent := false, foundMatchingOther := false, pts := [] }

/-- Two rtpmaps match, in `match_offer`. A missing channel count is one channel. -/
def rtpmapMatches (masterMap slaveMap : SdpRtpmap) : Bool :=
  pjStricmpEq masterMap.encName slaveMap.encName && masterMap.clockRate = slaveMap.clockRate &&
    (pjStricmpEq masterMap.param slaveMap.param || (slaveMap.param = [] && isOne masterMap.param) ||
      (masterMap.param = [] && isOne slaveMap.param))

/-- The payload types in the offer and in the answer of a match. -/
def matchedPair (options : Options) (masterFmt slaveFmt : Str) : Str × Str :=
  if options.preferRemoteCodecOrder then (masterFmt, slaveFmt) else (slaveFmt, masterFmt)

/-- The case of a static payload type. -/
def matchStatic (options : Options) (slave : SdpMedia) (fmt : Str) (found : Matched) : Matched :=
  let found := { found with masterHasCodec := true }
  if !options.answerWithMultipleCodecs && found.foundMatchingCodec then found
  else
    match slave.fmt.find? fun slaveFmt =>
        payloadType slaveFmt = payloadType fmt && pjIsdigit (slaveFmt.headD 0) with
    | none => found
    | some slaveFmt =>
      { found with foundMatchingCodec := true, pts := found.pts ++ [(slaveFmt, slaveFmt)] }

/-- The first format of the slave with an `rtpmap` that matches. -/
def findMatching (slave : SdpMedia) (masterMap : SdpRtpmap) : Option Str :=
  slave.fmt.find? fun slaveFmt =>
    (pjmediaSdpMediaFindAttr2 slave rtpmap slaveFmt).any fun a =>
      rtpmapMatches masterMap (pjmediaSdpAttrGetRtpmap a)

/-- The case of a dynamic payload type. Without a result its `rtpmap` is missing. -/
def matchDynamic (options : Options) (master slave : SdpMedia) (fmt : Str) (found : Matched) :
    Option Matched := do
  let a ← pjmediaSdpMediaFindAttr2 master rtpmap fmt
  let masterMap := pjmediaSdpAttrGetRtpmap a
  if pjStricmpEq masterMap.encName telephoneEvent then
    if found.foundMatchingTelephoneEvent then return found
    match findMatching slave masterMap with
    | none => return found
    | some slaveFmt =>
      return { found with
        foundMatchingTelephoneEvent := true
        pts := found.pts ++ [matchedPair options fmt slaveFmt] }
  else
    let found := { found with masterHasCodec := true }
    if !options.answerWithMultipleCodecs && found.foundMatchingCodec then return found
    match findMatching slave masterMap with
    | none => return found
    | some slaveFmt =>
      return { found with
        foundMatchingCodec := true, pts := found.pts ++ [matchedPair options fmt slaveFmt] }

/-- The case of a payload type that is not a number. -/
def matchOther (options : Options) (slave : SdpMedia) (fmt : Str) (found : Matched) : Matched :=
  let found := { found with masterHasOther := true }
  if found.foundMatchingOther then found
  else if fmt ∈ slave.fmt then
    { found with foundMatchingOther := true, pts := found.pts ++ [matchedPair options fmt fmt] }
  else found

/-- One round of the loop of `match_offer`. -/
def matchFormat (options : Options) (master slave : SdpMedia) (fmt : Str) (found : Matched) :
    Option Matched :=
  if pjIsdigit (fmt.headD 0) then
    if payloadType fmt < 96 then some (matchStatic options slave fmt found)
    else matchDynamic options master slave fmt found
  else some (matchOther options slave fmt found)

/-- The loop of `match_offer` over the formats of the master. -/
def matchFormats (options : Options) (master slave : SdpMedia) :
    List Str → Matched → Option Matched
  | [], found => some found
  | fmt :: rest, found => do
    let found ← matchFormat options master slave fmt found
    matchFormats options master slave rest found

/-- `rewrite_pt`: the new payload type takes the place of as many bytes as the old one has. -/
def rewritePt (attrVal oldPt newPt : Str) : Str :=
  (newPt ++ attrVal.drop oldPt.length).take (attrVal.length + newPt.length - oldPt.length)

/-- The attributes of an answer and those taken out of it, `a_tmp`. -/
structure Rewritten where
  attr : List SdpAttr
  tmp : List SdpAttr
deriving DecidableEq, Repr

/-- The update of the payload type in an attribute, which is taken out. -/
def rewriteAttr (name ptAnswer ptOffer : Str) (state : Rewritten) : Rewritten :=
  match pjmediaSdpAttrFind state.attr name ptAnswer with
  | none => state
  | some a =>
    { attr := removeFoundAttr state.attr name ptAnswer
      tmp := state.tmp ++ [{ a with value := rewritePt a.value ptAnswer ptOffer }] }

/-- One round of the loop of `apply_answer_symmetric_pt`, on the attributes. -/
def rewriteFormat (state : Rewritten) (pt : Str × Str) : Rewritten :=
  if pt.2 = pt.1 then state
  else rewriteAttr fmtp pt.2 pt.1 (rewriteAttr rtpmap pt.2 pt.1 state)

/-- `apply_answer_symmetric_pt`: the formats become those of the offer, and so do the payload
types of the attributes. -/
def applyAnswerSymmetricPt (pts : List (Str × Str)) (answer : SdpMedia) : SdpMedia :=
  let rewritten := pts.foldl rewriteFormat { attr := answer.attr, tmp := [] }
  { answer with
    fmt := List.zipWith (fun fmt pt => if pt.2 = pt.1 then fmt else pt.1) answer.fmt pts
    attr := rewritten.tmp.foldl addAttr rewritten.attr }

/-- The swap of the formats `i` and `j`. A `j` past the end, which the source asserts not to
happen, is not swapped. -/
def swapFormats (fmt : List Str) (i j : Nat) : List Str :=
  match fmt[i]?, fmt[j]? with
  | some left, some right => (fmt.set i right).set j left
  | _, _ => fmt

/-- The loop that moves the formats of the answer to the front, from index `i` on. -/
def arrangeFormats (fmt : List Str) (i : Nat) : List Str → List Str
  | [] => fmt
  | pt :: rest =>
    arrangeFormats (swapFormats fmt i (i + (fmt.drop i).findIdx (· = pt))) (i + 1) rest

/-- The answer that `match_offer` builds from the payload types it has found. -/
def buildAnswer (offer preanswer : SdpMedia) (pts : List (Str × Str)) : SdpMedia :=
  let arranged := arrangeFormats preanswer.fmt 0 (pts.map Prod.snd)
  let kept :=
    { preanswer with
      fmt := arranged.take pts.length
      attr := (arranged.drop pts.length).foldl removeFormatAttrs preanswer.attr }
  updateMediaDirection offer (applyAnswerSymmetricPt pts kept)

/-- `match_offer`. -/
def matchOffer (options : Options) (offer preanswer : SdpMedia) (preanswerSdp : SdpSession) :
    Except Status SdpMedia :=
  if offer.port = 0 then .ok (sdpMediaCloneDeactivate offer preanswer preanswerSdp)
  else if preanswer.port = 0 then .ok preanswer
  else
    let master := if options.preferRemoteCodecOrder then offer else preanswer
    let slave := if options.preferRemoteCodecOrder then preanswer else offer
    match matchFormats options master slave master.fmt Matched.start with
    | none => .error .emissingrtpmap
    | some found =>
      if found.masterHasCodec ∧ ¬found.foundMatchingCodec then .error .noanscodec
      else if found.masterHasOther ∧ ¬found.foundMatchingOther then .error .noansunknown
      else .ok (buildAnswer offer preanswer found.pts)

/-- The search for the media of the capability that answers an offered media, from index `j` on:
the index and the answer, or none, and the status after the search. -/
def findAnswerMedia (options : Options) (initial : SdpSession) (used : List Nat) (om : SdpMedia) :
    Nat → List SdpMedia → Status → Option (Nat × SdpMedia) × Status
  | _, [], status => (none, status)
  | j, im :: rest, status =>
    if om.media = im.media ∧ om.transport = im.transport ∧ j ∉ used then
      match matchOffer options om im initial with
      | .ok am => (some (j, am), status)
      | .error status => findAnswerMedia options initial used om (j + 1) rest status
    else findAnswerMedia options initial used om (j + 1) rest status

/-- The loop of `create_answer`: the media of the answer, whether one is active, and the
status after the loop. -/
def answerMedia (options : Options) (initial : SdpSession) :
    List SdpMedia → List Nat → Status → List SdpMedia × Bool × Status
  | [], _, status => ([], false, status)
  | om :: rest, used, status =>
    let (found, status) := findAnswerMedia options initial used om 0 initial.media status
    let (am, used) := match found with
      | some (j, am) => (am, j :: used)
      | none => (sdpMediaCloneDeactivate om om initial, used)
    let (later, active, status) := answerMedia options initial rest used status
    (am :: later, am.port ≠ 0 || active, status)

/-- `create_answer`. The status before the loop is the one of the validation. -/
def createAnswer (options : Options) (initial offer : SdpSession) : Status × SdpSession :=
  if pjmediaSdpValidate offer ≠ .success then (pjmediaSdpValidate offer, initial)
  else
    let (media, active, status) := answerMedia options initial offer.media [] .success
    (if active then .success else status, { initial with media := media })

end Pjmedia.SdpNeg
