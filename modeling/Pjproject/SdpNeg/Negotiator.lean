import Pjproject.Lib.Heap
import Pjproject.SdpNeg.CreateAnswer

/-!
# The negotiator

`pjmedia_sdp_neg` with its six pointers to sessions of the pool. A function without a result
dereferences a null pointer. The sessions of its arguments are values, and a clone of a session
is a new object of the pool: `pjmedia_sdp_session_clone` copies everything it points to. A
version is a natural number, which does not wrap around.
-/

namespace Pjmedia.SdpNeg
open Pj Sdp Heap

/-- `pjmedia_sdp_neg_state`. -/
inductive NegState
  | localOffer
  | remoteOffer
  | waitNego
  | done
deriving DecidableEq, Repr

/-- `pjmedia_sdp_neg`. -/
structure Negotiator where
  /-- Negotiator state. -/
  state : NegState
  /-- `prefer_remote_codec_order` and `answer_with_multiple_codecs`. -/
  options : Options
  hasRemoteAnswer : Bool
  answerWasRemote : Bool
  /-- Initial local SDP. -/
  initialSdp : Ptr
  /-- Temporary initial local SDP. -/
  initialSdpTmp : Ptr
  /-- Currently active local SDP. -/
  activeLocalSdp : Ptr
  /-- Currently active remote's. -/
  activeRemoteSdp : Ptr
  /-- Temporary local SDP. -/
  negLocalSdp : Ptr
  /-- Temporary remote SDP. -/
  negRemoteSdp : Ptr
deriving DecidableEq, Repr

/-- The negotiator and the sessions of its pool. -/
structure Memory where
  sessions : Heap SdpSession
  neg : Negotiator
deriving DecidableEq, Repr

/-- What a call returns: the status, and the offer of `pjmedia_sdp_neg_send_local_offer`. -/
structure Returned where
  status : Status
  offer : Ptr := none
deriving DecidableEq, Repr

/-- A negotiator filled with zeros, but for the options. -/
def Negotiator.zero (state : NegState) : Negotiator :=
  { state := state, options := Options.default, hasRemoteAnswer := false, answerWasRemote := false
    initialSdp := none, initialSdpTmp := none, activeLocalSdp := none, activeRemoteSdp := none
    negLocalSdp := none, negRemoteSdp := none }

/-- `pjmedia_sdp_neg_create_w_local_offer`, in an empty pool. -/
def createWLocalOffer (localSdp : SdpSession) : Except Status Memory :=
  if pjmediaSdpValidate localSdp ≠ .success then .error (pjmediaSdpValidate localSdp)
  else
    .ok { sessions := [localSdp, localSdp]
          neg := { Negotiator.zero .localOffer with initialSdp := some 0, negLocalSdp := some 1 } }

/-- `pjmedia_sdp_neg_create_w_remote_offer`, in an empty pool. -/
def createWRemoteOffer (initial : Option SdpSession) (remote : SdpSession) : Except Status Memory :=
  if pjmediaSdpValidate2 remote false ≠ .success then .error (pjmediaSdpValidate2 remote false)
  else
    match initial with
    | some initial =>
      if pjmediaSdpValidate initial ≠ .success then .error (pjmediaSdpValidate initial)
      else
        .ok { sessions := [remote, initial, initial]
              neg := { Negotiator.zero .waitNego with
                negRemoteSdp := some 0, initialSdp := some 1, negLocalSdp := some 2 } }
    | none =>
      .ok { sessions := [remote], neg := { Negotiator.zero .remoteOffer with negRemoteSdp := some 0 } }

/-- One round of the loop of `pjmedia_sdp_neg_modify_local_offer2` that keeps the order of the
old media, at index `oi`. -/
def placeMedia (localSdp : SdpSession) (media : List SdpMedia) (oi : Nat) (om : SdpMedia) :
    List SdpMedia :=
  match (media.drop oi).find? fun nm => nm.media = om.media with
  | some nm =>
    media.take oi ++ nm :: (media.drop oi).eraseP fun nm => nm.media = om.media
  | none => media.take oi ++ sdpMediaCloneDeactivate om om localSdp :: media.drop oi

/-- The loop, from the old media at index `oi` on. -/
def placeMedias (localSdp : SdpSession) (media : List SdpMedia) (oi : Nat) :
    List SdpMedia → List SdpMedia
  | [] => media
  | om :: rest => placeMedias localSdp (placeMedia localSdp media oi om) (oi + 1) rest

/-- The media of the new offer. If a change of the media is allowed, only the missing ones are
added. -/
def offeredMedia (allowMediaChange : Bool) (localSdp oldOffer : SdpSession) : List SdpMedia :=
  if allowMediaChange then
    localSdp.media ++ (oldOffer.media.drop localSdp.media.length).map fun om =>
      sdpMediaCloneDeactivate om om localSdp
  else placeMedias localSdp localSdp.media 0 oldOffer.media

/-- The new offer of `pjmedia_sdp_neg_modify_local_offer2`. -/
def modifiedOffer (allowMediaChange : Bool) (localSdp oldOffer : SdpSession) : SdpSession :=
  { localSdp with
    origin := { oldOffer.origin with version := oldOffer.origin.version + 1 }
    media := offeredMedia allowMediaChange localSdp oldOffer }

/-- `pjmedia_sdp_neg_modify_local_offer2`, with the flag `PJMEDIA_SDP_NEG_ALLOW_MEDIA_CHANGE`. -/
def modifyLocalOffer2 (mem : Memory) (allowMediaChange : Bool) (localSdp : SdpSession) :
    Option (Memory × Returned) :=
  if mem.neg.state ≠ .done then some (mem, { status := .einstate })
  else if pjmediaSdpValidate localSdp ≠ .success then
    some (mem, { status := pjmediaSdpValidate localSdp })
  else
    (read mem.sessions mem.neg.activeLocalSdp).map fun oldOffer =>
      let newOffer := modifiedOffer allowMediaChange localSdp oldOffer
      let sessions := alloc mem.sessions newOffer
      ({ sessions := alloc sessions newOffer
         neg := { mem.neg with
           state := .localOffer
           initialSdpTmp := mem.neg.initialSdp
           initialSdp := fresh mem.sessions
           negLocalSdp := fresh sessions } },
        { status := .success })

/-- The initial SDP is kept as the temporary one and replaced by a clone. -/
def retainInitial (mem : Memory) : Memory :=
  match read mem.sessions mem.neg.initialSdp with
  | none => mem
  | some initial =>
    { sessions := alloc mem.sessions initial
      neg := { mem.neg with
        initialSdpTmp := mem.neg.initialSdp, initialSdp := fresh mem.sessions } }

/-- `pjmedia_sdp_neg_send_local_offer`. -/
def sendLocalOffer (mem : Memory) : Memory × Returned :=
  match mem.neg.state with
  | .done =>
    match read mem.sessions mem.neg.activeLocalSdp with
    | none => (mem, { status := .enoactive })
    | some active =>
      let retained := retainInitial mem
      ({ sessions := alloc retained.sessions active
         neg := { retained.neg with
           state := .localOffer, negLocalSdp := fresh retained.sessions } },
        { status := .success, offer := mem.neg.activeLocalSdp })
  | .localOffer => (mem, { status := .success, offer := mem.neg.negLocalSdp })
  | _ => (mem, { status := .einstate })

/-- `pjmedia_sdp_neg_set_remote_answer`. -/
def setRemoteAnswer (mem : Memory) (remote : SdpSession) : Memory × Returned :=
  if mem.neg.state ≠ .localOffer then (mem, { status := .einstate })
  else
    ({ sessions := alloc mem.sessions remote
       neg := { mem.neg with
         state := .waitNego, hasRemoteAnswer := true, negRemoteSdp := fresh mem.sessions } },
      { status := .success })

/-- `pjmedia_sdp_neg_set_remote_offer`. -/
def setRemoteOffer (mem : Memory) (remote : SdpSession) : Memory × Returned :=
  if mem.neg.state ≠ .done then (mem, { status := .einstate })
  else
    ({ sessions := alloc mem.sessions remote
       neg := { mem.neg with state := .remoteOffer, negRemoteSdp := fresh mem.sessions } },
      { status := .success })

/-- The session with the ID of another one. -/
def withOriginId (sdp other : SdpSession) : SdpSession :=
  { sdp with origin := { sdp.origin with id := other.origin.id } }

/-- `pjmedia_sdp_neg_set_local_answer`. -/
def setLocalAnswer (mem : Memory) (localSdp : SdpSession) : Memory × Returned :=
  if mem.neg.state ≠ .remoteOffer ∧ mem.neg.state ≠ .waitNego then
    (mem, { status := .einstate })
  else
    let cloned : Memory :=
      { sessions := alloc mem.sessions localSdp
        neg := { mem.neg with state := .waitNego, negLocalSdp := fresh mem.sessions } }
    match read cloned.sessions cloned.neg.initialSdp with
    | some initial =>
      let retained := retainInitial cloned
      ({ retained with
         sessions :=
           write retained.sessions retained.neg.negLocalSdp (withOriginId localSdp initial) },
        { status := .success })
    | none =>
      ({ sessions := alloc cloned.sessions localSdp
         neg := { cloned.neg with initialSdp := fresh cloned.sessions } },
        { status := .success })

/-- The session with the version after the one of another session. -/
def withVersionAfter (sdp other : SdpSession) : SdpSession :=
  { sdp with origin := { sdp.origin with version := other.origin.version + 1 } }

/-- The end of `pjmedia_sdp_neg_cancel_offer` and `pjmedia_sdp_neg_negotiate`. -/
def Negotiator.clear (neg : Negotiator) (initialSdp : Ptr) : Negotiator :=
  { neg with
    state := .done, hasRemoteAnswer := false, initialSdp := initialSdp, initialSdpTmp := none
    negLocalSdp := none, negRemoteSdp := none }

/-- `pjmedia_sdp_neg_cancel_offer`. -/
def cancelOffer (mem : Memory) : Memory × Returned :=
  match mem.neg.state with
  | .localOffer =>
    ({ sessions :=
         match read mem.sessions mem.neg.activeLocalSdp with
         | some active => write mem.sessions mem.neg.activeLocalSdp (withVersionAfter active active)
         | none => mem.sessions
       neg := mem.neg.clear mem.neg.initialSdpTmp },
      { status := .success })
  | .remoteOffer =>
    ({ mem with neg := mem.neg.clear mem.neg.initialSdp }, { status := .success })
  | _ => (mem, { status := .einstate })

/-- The end of `pjmedia_sdp_neg_negotiate`, which reverts the initial SDP if it fails. -/
def finishNego (mem : Memory) (status : Status) : Memory × Returned :=
  ({ mem with
     neg := Negotiator.clear { mem.neg with answerWasRemote := mem.neg.hasRemoteAnswer }
       (if status = .success then mem.neg.initialSdp else mem.neg.initialSdpTmp) },
    { status := status })

/-- `process_answer` on the sessions of the negotiator, which it changes in place. Without a
local SDP it returns an error. -/
def negotiateRemoteAnswer (mem : Memory) (remote : SdpSession) (allowAsym : Bool) :
    Memory × Returned :=
  match read mem.sessions mem.neg.negLocalSdp with
  | none => finishNego mem .einval
  | some offer =>
    let (status, active, answer) := processAnswer offer remote allowAsym
    let processed :=
      { mem with
        sessions := write (write mem.sessions mem.neg.negLocalSdp active) mem.neg.negRemoteSdp answer }
    finishNego
      (if status = .success then
        { processed with
          neg := { mem.neg with
            activeLocalSdp := mem.neg.negLocalSdp, activeRemoteSdp := mem.neg.negRemoteSdp } }
      else processed)
      status

/-- `create_answer` on the sessions of the negotiator. Without a local SDP its clone of it
fails. -/
def negotiateLocalAnswer (mem : Memory) (remote : SdpSession) : Option (Memory × Returned) :=
  match read mem.sessions mem.neg.negLocalSdp with
  | none =>
    some (finishNego mem
      (if pjmediaSdpValidate remote ≠ .success then pjmediaSdpValidate remote else .enomem))
  | some initial =>
    let (status, answer) := createAnswer mem.neg.options initial remote
    if status ≠ .success then some (finishNego mem status)
    else
      -- The version is the active one, or the initial one before there is an active SDP.
      ((read mem.sessions mem.neg.activeLocalSdp).or (read mem.sessions mem.neg.initialSdp)).map
        fun versioned =>
          finishNego
            { sessions := alloc mem.sessions (withVersionAfter answer versioned)
              neg := { mem.neg with
                activeLocalSdp := fresh mem.sessions, activeRemoteSdp := mem.neg.negRemoteSdp } }
            .success

/-- `pjmedia_sdp_neg_negotiate`. -/
def negotiate (mem : Memory) (allowAsym : Bool) : Option (Memory × Returned) :=
  if mem.neg.state ≠ .waitNego then some (mem, { status := .einstate })
  else
    match read mem.sessions mem.neg.negRemoteSdp with
    | none => some (mem, { status := .ebug })
    | some remote =>
      if mem.neg.hasRemoteAnswer then some (negotiateRemoteAnswer mem remote allowAsym)
      else negotiateLocalAnswer mem remote

/-- The calls on a negotiator that exists. -/
inductive Call
  | modifyLocalOffer2 (allowMediaChange : Bool) (localSdp : SdpSession)
  | sendLocalOffer
  | setRemoteAnswer (remote : SdpSession)
  | setRemoteOffer (remote : SdpSession)
  | setLocalAnswer (localSdp : SdpSession)
  | cancelOffer
  | negotiate (allowAsym : Bool)
  | setOptions (options : Options)
deriving DecidableEq, Repr

/-- One call. The last one is `pjmedia_sdp_neg_set_prefer_remote_codec_order` or
`pjmedia_sdp_neg_set_answer_multiple_codecs`. -/
def call (mem : Memory) : Call → Option (Memory × Returned)
  | .modifyLocalOffer2 allowMediaChange localSdp => modifyLocalOffer2 mem allowMediaChange localSdp
  | .sendLocalOffer => some (sendLocalOffer mem)
  | .setRemoteAnswer remote => some (setRemoteAnswer mem remote)
  | .setRemoteOffer remote => some (setRemoteOffer mem remote)
  | .setLocalAnswer localSdp => some (setLocalAnswer mem localSdp)
  | .cancelOffer => some (cancelOffer mem)
  | .negotiate allowAsym => negotiate mem allowAsym
  | .setOptions options =>
    some ({ mem with neg := { mem.neg with options := options } }, { status := .success })

end Pjmedia.SdpNeg
