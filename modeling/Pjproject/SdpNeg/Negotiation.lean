import Pjproject.SdpNeg.Negotiator

/-!
# The negotiator on values

The purpose of the negotiator, without memory: the calls on a negotiator that holds sessions in
place of pointers, so that a change of one session is not a change of another one.
-/

namespace Pjmedia.SdpNeg
open Pj Sdp

/-- A negotiator that holds sessions. -/
structure Negotiation where
  state : NegState
  options : Options
  hasRemoteAnswer : Bool
  answerWasRemote : Bool
  initial : Option SdpSession
  initialTmp : Option SdpSession
  activeLocal : Option SdpSession
  activeRemote : Option SdpSession
  negLocal : Option SdpSession
  negRemote : Option SdpSession
deriving DecidableEq, Repr

/-- A negotiation in which nothing is set. -/
def Negotiation.zero (state : NegState) : Negotiation :=
  { state := state, options := Options.default, hasRemoteAnswer := false, answerWasRemote := false
    initial := none, initialTmp := none, activeLocal := none, activeRemote := none
    negLocal := none, negRemote := none }

/-- A negotiation begins with a local offer, with a remote offer, or with a remote offer and a
session to answer it with. -/
inductive Negotiation.Start : Negotiation → Prop
  | localOffer {localSdp : SdpSession} (valid : pjmediaSdpValidate localSdp = .success) :
    Start { Negotiation.zero .localOffer with initial := some localSdp, negLocal := some localSdp }
  | remoteOffer (remote : SdpSession) :
    Start { Negotiation.zero .remoteOffer with negRemote := some remote }
  | answered {initial : SdpSession} (remote : SdpSession)
      (valid : pjmediaSdpValidate initial = .success) :
    Start { Negotiation.zero .waitNego with
      initial := some initial, negLocal := some initial, negRemote := some remote }

/-- What a call reports. -/
structure Report where
  status : Status
  offer : Option SdpSession := none
deriving DecidableEq, Repr

namespace Negotiation

/-- A modified offer is pending. -/
def modifyLocalOffer (n : Negotiation) (allowMediaChange : Bool) (localSdp : SdpSession) :
    Option (Negotiation × Report) :=
  if n.state ≠ .done then some (n, { status := .einstate })
  else if pjmediaSdpValidate localSdp ≠ .success then
    some (n, { status := pjmediaSdpValidate localSdp })
  else
    n.activeLocal.map fun oldOffer =>
      ({ n with
         state := .localOffer
         initialTmp := n.initial
         initial := some (modifiedOffer allowMediaChange localSdp oldOffer)
         negLocal := some (modifiedOffer allowMediaChange localSdp oldOffer) },
        { status := .success })

/-- The initial session, if there is one, is kept to be restored. -/
def retain (n : Negotiation) : Negotiation :=
  { n with initialTmp := if n.initial.isSome then n.initial else n.initialTmp }

/-- The active session is offered again, or the pending offer is. -/
def sendLocalOffer (n : Negotiation) : Negotiation × Report :=
  match n.state with
  | .done =>
    match n.activeLocal with
    | none => (n, { status := .enoactive })
    | some active =>
      ({ n.retain with state := .localOffer, negLocal := some active },
        { status := .success, offer := some active })
  | .localOffer => (n, { status := .success, offer := n.negLocal })
  | _ => (n, { status := .einstate })

/-- The pending offer is answered. -/
def setRemoteAnswer (n : Negotiation) (remote : SdpSession) : Negotiation × Report :=
  if n.state ≠ .localOffer then (n, { status := .einstate })
  else
    ({ n with state := .waitNego, hasRemoteAnswer := true, negRemote := some remote },
      { status := .success })

/-- A remote offer is pending. -/
def setRemoteOffer (n : Negotiation) (remote : SdpSession) : Negotiation × Report :=
  if n.state ≠ .done then (n, { status := .einstate })
  else ({ n with state := .remoteOffer, negRemote := some remote }, { status := .success })

/-- A local session is set to answer with. -/
def setLocalAnswer (n : Negotiation) (localSdp : SdpSession) : Negotiation × Report :=
  if n.state ≠ .remoteOffer ∧ n.state ≠ .waitNego then (n, { status := .einstate })
  else
    match n.initial with
    | some initial =>
      ({ n.retain with state := .waitNego, negLocal := some (withOriginId localSdp initial) },
        { status := .success })
    | none =>
      ({ n with state := .waitNego, initial := some localSdp, negLocal := some localSdp },
        { status := .success })

/-- The exchange is over. -/
def clear (n : Negotiation) (initial : Option SdpSession) : Negotiation :=
  { n with
    state := .done, hasRemoteAnswer := false, initial := initial, initialTmp := none
    negLocal := none, negRemote := none }

/-- The pending offer is cancelled. -/
def cancelOffer (n : Negotiation) : Negotiation × Report :=
  match n.state with
  | .localOffer =>
    ({ n with activeLocal := n.activeLocal.map fun active => withVersionAfter active active }.clear n.initialTmp,
      { status := .success })
  | .remoteOffer => (n.clear n.initial, { status := .success })
  | _ => (n, { status := .einstate })

/-- A negotiation ends with a status. -/
def finish (n : Negotiation) (status : Status) : Negotiation × Report :=
  (clear { n with answerWasRemote := n.hasRemoteAnswer }
    (if status = .success then n.initial else n.initialTmp), { status := status })

/-- The answer to the pending offer is processed. -/
def negotiateRemoteAnswer (n : Negotiation) (remote : SdpSession) (allowAsym : Bool) :
    Negotiation × Report :=
  match n.negLocal with
  | none => n.finish .einval
  | some offer =>
    let (status, active, answer) := processAnswer offer remote allowAsym
    (if status = .success then { n with activeLocal := some active, activeRemote := some answer }
      else n).finish status

/-- The pending remote offer is answered. -/
def negotiateLocalAnswer (n : Negotiation) (remote : SdpSession) :
    Option (Negotiation × Report) :=
  match n.negLocal with
  | none =>
    some (n.finish
      (if pjmediaSdpValidate remote ≠ .success then pjmediaSdpValidate remote else .enomem))
  | some initial =>
    let (status, answer) := createAnswer n.options initial remote
    if status ≠ .success then some (n.finish status)
    else
      (n.activeLocal.or n.initial).map fun versioned =>
        finish
          { n with
            activeLocal := some (withVersionAfter answer versioned)
            activeRemote := some remote }
          .success

/-- The pending offer and answer are negotiated. -/
def negotiate (n : Negotiation) (allowAsym : Bool) : Option (Negotiation × Report) :=
  if n.state ≠ .waitNego then some (n, { status := .einstate })
  else
    match n.negRemote with
    | none => some (n, { status := .ebug })
    | some remote =>
      if n.hasRemoteAnswer then some (n.negotiateRemoteAnswer remote allowAsym)
      else n.negotiateLocalAnswer remote

/-- One call. -/
def call (n : Negotiation) : Call → Option (Negotiation × Report)
  | .modifyLocalOffer2 allowMediaChange localSdp => n.modifyLocalOffer allowMediaChange localSdp
  | .sendLocalOffer => some n.sendLocalOffer
  | .setRemoteAnswer remote => some (n.setRemoteAnswer remote)
  | .setRemoteOffer remote => some (n.setRemoteOffer remote)
  | .setLocalAnswer localSdp => some (n.setLocalAnswer localSdp)
  | .cancelOffer => some n.cancelOffer
  | .negotiate allowAsym => n.negotiate allowAsym
  | .setOptions options => some ({ n with options := options }, { status := .success })

end Negotiation

/-! ## Steps -/

namespace Negotiation

/-- The guard of a call. -/
def Accepts (n : Negotiation) : Call → Prop
  | .modifyLocalOffer2 _ localSdp => n.state = .done ∧ pjmediaSdpValidate localSdp = .success
  | .sendLocalOffer => n.state = .localOffer ∨ n.state = .done ∧ n.activeLocal.isSome
  | .setRemoteAnswer _ => n.state = .localOffer
  | .setRemoteOffer _ => n.state = .done
  | .setLocalAnswer _ => n.state = .remoteOffer ∨ n.state = .waitNego
  | .cancelOffer => n.state = .localOffer ∨ n.state = .remoteOffer
  | .negotiate _ => n.state = .waitNego ∧ n.negRemote.isSome
  | .setOptions _ => True

/-- What a call can do. -/
inductive Step (n : Negotiation) : Call → Negotiation → Report → Prop
  /-- The call fails at once. -/
  | refused {c : Call} {status : Status} (failed : status ≠ .success) (guard : ¬n.Accepts c) :
    Step n c n { status := status }
  | modified {allowMediaChange : Bool} {localSdp oldOffer : SdpSession} (idle : n.state = .done)
      (active : n.activeLocal = some oldOffer) :
    Step n (.modifyLocalOffer2 allowMediaChange localSdp)
      { n with
        state := .localOffer, initialTmp := n.initial
        initial := some (modifiedOffer allowMediaChange localSdp oldOffer)
        negLocal := some (modifiedOffer allowMediaChange localSdp oldOffer) }
      { status := .success }
  | resent {active : SdpSession} (idle : n.state = .done) (set : n.activeLocal = some active) :
    Step n .sendLocalOffer { n.retain with state := .localOffer, negLocal := some active }
      { status := .success, offer := some active }
  | repeated (pending : n.state = .localOffer) :
    Step n .sendLocalOffer n { status := .success, offer := n.negLocal }
  | remoteAnswer {remote : SdpSession} (pending : n.state = .localOffer) :
    Step n (.setRemoteAnswer remote)
      { n with state := .waitNego, hasRemoteAnswer := true, negRemote := some remote }
      { status := .success }
  | remoteOffer {remote : SdpSession} (idle : n.state = .done) :
    Step n (.setRemoteOffer remote) { n with state := .remoteOffer, negRemote := some remote }
      { status := .success }
  | localAnswer {localSdp initial : SdpSession} (pending : n.state = .remoteOffer ∨ n.state = .waitNego)
      (set : n.initial = some initial) :
    Step n (.setLocalAnswer localSdp)
      { n.retain with state := .waitNego, negLocal := some (withOriginId localSdp initial) }
      { status := .success }
  | firstAnswer {localSdp : SdpSession} (pending : n.state = .remoteOffer ∨ n.state = .waitNego)
      (unset : n.initial = none) :
    Step n (.setLocalAnswer localSdp)
      { n with state := .waitNego, initial := some localSdp, negLocal := some localSdp }
      { status := .success }
  | cancelledLocal (pending : n.state = .localOffer) :
    Step n .cancelOffer
      (clear { n with activeLocal := n.activeLocal.map fun active => withVersionAfter active active }
        n.initialTmp)
      { status := .success }
  | cancelledRemote (pending : n.state = .remoteOffer) :
    Step n .cancelOffer (n.clear n.initial) { status := .success }
  | failed {allowAsym : Bool} {status : Status} (pending : n.state = .waitNego)
      (failed : status ≠ .success) :
    Step n (.negotiate allowAsym)
      (clear { n with answerWasRemote := n.hasRemoteAnswer } n.initialTmp) { status := status }
  | processed {allowAsym : Bool} {offer remote active answer : SdpSession}
      (pending : n.state = .waitNego) (remoteAnswer : n.hasRemoteAnswer = true)
      (localSet : n.negLocal = some offer) (remoteSet : n.negRemote = some remote)
      (success : processAnswer offer remote allowAsym = (.success, active, answer)) :
    Step n (.negotiate allowAsym)
      (clear
        { n with
          answerWasRemote := n.hasRemoteAnswer, activeLocal := some active
          activeRemote := some answer }
        n.initial)
      { status := .success }
  | answered {allowAsym : Bool} {initial remote answer versioned : SdpSession}
      (pending : n.state = .waitNego) (localAnswer : n.hasRemoteAnswer = false)
      (localSet : n.negLocal = some initial) (remoteSet : n.negRemote = some remote)
      (success : createAnswer n.options initial remote = (.success, answer))
      (last : n.activeLocal.or n.initial = some versioned) :
    Step n (.negotiate allowAsym)
      (clear
        { n with
          answerWasRemote := n.hasRemoteAnswer
          activeLocal := some (withVersionAfter answer versioned), activeRemote := some remote }
        n.initial)
      { status := .success }
  | setOptions {options : Options} :
    Step n (.setOptions options) { n with options := options } { status := .success }

variable {n : Negotiation}

section
variable (pending : n.state = .waitNego)
include pending

/-- A negotiation that fails. -/
theorem Step.finish_failed {status : Status} (failed : status ≠ .success) (allowAsym : Bool) :
    n.Step (.negotiate allowAsym) (n.finish status).1 (n.finish status).2 := by
  rw [finish, if_neg failed]
  exact .failed pending failed

variable {remote : SdpSession}

theorem negotiateRemoteAnswer_step (remoteAnswer : n.hasRemoteAnswer = true)
    (remoteSet : n.negRemote = some remote) (allowAsym : Bool) :
    n.Step (.negotiate allowAsym) (n.negotiateRemoteAnswer remote allowAsym).1
      (n.negotiateRemoteAnswer remote allowAsym).2 := by
  unfold negotiateRemoteAnswer
  cases localSet : n.negLocal with
  | none => exact .finish_failed pending (by decide) allowAsym
  | some offer =>
    dsimp only
    generalize processing : processAnswer offer remote allowAsym = result
    have ⟨status, active, answer⟩ := result
    by_cases success : status = .success
    · rw [success] at processing
      simp only [success, if_true]
      exact .processed pending remoteAnswer localSet remoteSet processing
    · simp only [if_neg success]
      exact .finish_failed pending success allowAsym

theorem negotiateLocalAnswer_step {n' : Negotiation} {rep : Report}
    (localAnswer : n.hasRemoteAnswer = false) (remoteSet : n.negRemote = some remote)
    (allowAsym : Bool) (h : n.negotiateLocalAnswer remote = some (n', rep)) :
    n.Step (.negotiate allowAsym) n' rep := by
  unfold negotiateLocalAnswer at h
  cases localSet : n.negLocal with
  | none =>
    simp only [localSet, Option.some.injEq] at h
    have failed : (if pjmediaSdpValidate remote ≠ .success then pjmediaSdpValidate remote
        else .enomem) ≠ .success := by
      split
      · assumption
      · decide
    have step := Step.finish_failed pending failed allowAsym
    rw [h] at step
    exact step
  | some initial =>
    cases creating : createAnswer n.options initial remote with
    | mk status answer =>
      simp only [localSet, creating] at h
      by_cases success : status = .success
      · rw [if_neg (not_not.mpr success)] at h
        have ⟨versioned, last, result⟩ := Option.map_eq_some_iff.mp h
        rw [success] at creating
        have step : n.Step (.negotiate allowAsym) _ _ :=
          .answered pending localAnswer localSet remoteSet creating last
        cases result
        exact step
      · rw [if_pos success] at h
        have step := Step.finish_failed pending success allowAsym
        rw [Option.some.inj h] at step
        exact step

end

/-- Every call that does not dereference a null pointer is one of the steps. -/
theorem call_step {n' : Negotiation} {c : Call} {rep : Report} (h : n.call c = some (n', rep)) :
    n.Step c n' rep := by
  cases c with
  | modifyLocalOffer2 allowMediaChange localSdp =>
    rw [call, modifyLocalOffer] at h
    split at h
    · next busy =>
      cases h
      exact .refused (by decide) fun guard => busy guard.1
    · next idle =>
      split at h
      · next invalid =>
        cases h
        exact .refused invalid fun guard => invalid guard.2
      · have ⟨oldOffer, active, result⟩ := Option.map_eq_some_iff.mp h
        cases result
        exact .modified (not_not.mp idle) active
  | sendLocalOffer =>
    rw [call, sendLocalOffer] at h
    cases state : n.state with
    | remoteOffer =>
      simp only [state] at h
      cases h
      exact .refused (by decide) (by simp [Accepts, state])
    | waitNego =>
      simp only [state] at h
      cases h
      exact .refused (by decide) (by simp [Accepts, state])
    | localOffer =>
      simp only [state] at h
      cases h
      exact .repeated state
    | done =>
      cases set : n.activeLocal with
      | none =>
        simp only [state, set] at h
        cases h
        exact .refused (by decide) (by simp [Accepts, state, set])
      | some active =>
        simp only [state, set] at h
        cases h
        exact .resent state set
  | setRemoteAnswer remote =>
    rw [call, setRemoteAnswer] at h
    split at h
    · next guard =>
      cases h
      exact .refused (by decide) guard
    · next pending =>
      cases h
      exact .remoteAnswer (not_not.mp pending)
  | setRemoteOffer remote =>
    rw [call, setRemoteOffer] at h
    split at h
    · next guard =>
      cases h
      exact .refused (by decide) guard
    · next idle =>
      cases h
      exact .remoteOffer (not_not.mp idle)
  | setLocalAnswer localSdp =>
    rw [call, setLocalAnswer] at h
    split at h
    · next guard =>
      cases h
      exact .refused (by decide) (not_or.mpr guard)
    · next pending =>
      have waiting : n.state = .remoteOffer ∨ n.state = .waitNego := by
        by_contra other
        exact pending (not_or.mp other)
      cases set : n.initial with
      | none =>
        simp only [set] at h
        cases h
        exact .firstAnswer waiting set
      | some initial =>
        simp only [set] at h
        cases h
        exact .localAnswer waiting set
  | cancelOffer =>
    rw [call, cancelOffer] at h
    cases state : n.state with
    | remoteOffer =>
      simp only [state] at h
      cases h
      exact .cancelledRemote state
    | waitNego =>
      simp only [state] at h
      cases h
      exact .refused (by decide) (by simp [Accepts, state])
    | localOffer =>
      simp only [state] at h
      cases h
      exact .cancelledLocal state
    | done =>
      simp only [state] at h
      cases h
      exact .refused (by decide) (by simp [Accepts, state])
  | negotiate allowAsym =>
    rw [call, negotiate] at h
    split at h
    · next guard =>
      cases h
      exact .refused (by decide) fun accepted => guard accepted.1
    · next pending =>
      have waiting : n.state = .waitNego := not_not.mp pending
      cases set : n.negRemote with
      | none =>
        simp only [set] at h
        cases h
        exact .refused (by decide) (by simp [Accepts, set])
      | some remote =>
        simp only [set] at h
        split at h
        · next remoteAnswer =>
          have step := negotiateRemoteAnswer_step waiting remoteAnswer set allowAsym
          rw [Option.some.inj h] at step
          exact step
        · next localAnswer =>
          exact negotiateLocalAnswer_step waiting (by simpa using localAnswer) set allowAsym h
  | setOptions options =>
    cases h
    exact .setOptions

end Negotiation

end Pjmedia.SdpNeg
