import Pjproject.SdpNeg.Safety

/-!
# Exchanges that fail

An exchange starts in the state `done` with a local offer or a remote one. If it is cancelled or
its negotiation fails, the negotiator is as before, but for the version that a cancelled offer
uses up. The exception is the initial session: without one, the first local answer becomes the
initial session and the second one keeps it as the one to restore.
-/

namespace Pjmedia.SdpNeg
open Pj Sdp Heap

/-- An exchange that does not succeed. -/
inductive Exchange
  /-- A local offer is cancelled. -/
  | localCancelled (allowMediaChange : Bool) (offer : Option SdpSession)
  /-- A local offer is answered, and the negotiation fails. -/
  | localFailed (allowMediaChange : Bool) (offer : Option SdpSession) (remote : SdpSession)
    (allowAsym : Bool)
  /-- A remote offer is cancelled. -/
  | remoteCancelled (remote : SdpSession)
  /-- A remote offer is answered one or more times, and the negotiation fails. -/
  | remoteFailed (remote first : SdpSession) (more : List SdpSession) (allowAsym : Bool)
deriving DecidableEq, Repr

namespace Exchange

/-- The call that starts a local exchange: the active SDP is modified, or it is sent again. -/
def offerCall (allowMediaChange : Bool) (offer : Option SdpSession) : Call :=
  offer.elim .sendLocalOffer (.modifyLocalOffer2 allowMediaChange)

/-- The calls of an exchange but the last one. -/
def calls : Exchange → List Call
  | localCancelled allowMediaChange offer => [offerCall allowMediaChange offer]
  | localFailed allowMediaChange offer remote _ =>
    [offerCall allowMediaChange offer, .setRemoteAnswer remote]
  | remoteCancelled remote => [.setRemoteOffer remote]
  | remoteFailed remote first more _ =>
    .setRemoteOffer remote :: .setLocalAnswer first :: more.map .setLocalAnswer

/-- The call that ends an exchange. -/
def last : Exchange → Call
  | localCancelled _ _ => .cancelOffer
  | localFailed _ _ _ allowAsym => .negotiate allowAsym
  | remoteCancelled _ => .cancelOffer
  | remoteFailed _ _ _ allowAsym => .negotiate allowAsym

/-- The exchange cancels a local offer. -/
def cancelsLocal : Exchange → Bool
  | localCancelled _ _ => true
  | _ => false

/-- The exchange has more than one local answer. -/
def answersAgain : Exchange → Bool
  | remoteFailed _ _ (_ :: _) _ => true
  | _ => false

end Exchange

/-- The memory after calls that all succeed. -/
def succeeded (mem : Memory) : List Call → Option Memory
  | [] => some mem
  | c :: rest =>
    (call mem c).bind fun result =>
      if result.2.status = .success then succeeded result.1 rest else none

/-- The exchange comes to an end: its calls succeed, and the last one is a cancellation or a
negotiation that fails. -/
def Exchange.Ends (exchange : Exchange) (mem mem' : Memory) : Prop :=
  ∃ before ∈ succeeded mem exchange.calls, ∃ ret, call before exchange.last = some (mem', ret) ∧
    (exchange.last = .cancelOffer ∨ ret.status ≠ .success)

/-- The negotiator is idle, and its sessions are what they were. -/
structure Exchange.Unchanged (exchange : Exchange) (mem mem' : Memory) : Prop where
  state : mem'.neg.state = .done
  hasRemoteAnswer : mem'.neg.hasRemoteAnswer = false
  initialSdpTmp : mem'.neg.initialSdpTmp = none
  negLocalSdp : mem'.neg.negLocalSdp = none
  negRemoteSdp : mem'.neg.negRemoteSdp = none
  activeRemote : mem'.view.activeRemote = mem.view.activeRemote
  /-- A cancelled local offer increments the version. -/
  activeLocal : mem'.view.activeLocal =
    if exchange.cancelsLocal then
      mem.view.activeLocal.map fun active => withVersionAfter active active
    else mem.view.activeLocal
  initial : mem'.view.initial = mem.view.initial

namespace Negotiation

/-- The negotiation after calls that all succeed. -/
inductive Succeeds : Negotiation → List Call → Negotiation → Prop
  | nil (n : Negotiation) : Succeeds n [] n
  | cons {n next n' : Negotiation} {c : Call} {rest : List Call} {rep : Report}
      (step : n.Step c next rep) (success : rep.status = .success)
      (later : Succeeds next rest n') : Succeeds n (c :: rest) n'

/-- An exchange is pending, and the active sessions are those of the idle negotiation. -/
structure Pending (idle : Negotiation) (state : NegState) (initialTmp : Option SdpSession)
    (n : Negotiation) : Prop where
  state : n.state = state
  initialTmp : n.initialTmp = initialTmp
  activeLocal : n.activeLocal = idle.activeLocal
  activeRemote : n.activeRemote = idle.activeRemote

variable {idle n' : Negotiation}

/-- A local offer is pending, with the initial session to restore. -/
theorem Succeeds.offered (sound : idle.Sound) (done : idle.state = .done)
    {allowMediaChange : Bool} {offer : Option SdpSession} {rest : List Call}
    (h : idle.Succeeds (Exchange.offerCall allowMediaChange offer :: rest) n') :
    ∃ n, idle.Pending .localOffer idle.initial n ∧ n.Succeeds rest n' := by
  have ⟨_, tmp, _⟩ := sound.done done
  cases h with
  | @cons _ next _ _ _ rep step success later =>
    refine ⟨next, ?_, later⟩
    generalize called : Exchange.offerCall allowMediaChange offer = c at step
    cases step with
    | refused failed => exact absurd success failed
    | modified => exact ⟨rfl, rfl, rfl, rfl⟩
    | resent =>
      refine ⟨rfl, ?_, rfl, rfl⟩
      cases initial : idle.initial <;> simp [retain, initial, tmp]
    | repeated pending =>
      rw [done] at pending
      contradiction
    | _ => cases offer <;> contradiction

variable {n : Negotiation} {tmp : Option SdpSession}

variable {remote : SdpSession}

/-- A remote answer to the pending offer. -/
theorem Succeeds.remoteAnswered (h : idle.Pending .localOffer tmp n)
    (answered : n.Succeeds [.setRemoteAnswer remote] n') :
    idle.Pending .waitNego tmp n' ∧ n'.negRemote.isSome := by
  cases answered with
  | cons step success later =>
    cases later
    cases step with
    | refused failed => exact absurd success failed
    | remoteAnswer pending => exact ⟨⟨rfl, h.initialTmp, h.activeLocal, h.activeRemote⟩, rfl⟩

/-- More local answers after the first one, which set the initial session to restore. -/
theorem Succeeds.answeredAgain (h : idle.Pending .waitNego tmp n) {initial : SdpSession}
    (set : n.initial = some initial) (remote : n.negRemote.isSome) {more : List SdpSession}
    (answered : n.Succeeds (more.map .setLocalAnswer) n') :
    idle.Pending .waitNego (if more = [] then tmp else some initial) n' ∧ n'.negRemote.isSome := by
  induction more generalizing n tmp with
  | nil =>
    cases answered
    exact ⟨h, remote⟩
  | cons localSdp more ih =>
    cases answered with
    | cons step success later =>
      cases step with
      | refused failed => exact absurd success failed
      | firstAnswer pending unset =>
        rw [set] at unset
        contradiction
      | @localAnswer _ initial' pending same =>
        have again : idle.Pending .waitNego (some initial)
            { n.retain with
              state := .waitNego, negLocal := some (withOriginId localSdp initial') } :=
          ⟨rfl, by simp [retain, set], h.activeLocal, h.activeRemote⟩
        have next := ih again set remote later
        simpa using next

/-- A remote offer is pending. -/
theorem Succeeds.remoteOffered (sound : idle.Sound) (done : idle.state = .done) {rest : List Call}
    (h : idle.Succeeds (.setRemoteOffer remote :: rest) n') :
    ∃ n, idle.Pending .remoteOffer none n ∧ n.initial = idle.initial ∧ n.negRemote.isSome ∧
      n.Succeeds rest n' := by
  have ⟨_, tmp, _⟩ := sound.done done
  cases h with
  | cons step success later =>
    cases step with
    | refused failed => exact absurd success failed
    | remoteOffer =>
      exact ⟨{ idle with state := .remoteOffer, negRemote := some remote }, ⟨rfl, tmp, rfl, rfl⟩,
        rfl, rfl, later⟩

/-- The initial session that the failure of an exchange leaves. -/
def leftInitial (initial : Option SdpSession) : Exchange → Option SdpSession
  | .remoteFailed _ first (_ :: _) _ => initial.or (some first)
  | _ => initial

/-- Local answers to a remote offer. -/
theorem Succeeds.localAnswered (h : idle.Pending .remoteOffer none n)
    (same : n.initial = idle.initial) (remote : n.negRemote.isSome) {first : SdpSession}
    {more : List SdpSession}
    (answered : n.Succeeds (.setLocalAnswer first :: more.map .setLocalAnswer) n') :
    idle.Pending .waitNego (if more = [] then idle.initial else idle.initial.or (some first)) n' ∧
      n'.negRemote.isSome := by
  cases answered with
  | cons step success later =>
    cases step with
    | refused failed => exact absurd success failed
    | firstAnswer pending unset =>
      have once : idle.Pending .waitNego none
          { n with state := .waitNego, initial := some first, negLocal := some first } :=
        ⟨rfl, h.initialTmp, h.activeLocal, h.activeRemote⟩
      have again := Succeeds.answeredAgain once rfl remote later
      rw [← same, unset]
      exact again
    | @localAnswer _ initial pending set =>
      have once : idle.Pending .waitNego (some initial)
          { n.retain with
            state := .waitNego, negLocal := some (withOriginId first initial) } :=
        ⟨rfl, by simp [retain, set], h.activeLocal, h.activeRemote⟩
      have again := Succeeds.answeredAgain once set remote later
      rw [← same, set]
      simpa using again

/-- A negotiation that fails restores the temporary initial session. -/
theorem Pending.fails (h : idle.Pending .waitNego tmp n) (remote : n.negRemote.isSome)
    {allowAsym : Bool} {rep : Report} (step : n.Step (.negotiate allowAsym) n' rep)
    (failed : rep.status ≠ .success) :
    ∃ answerWasRemote, n' = clear
      { n with answerWasRemote := answerWasRemote, activeLocal := idle.activeLocal
               activeRemote := idle.activeRemote } tmp := by
  cases step with
  | refused _ guard => exact absurd ⟨h.state, remote⟩ guard
  | failed =>
    refine ⟨n.hasRemoteAnswer, ?_⟩
    rw [← h.initialTmp, ← h.activeLocal, ← h.activeRemote]
  | processed => exact absurd rfl failed
  | answered => exact absurd rfl failed

/-- What an exchange that comes to an end leaves. -/
structure Left (exchange : Exchange) (idle n : Negotiation) : Prop where
  state : n.state = .done
  hasRemoteAnswer : n.hasRemoteAnswer = false
  initialTmp : n.initialTmp = none
  negLocal : n.negLocal = none
  negRemote : n.negRemote = none
  activeRemote : n.activeRemote = idle.activeRemote
  activeLocal : n.activeLocal =
    if exchange.cancelsLocal then idle.activeLocal.map fun active => withVersionAfter active active
    else idle.activeLocal
  initial : n.initial = leftInitial idle.initial exchange

/-- An exchange that comes to an end leaves what it found, but for the initial session. -/
theorem Succeeds.left {rep : Report} (sound : idle.Sound) (done : idle.state = .done)
    {exchange : Exchange} (h : idle.Succeeds exchange.calls n)
    (step : n.Step exchange.last n' rep)
    (ends : exchange.last = .cancelOffer ∨ rep.status ≠ .success) : Left exchange idle n' := by
  cases exchange with
  | localCancelled allowMediaChange offer =>
    have ⟨next, offered, later⟩ := h.offered sound done
    cases later
    cases step with
    | refused _ guard => exact absurd (.inl offered.state) guard
    | cancelledLocal =>
      exact
        { state := rfl, hasRemoteAnswer := rfl, initialTmp := rfl, negLocal := rfl, negRemote := rfl
          activeRemote := offered.activeRemote
          activeLocal :=
            congrArg (Option.map fun active => withVersionAfter active active) offered.activeLocal
          initial := offered.initialTmp }
    | cancelledRemote pending =>
      rw [offered.state] at pending
      contradiction
  | localFailed allowMediaChange offer remote allowAsym =>
    have ⟨next, offered, later⟩ := h.offered sound done
    have ⟨pending, set⟩ := later.remoteAnswered offered
    obtain ⟨_, rfl⟩ := pending.fails set step (ends.resolve_left nofun)
    exact ⟨rfl, rfl, rfl, rfl, rfl, rfl, rfl, rfl⟩
  | remoteCancelled remote =>
    have ⟨next, offered, same, _, later⟩ := h.remoteOffered sound done
    cases later
    cases step with
    | refused _ guard => exact absurd (.inr offered.state) guard
    | cancelledLocal pending =>
      rw [offered.state] at pending
      contradiction
    | cancelledRemote pending =>
      exact ⟨rfl, rfl, rfl, rfl, rfl, offered.activeRemote, offered.activeLocal, same⟩
  | remoteFailed remote first more allowAsym =>
    have ⟨next, offered, same, set, later⟩ := h.remoteOffered sound done
    have ⟨pending, set⟩ := later.localAnswered offered same set
    obtain ⟨_, rfl⟩ := pending.fails set step (ends.resolve_left nofun)
    refine ⟨rfl, rfl, rfl, rfl, rfl, rfl, rfl, ?_⟩
    cases more <;> rfl

end Negotiation

/-- A call in memory is a step on values. -/
theorem call_view_step {mem mem' : Memory} (proper : mem.Proper) {c : Call} {ret : Returned}
    (called : call mem c = some (mem', ret)) :
    mem'.Proper ∧ ∃ rep, mem.view.Step c mem'.view rep ∧ ret.status = rep.status := by
  have ⟨n, rep, value, agree⟩ := call_agree_some proper called
  have same : mem'.view = n := agree.holds.view
  have step := Negotiation.call_step value
  rw [← same] at step
  exact ⟨agree.holds.proper, rep, step, agree.status⟩

/-- Calls in memory that all succeed do so on values. -/
theorem succeeded_view {mem after : Memory} (proper : mem.Proper) {calls : List Call}
    (h : succeeded mem calls = some after) : after.Proper ∧ mem.view.Succeeds calls after.view := by
  induction calls generalizing mem with
  | nil =>
    obtain rfl := Option.some.inj h
    exact ⟨proper, .nil _⟩
  | cons c rest ih =>
    have ⟨⟨next, ret⟩, called, later⟩ := Option.bind_eq_some_iff.mp h
    have ⟨success, later⟩ := Option.ite_none_right_eq_some.mp later
    have ⟨properNext, rep, step, status⟩ := call_view_step proper called
    have ⟨properAfter, succeeds⟩ := ih properNext later
    exact ⟨properAfter, .cons step (status.symm.trans success) succeeds⟩

/-- An exchange in memory leaves what it leaves on values. -/
theorem Exchange.Ends.left {exchange : Exchange} {mem mem' : Memory} (proper : mem.Proper)
    (sound : mem.view.Sound) (done : mem.neg.state = .done) (h : exchange.Ends mem mem') :
    mem'.Proper ∧ Negotiation.Left exchange mem.view mem'.view := by
  have ⟨before, earlier, ret, called, ends⟩ := h
  have ⟨properBefore, succeeds⟩ := succeeded_view proper earlier
  have ⟨properAfter, rep, step, status⟩ := call_view_step properBefore called
  rw [status] at ends
  exact ⟨properAfter, succeeds.left sound done step ends⟩

/-- The initial session is as before unless a first local answer became the initial session and
another one kept it. -/
theorem leftInitial_eq_iff (initial : Option SdpSession) (exchange : Exchange) :
    Negotiation.leftInitial initial exchange = initial ↔
      ¬(exchange.answersAgain = true ∧ initial = none) := by
  cases exchange with
  | remoteFailed remote first more allowAsym =>
    cases more <;> cases initial <;> simp [Negotiation.leftInitial, Exchange.answersAgain]
  | _ => simp [Negotiation.leftInitial, Exchange.answersAgain]

/-- An exchange that is cancelled or fails leaves the negotiator as it was exactly when it has
not more than one local answer or there is an initial session. -/
theorem unchanged_iff_initialSet {mem mem' : Memory} (reachable : Reachable mem)
    (done : mem.neg.state = .done) {exchange : Exchange} (ends : exchange.Ends mem mem') :
    exchange.Unchanged mem mem' ↔
      ¬(exchange.answersAgain = true ∧ mem.neg.initialSdp = none) := by
  have ⟨proper, sound⟩ := reachable.sound
  have ⟨properAfter, left⟩ := ends.left proper sound done
  have valid : Valid mem.sessions mem.neg.initialSdp := proper.valid _ (by simp [Negotiator.roots])
  have null : mem.view.initial = none ↔ mem.neg.initialSdp = none := valid.read_eq_none
  rw [← null, ← leftInitial_eq_iff, ← left.initial]
  constructor
  · exact fun unchanged => unchanged.initial
  · intro initial
    have unset : ∀ ptr ∈ mem'.neg.roots, read mem'.sessions ptr = none → ptr = none :=
      fun ptr root => (properAfter.valid ptr root).read_eq_none.mp
    exact
      { state := left.state
        hasRemoteAnswer := left.hasRemoteAnswer
        initialSdpTmp := unset _ (by simp [Negotiator.roots]) left.initialTmp
        negLocalSdp := unset _ (by simp [Negotiator.roots]) left.negLocal
        negRemoteSdp := unset _ (by simp [Negotiator.roots]) left.negRemote
        activeRemote := left.activeRemote
        activeLocal := left.activeLocal
        initial := initial }

/-- A session with one audio line and the format 8, which does not answer the format 0. -/
def pcmaSession : SdpSession := rtpSession 1 [rtpMedia audio 4000 [ofChars ['8']]]

/-- The memory after a remote offer that is cancelled. -/
def cancelledMemory : Memory := { sessions := [pcmuSession 1], neg := Negotiator.zero .done }

theorem cancelledMemory_reachable : Reachable cancelledMemory :=
  ⟨_, [.cancelOffer], @Started.remoteOffer none (pcmuSession 1) _ rfl, by decide +kernel⟩

/-- The first of two local answers is left as the initial session. -/
theorem unchanged_answeredAgain : ∃ mem mem', Reachable mem ∧ mem.neg.state = .done ∧
    (Exchange.remoteFailed (pcmuSession 1) pcmaSession [pcmaSession] false).Ends mem mem' ∧
      ¬(Exchange.remoteFailed (pcmuSession 1) pcmaSession [pcmaSession] false).Unchanged mem
        mem' := by
  refine ⟨cancelledMemory,
    { sessions := [pcmuSession 1, pcmuSession 1] ++ List.replicate 4 pcmaSession
      neg := { Negotiator.zero .done with initialSdp := some 3 } },
    cancelledMemory_reachable, rfl, ?_, ?_⟩
  · refine ⟨{
      sessions := [pcmuSession 1, pcmuSession 1] ++ List.replicate 4 pcmaSession
      neg := { Negotiator.zero .waitNego with
        initialSdp := some 5, initialSdpTmp := some 3, negLocalSdp := some 4
        negRemoteSdp := some 1 } }, by decide +kernel, { status := .noanscodec }, by decide +kernel, ?_⟩
    exact .inr (by decide)
  · intro unchanged
    have initial := unchanged.initial
    revert initial
    decide +kernel

/-- The equivalence at an exchange with one local answer. -/
theorem unchanged_iff_initialSet_answered : ∃ mem mem',
    ((Exchange.remoteFailed (pcmuSession 1) pcmaSession [] false).Unchanged mem mem' ↔
      ¬(false = true ∧ mem.neg.initialSdp = none)) := by
  refine ⟨cancelledMemory,
    { sessions := [pcmuSession 1, pcmuSession 1, pcmaSession, pcmaSession]
      neg := Negotiator.zero .done }, ?_⟩
  refine unchanged_iff_initialSet cancelledMemory_reachable rfl ⟨{
    sessions := [pcmuSession 1, pcmuSession 1, pcmaSession, pcmaSession]
    neg := { Negotiator.zero .waitNego with
      initialSdp := some 3, negLocalSdp := some 2, negRemoteSdp := some 1 } },
    by decide +kernel, { status := .noanscodec }, by decide +kernel, .inr (by decide)⟩

end Pjmedia.SdpNeg
