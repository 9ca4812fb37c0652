import Pjproject.SdpNeg.Negotiation

/-!
# The negotiator in memory refines the one on values

As long as the pointers of the negotiator are valid and apart, what a call writes in place is
seen through no other pointer, and the call does what it does on the values. Every call keeps
the pointers so.
-/

namespace Pjmedia.SdpNeg
open Option Pj Sdp Heap

/-- The pointers of a negotiator. -/
def Negotiator.roots (neg : Negotiator) : List Ptr :=
  [neg.initialSdp, neg.initialSdpTmp, neg.activeLocalSdp, neg.activeRemoteSdp, neg.negLocalSdp,
    neg.negRemoteSdp]

/-- The pointers of the negotiator are valid and apart. -/
def Memory.Proper (mem : Memory) : Prop := Separate mem.sessions mem.neg.roots

/-- The negotiator with what its pointers point to. -/
def Memory.view (mem : Memory) : Negotiation :=
  { state := mem.neg.state
    options := mem.neg.options
    hasRemoteAnswer := mem.neg.hasRemoteAnswer
    answerWasRemote := mem.neg.answerWasRemote
    initial := read mem.sessions mem.neg.initialSdp
    initialTmp := read mem.sessions mem.neg.initialSdpTmp
    activeLocal := read mem.sessions mem.neg.activeLocalSdp
    activeRemote := read mem.sessions mem.neg.activeRemoteSdp
    negLocal := read mem.sessions mem.neg.negLocalSdp
    negRemote := read mem.sessions mem.neg.negRemoteSdp }

/-- The memory is proper and holds the sessions of the negotiation. -/
structure Memory.Holds (mem : Memory) (n : Negotiation) : Prop where
  proper : mem.Proper
  view : mem.view = n

/-- A call in memory and the call on values return the same. -/
structure Agree (result : Memory × Returned) (report : Negotiation × Report) : Prop where
  holds : result.1.Holds report.1
  status : result.2.status = report.2.status
  offer : read result.1.sessions result.2.offer = report.2.offer

variable {mem : Memory}

/-- A memory is proper if its pointers are valid and each one is apart from the later ones. -/
theorem Memory.proper_iff :
    mem.Proper ↔
      (∀ ptr ∈ mem.neg.roots, Valid mem.sessions ptr) ∧ mem.neg.roots.Pairwise Apart :=
  ⟨fun h => ⟨h.valid, h.apart⟩, fun ⟨valid, apart⟩ => ⟨valid, apart⟩⟩

section
variable (h : mem.Proper)
include h

/-- A call that fails at once. -/
theorem Agree.refused (status : Status) :
    Agree (mem, { status := status }) (mem.view, { status := status }) :=
  { holds := ⟨h, rfl⟩, status := rfl, offer := rfl }

/-- A new local session of the exchange. -/
theorem Memory.Proper.newLocal (sdp : SdpSession) (state : NegState) :
    Memory.Holds
      { sessions := alloc mem.sessions sdp
        neg := { mem.neg with state := state, negLocalSdp := fresh mem.sessions } }
      { mem.view with state := state, negLocal := some sdp } := by
  rw [Memory.proper_iff, Negotiator.roots] at h
  constructor
  · rw [Memory.proper_iff, Negotiator.roots]
    simp_all
  · simp_all [Memory.view]

/-- A new remote session of the exchange. -/
theorem Memory.Proper.newRemote (sdp : SdpSession) (state : NegState) (hasRemoteAnswer : Bool) :
    Memory.Holds
      { sessions := alloc mem.sessions sdp
        neg := { mem.neg with
          state := state, hasRemoteAnswer := hasRemoteAnswer
          negRemoteSdp := fresh mem.sessions } }
      { mem.view with
        state := state, hasRemoteAnswer := hasRemoteAnswer, negRemote := some sdp } := by
  rw [Memory.proper_iff, Negotiator.roots] at h
  constructor
  · rw [Memory.proper_iff, Negotiator.roots]
    simp_all
  · simp_all [Memory.view]

/-- A new initial session; the old one may be kept. -/
theorem Memory.Proper.newInitial (sdp : SdpSession) (keep : Bool) :
    Memory.Holds
      { sessions := alloc mem.sessions sdp
        neg := { mem.neg with
          initialSdpTmp := if keep then mem.neg.initialSdp else mem.neg.initialSdpTmp
          initialSdp := fresh mem.sessions } }
      { mem.view with
        initialTmp := if keep then mem.view.initial else mem.view.initialTmp
        initial := some sdp } := by
  rw [Memory.proper_iff, Negotiator.roots] at h
  constructor
  · rw [Memory.proper_iff, Negotiator.roots]
    cases keep <;> simp_all
  · cases keep <;> simp_all [Memory.view]

/-- The end of an exchange, after which the initial session is one of two. -/
theorem Memory.Proper.clear (keep : Bool) :
    Memory.Holds
      { mem with
        neg := mem.neg.clear (if keep then mem.neg.initialSdp else mem.neg.initialSdpTmp) }
      (mem.view.clear (if keep then mem.view.initial else mem.view.initialTmp)) := by
  rw [Memory.proper_iff, Negotiator.roots] at h
  constructor
  · rw [Memory.proper_iff, Negotiator.roots, Negotiator.clear]
    cases keep <;> simp_all
  · cases keep <;> rfl

/-- The active local session is changed in place. -/
theorem Memory.Proper.writeActive {active : SdpSession}
    (found : read mem.sessions mem.neg.activeLocalSdp = some active) (sdp : SdpSession) :
    Memory.Holds { mem with sessions := write mem.sessions mem.neg.activeLocalSdp sdp }
      { mem.view with activeLocal := some sdp } := by
  have nonnull := ne_none_of_read found
  refine ⟨h.write _ _, ?_⟩
  rw [Memory.proper_iff, Negotiator.roots] at h
  simp_all [Memory.view, Valid.read_write, Apart.read_write, Apart.symm]

/-- The local session of the exchange is changed in place. -/
theorem Memory.Proper.writeLocal {offer : SdpSession}
    (found : read mem.sessions mem.neg.negLocalSdp = some offer) (sdp : SdpSession) :
    Memory.Holds { mem with sessions := write mem.sessions mem.neg.negLocalSdp sdp }
      { mem.view with negLocal := some sdp } := by
  have nonnull := ne_none_of_read found
  refine ⟨h.write _ _, ?_⟩
  rw [Memory.proper_iff, Negotiator.roots] at h
  simp_all [Memory.view, Valid.read_write, Apart.read_write, Apart.symm]

/-- The remote session of the exchange is changed in place. -/
theorem Memory.Proper.writeRemote {remote : SdpSession}
    (found : read mem.sessions mem.neg.negRemoteSdp = some remote) (sdp : SdpSession) :
    Memory.Holds { mem with sessions := write mem.sessions mem.neg.negRemoteSdp sdp }
      { mem.view with negRemote := some sdp } := by
  have nonnull := ne_none_of_read found
  refine ⟨h.write _ _, ?_⟩
  rw [Memory.proper_iff, Negotiator.roots] at h
  simp_all [Memory.view, Valid.read_write, Apart.read_write, Apart.symm]

/-- A new active local session. -/
theorem Memory.Proper.newActive (sdp : SdpSession) :
    Memory.Holds
      { sessions := alloc mem.sessions sdp
        neg := { mem.neg with activeLocalSdp := fresh mem.sessions } }
      { mem.view with activeLocal := some sdp } := by
  rw [Memory.proper_iff, Negotiator.roots] at h
  constructor
  · rw [Memory.proper_iff, Negotiator.roots]
    simp_all
  · simp_all [Memory.view]

theorem modifyLocalOffer2_agree (allowMediaChange : Bool) (localSdp : SdpSession) :
    Option.Rel Agree (modifyLocalOffer2 mem allowMediaChange localSdp)
      (mem.view.modifyLocalOffer allowMediaChange localSdp) := by
  unfold modifyLocalOffer2 Negotiation.modifyLocalOffer
  rw [show mem.view.state = mem.neg.state from rfl]
  split
  · exact .some (.refused h _)
  · split
    · exact .some (.refused h _)
    · change Option.Rel Agree (Option.map _ (read mem.sessions mem.neg.activeLocalSdp))
        (Option.map _ (read mem.sessions mem.neg.activeLocalSdp))
      cases read mem.sessions mem.neg.activeLocalSdp with
      | none => exact .none
      | some oldOffer =>
        have initial := h.newInitial (modifiedOffer allowMediaChange localSdp oldOffer) true
        have offer := initial.proper.newLocal (modifiedOffer allowMediaChange localSdp oldOffer)
          .localOffer
        rw [initial.view] at offer
        exact .some { holds := offer, status := rfl, offer := rfl }

theorem retainInitial_holds : (retainInitial mem).Holds mem.view.retain := by
  cases found : read mem.sessions mem.neg.initialSdp with
  | none =>
    have kept : mem.view.retain = mem.view := by simp [Negotiation.retain, Memory.view, found]
    simp only [retainInitial, found, kept]
    exact ⟨h, rfl⟩
  | some sdp =>
    have retained := h.newInitial sdp true
    have kept : { mem.view with initialTmp := mem.view.initial, initial := some sdp } =
        mem.view.retain := by simp [Negotiation.retain, Memory.view, found]
    simp only [retainInitial, found]
    rw [← kept]
    exact retained

theorem sendLocalOffer_agree : Agree (sendLocalOffer mem) mem.view.sendLocalOffer := by
  unfold sendLocalOffer Negotiation.sendLocalOffer
  rw [show mem.view.state = mem.neg.state from rfl]
  cases state : mem.neg.state with
  | remoteOffer => exact .refused h _
  | waitNego => exact .refused h _
  | localOffer => exact { holds := ⟨h, rfl⟩, status := rfl, offer := rfl }
  | done =>
    cases found : read mem.sessions mem.neg.activeLocalSdp with
    | none =>
      simp only [show mem.view.activeLocal = none from found]
      exact .refused h _
    | some active =>
      have holds := (retainInitial_holds h).proper.newLocal active .localOffer
      rw [(retainInitial_holds h).view] at holds
      have same : (retainInitial mem).neg.activeLocalSdp = mem.neg.activeLocalSdp := by
        unfold retainInitial
        split <;> rfl
      have offered := congrArg Negotiation.activeLocal holds.view
      simp only [Memory.view, same] at offered
      simp only [show mem.view.activeLocal = some active from found]
      exact { holds := holds, status := rfl, offer := offered.trans found }

theorem setRemoteAnswer_agree (remote : SdpSession) :
    Agree (setRemoteAnswer mem remote) (mem.view.setRemoteAnswer remote) := by
  unfold setRemoteAnswer Negotiation.setRemoteAnswer
  rw [show mem.view.state = mem.neg.state from rfl]
  split
  · exact .refused h _
  · exact { holds := h.newRemote remote .waitNego true, status := rfl, offer := rfl }

theorem setRemoteOffer_agree (remote : SdpSession) :
    Agree (setRemoteOffer mem remote) (mem.view.setRemoteOffer remote) := by
  unfold setRemoteOffer Negotiation.setRemoteOffer
  rw [show mem.view.state = mem.neg.state from rfl]
  split
  · exact .refused h _
  · exact
      { holds := h.newRemote remote .remoteOffer mem.neg.hasRemoteAnswer, status := rfl
        offer := rfl }

theorem cancelOffer_agree : Agree (cancelOffer mem) mem.view.cancelOffer := by
  unfold cancelOffer Negotiation.cancelOffer
  rw [show mem.view.state = mem.neg.state from rfl]
  cases state : mem.neg.state with
  | remoteOffer => exact { holds := h.clear true, status := rfl, offer := rfl }
  | waitNego => exact .refused h _
  | done => exact .refused h _
  | localOffer =>
    cases found : read mem.sessions mem.neg.activeLocalSdp with
    | none =>
      have unset : mem.view.activeLocal = none := found
      have same : (mem.view.activeLocal.map fun active => withVersionAfter active active) =
          mem.view.activeLocal := by
        rw [unset]
        rfl
      simp only [same]
      exact { holds := h.clear false, status := rfl, offer := rfl }
    | some active =>
      have written := h.writeActive found (withVersionAfter active active)
      have cleared := written.proper.clear false
      rw [written.view] at cleared
      have set : mem.view.activeLocal = some active := found
      simp only [set, map_some]
      exact { holds := cleared, status := rfl, offer := rfl }

end

theorem finishNego_agree {n : Negotiation} (h : mem.Holds n) (status : Status) :
    Agree (finishNego mem status) (n.finish status) := by
  obtain ⟨proper, rfl⟩ := h
  have cleared := @Memory.Proper.clear
    { mem with neg := { mem.neg with answerWasRemote := mem.neg.hasRemoteAnswer } } proper
    (decide (status = .success))
  simp only [decide_eq_true_eq] at cleared
  exact { holds := cleared, status := rfl, offer := rfl }

section
variable (h : mem.Proper)
include h

theorem setLocalAnswer_agree (localSdp : SdpSession) :
    Agree (setLocalAnswer mem localSdp) (mem.view.setLocalAnswer localSdp) := by
  unfold setLocalAnswer Negotiation.setLocalAnswer
  rw [show mem.view.state = mem.neg.state from rfl]
  split
  · exact .refused h _
  · have cloned := h.newLocal localSdp .waitNego
    have same : read (alloc mem.sessions localSdp) mem.neg.initialSdp = mem.view.initial :=
      congrArg Negotiation.initial cloned.view
    cases found : mem.view.initial with
    | none =>
      simp only [same, found]
      have initial := cloned.proper.newInitial localSdp false
      rw [cloned.view] at initial
      exact { holds := initial, status := rfl, offer := rfl }
    | some initial =>
      simp only [same, found]
      have retained := retainInitial_holds cloned.proper
      have set := congrArg Negotiation.negLocal (retained.view.trans (by rw [cloned.view]))
      have written := retained.proper.writeLocal (set.trans rfl) (withOriginId localSdp initial)
      rw [retained.view, cloned.view] at written
      exact { holds := written, status := rfl, offer := rfl }

/-- The sessions of the exchange become the active ones. -/
theorem finishNego_promoted {active : Ptr}
    (promoted : active = mem.neg.activeLocalSdp ∨ active = mem.neg.negLocalSdp) :
    Agree
      (finishNego
        { mem with
          neg := { mem.neg with
            activeLocalSdp := active, activeRemoteSdp := mem.neg.negRemoteSdp } }
        .success)
      (Negotiation.finish
        { mem.view with
          activeLocal := read mem.sessions active, activeRemote := mem.view.negRemote }
        .success) := by
  refine { holds := ⟨?_, rfl⟩, status := rfl, offer := rfl }
  rw [Memory.proper_iff, Negotiator.roots] at h ⊢
  simp only [finishNego, Negotiator.clear]
  rcases promoted with rfl | rfl <;> simp_all

section
variable {remote : SdpSession} (set : read mem.sessions mem.neg.negRemoteSdp = some remote)
include set

theorem negotiateRemoteAnswer_agree (allowAsym : Bool) :
    Agree (negotiateRemoteAnswer mem remote allowAsym)
      (mem.view.negotiateRemoteAnswer remote allowAsym) := by
  unfold negotiateRemoteAnswer Negotiation.negotiateRemoteAnswer
  cases found : read mem.sessions mem.neg.negLocalSdp with
  | none =>
    simp only [show mem.view.negLocal = none from found]
    exact finishNego_agree ⟨h, rfl⟩ _
  | some offer =>
    simp only [show mem.view.negLocal = some offer from found]
    have ⟨status, active, answer⟩ := processAnswer offer remote allowAsym
    have changed := h.writeLocal found active
    have stillSet := (congrArg Negotiation.negRemote changed.view).trans set
    have changed' := changed.proper.writeRemote stillSet answer
    rw [changed.view] at changed'
    by_cases success : status = .success
    · simp only [success, if_true]
      have promoted := finishNego_promoted changed'.proper (Or.inr rfl)
      have offered := congrArg Negotiation.negLocal changed'.view
      rw [changed'.view] at promoted
      rw [show read _ _ = some active from offered] at promoted
      exact promoted
    · have ended := finishNego_agree changed' status
      simp only [Negotiation.finish, if_neg success] at ended ⊢
      exact ended

theorem negotiateLocalAnswer_agree :
    Option.Rel Agree (negotiateLocalAnswer mem remote)
      (mem.view.negotiateLocalAnswer remote) := by
  unfold negotiateLocalAnswer Negotiation.negotiateLocalAnswer
  cases found : read mem.sessions mem.neg.negLocalSdp with
  | none =>
    simp only [show mem.view.negLocal = none from found]
    exact .some (finishNego_agree ⟨h, rfl⟩ _)
  | some initial =>
    simp only [show mem.view.negLocal = some initial from found]
    have ⟨status, answer⟩ := createAnswer mem.neg.options initial remote
    by_cases success : status = .success
    · simp only [success, ne_eq, not_true_eq_false, if_false]
      change Option.Rel Agree (Option.map _ (mem.view.activeLocal.or mem.view.initial))
        (Option.map _ (mem.view.activeLocal.or mem.view.initial))
      cases mem.view.activeLocal.or mem.view.initial with
      | none => exact .none
      | some versioned =>
        have added := h.newActive (withVersionAfter answer versioned)
        have promoted := finishNego_promoted added.proper (Or.inl rfl)
        rw [added.view, show mem.view.negRemote = some remote from set] at promoted
        rw [read_alloc_fresh] at promoted
        exact .some promoted
    · simp only [ne_eq, success, not_false_eq_true, if_true]
      exact .some (finishNego_agree ⟨h, rfl⟩ _)

end

theorem negotiate_agree (allowAsym : Bool) :
    Option.Rel Agree (negotiate mem allowAsym) (mem.view.negotiate allowAsym) := by
  unfold negotiate Negotiation.negotiate
  rw [show mem.view.state = mem.neg.state from rfl]
  split
  · exact .some (.refused h _)
  · cases set : read mem.sessions mem.neg.negRemoteSdp with
    | none =>
      simp only [show mem.view.negRemote = none from set]
      exact .some (.refused h _)
    | some remote =>
      simp only [show mem.view.negRemote = some remote from set]
      rw [show mem.view.hasRemoteAnswer = mem.neg.hasRemoteAnswer from rfl]
      split
      · exact .some (negotiateRemoteAnswer_agree h set allowAsym)
      · exact negotiateLocalAnswer_agree h set

/-- A call in memory refines the call on values. -/
theorem call_agree (c : Call) : Option.Rel Agree (call mem c) (mem.view.call c) := by
  cases c with
  | modifyLocalOffer2 allowMediaChange localSdp =>
    exact modifyLocalOffer2_agree h allowMediaChange localSdp
  | sendLocalOffer => exact .some (sendLocalOffer_agree h)
  | setRemoteAnswer remote => exact .some (setRemoteAnswer_agree h remote)
  | setRemoteOffer remote => exact .some (setRemoteOffer_agree h remote)
  | setLocalAnswer localSdp => exact .some (setLocalAnswer_agree h localSdp)
  | cancelOffer => exact .some (cancelOffer_agree h)
  | negotiate allowAsym => exact negotiate_agree h allowAsym
  | setOptions options => exact .some { holds := ⟨h, rfl⟩, status := rfl, offer := rfl }

/-- A call dereferences a null pointer in memory where it misses a session on values. -/
theorem call_none_iff (c : Call) : call mem c = none ↔ mem.view.call c = none := by
  have agree := call_agree h c
  cases result : call mem c <;> cases value : mem.view.call c <;> rw [result, value] at agree <;>
    simp_all

/-- What a call returns in memory is what the call on values returns. -/
theorem call_agree_some {mem' : Memory} {c : Call} {ret : Returned}
    (called : call mem c = some (mem', ret)) :
    ∃ n rep, mem.view.call c = some (n, rep) ∧ Agree (mem', ret) (n, rep) := by
  have agree := call_agree h c
  rw [called] at agree
  cases value : mem.view.call c with
  | none =>
    rw [value] at agree
    cases agree
  | some value' =>
    rw [value] at agree
    cases agree with
    | some agree => exact ⟨value'.1, value'.2, rfl, agree⟩

end

/-! ## Runs -/

/-- The memory of a negotiator that has been created. -/
inductive Started : Memory → Prop
  | localOffer {localSdp : SdpSession} {mem : Memory} (created : createWLocalOffer localSdp = .ok mem) :
    Started mem
  | remoteOffer {initial : Option SdpSession} {remote : SdpSession} {mem : Memory}
      (created : createWRemoteOffer initial remote = .ok mem) : Started mem

/-- The next call of a run. A null dereference ends the run. -/
def exec (mem : Option Memory) (c : Call) : Option Memory :=
  mem.bind fun mem => (call mem c).map Prod.fst

/-- A created negotiator holds the start of a negotiation. -/
theorem Started.holds (h : Started mem) : ∃ n, n.Start ∧ mem.Holds n := by
  cases h with
  | @localOffer localSdp _ created =>
    unfold createWLocalOffer at created
    split at created
    · contradiction
    · next valid =>
      obtain rfl := Except.ok.inj created
      refine ⟨_, .localOffer (not_not.mp valid), ?_, rfl⟩
      simp [Memory.proper_iff, Negotiator.roots, Negotiator.zero, Valid, Apart]
  | @remoteOffer initial remote _ created =>
    unfold createWRemoteOffer at created
    split at created
    · contradiction
    · cases initial with
      | none =>
        obtain rfl := Except.ok.inj created
        refine ⟨_, .remoteOffer remote, ?_, rfl⟩
        simp [Memory.proper_iff, Negotiator.roots, Negotiator.zero, Valid, Apart]
      | some initial =>
        simp only at created
        split at created
        · contradiction
        · next valid =>
          obtain rfl := Except.ok.inj created
          refine ⟨_, .answered remote (not_not.mp valid), ?_, rfl⟩
          simp [Memory.proper_iff, Negotiator.roots, Negotiator.zero, Valid, Apart]

/-- The memory, if it is still there, is proper, and the negotiation it holds satisfies an
invariant. -/
def Keeps (inv : Negotiation → Prop) (mem : Option Memory) : Prop :=
  ∀ held ∈ mem, held.Proper ∧ inv held.view

/-- An invariant kept by the calls on values is kept by the calls in memory. -/
theorem Keeps.exec {inv : Negotiation → Prop} {mem : Option Memory} {c : Call} (h : Keeps inv mem)
    (kept : ∀ held ∈ mem, ∀ n rep, held.view.call c = some (n, rep) → inv held.view → inv n) :
    Keeps inv (exec mem c) := by
  intro held' member
  obtain ⟨held, set, result, called, rfl⟩ : ∃ held, mem = some held ∧
      ∃ result, call held c = some result ∧ result.1 = held' := by
    simpa [SdpNeg.exec, bind_eq_some_iff, map_eq_some_iff] using member
  have ⟨proper, holds⟩ := h held set
  have ⟨n, rep, value, agree⟩ := call_agree_some proper called
  refine ⟨agree.holds.proper, ?_⟩
  rw [agree.holds.view]
  exact kept held set n rep value holds

/-- The memory of a negotiator that a run has come to. -/
def Reachable (mem : Memory) : Prop :=
  ∃ (start : Memory) (calls : List Call), Started start ∧ calls.foldl exec (some start) = some mem

/-- An invariant of every negotiation holds in every memory that a run has come to. -/
theorem Reachable.keeps {inv : Negotiation → Prop} (first : ∀ n : Negotiation, n.Start → inv n)
    (kept : ∀ n c n' rep, n.call c = some (n', rep) → inv n → inv n') (h : Reachable mem) :
    mem.Proper ∧ inv mem.view := by
  have ⟨start, calls, started, reached⟩ := h
  have keeps : Keeps inv (some start) := by
    intro held same
    obtain rfl := some.inj same
    have ⟨n, starts, holds⟩ := started.holds
    rw [holds.view]
    exact ⟨holds.proper, first n starts⟩
  have last : Keeps inv (calls.foldl exec (some start)) :=
    List.foldlRecOn calls exec keeps fun mem keeps c _ =>
      keeps.exec fun held _ n rep called holds => kept held.view c n rep called holds
  exact last mem reached

end Pjmedia.SdpNeg
