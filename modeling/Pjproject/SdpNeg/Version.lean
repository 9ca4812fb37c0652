import Pjproject.SdpNeg.Safety

/-!
# Origin versions

A run is extended with the versions of the offers and successful answers that the negotiator has
produced. The version of a modified offer follows the active one, which a cancelled offer
increments to stay ahead. A negotiation that fails does not, and so the next offer repeats the
version of the failed one.
-/

namespace Pjmedia.SdpNeg
open Option List Pj Sdp Heap

/-- The version of an offer or answer, and whether it is a modified offer. -/
structure Produced where
  version : Nat
  modified : Bool
deriving DecidableEq, Repr

/-- A later version, if it is the one of a modified offer, is greater than an earlier one. -/
def Newer (earlier later : Produced) : Prop := later.modified → earlier.version < later.version

/-- The offer or answer that a call has produced, with what it returns: a modified offer, an
offer that is sent, or the session that a negotiation has made active. -/
def producedBy (n : Negotiation) (rep : Report) (c : Call) : Option Produced :=
  if rep.status ≠ .success then none
  else
    match c with
    | .modifyLocalOffer2 _ _ =>
      n.negLocal.map fun offer => { version := offer.origin.version, modified := true }
    | .sendLocalOffer =>
      rep.offer.map fun offer => { version := offer.origin.version, modified := false }
    | .negotiate _ =>
      n.activeLocal.map fun active => { version := active.origin.version, modified := false }
    | _ => none

/-- A negotiator with what it has produced. -/
structure History where
  mem : Option Memory
  produced : List Produced
deriving DecidableEq, Repr

/-- The offer that a negotiator is created with. -/
def firstProduced (n : Negotiation) : List Produced :=
  match n.state with
  | .localOffer => (n.negLocal.map fun offer =>
      { version := offer.origin.version, modified := false }).toList
  | _ => []

/-- A negotiator that has been created. -/
def History.start (mem : Memory) : History :=
  { mem := some mem, produced := firstProduced mem.view }

/-- The next call of a run. -/
def History.exec (h : History) (c : Call) : History :=
  match h.mem.bind fun mem => call mem c with
  | none => { h with mem := none }
  | some (mem, ret) =>
    { mem := some mem
      produced := h.produced ++
        (producedBy mem.view
          { status := ret.status, offer := read mem.sessions ret.offer } c).toList }

/-- A version is taken from an offer that is ahead of the active SDP, and the offer is lost: a
negotiation of a local offer fails, unless the offer is the active SDP sent again; a local offer
is cancelled before there is an active SDP; or a pending local offer is replaced by a session
with a lower version. -/
def Negotiation.LosesVersion (n : Negotiation) : Call → Prop
  | .negotiate allowAsym =>
    n.state = .waitNego ∧ n.hasRemoteAnswer = true ∧
      (n.negotiate allowAsym).any (fun result => result.2.status ≠ .success) = true ∧
        ∃ offer ∈ n.negLocal, ∀ active ∈ n.activeLocal, active.origin.version < offer.origin.version
  | .cancelOffer => n.state = .localOffer ∧ n.activeLocal = none
  | .setLocalAnswer localSdp =>
    n.state = .waitNego ∧ n.hasRemoteAnswer = true ∧
      ∃ offer ∈ n.negLocal, localSdp.origin.version < offer.origin.version
  | _ => False

instance (n : Negotiation) : ∀ c : Call, Decidable (n.LosesVersion c)
  | .negotiate _ => inferInstanceAs (Decidable (_ ∧ _ ∧ _ ∧ ∃ offer ∈ n.negLocal, _))
  | .cancelOffer => inferInstanceAs (Decidable (_ ∧ _))
  | .setLocalAnswer _ => inferInstanceAs (Decidable (_ ∧ _ ∧ ∃ offer ∈ n.negLocal, _))
  | .modifyLocalOffer2 _ _ => .isFalse id
  | .sendLocalOffer => .isFalse id
  | .setRemoteAnswer _ => .isFalse id
  | .setRemoteOffer _ => .isFalse id
  | .setOptions _ => .isFalse id

/-- What is produced is covered by the active SDP, or by the pending local offer. -/
structure Negotiation.Covers (n : Negotiation) (produced : List Produced) : Prop where
  sound : n.Sound
  settled : n.hasRemoteAnswer = false → n.state ≠ .localOffer →
    ∀ one ∈ produced, ∃ active ∈ n.activeLocal, one.version ≤ active.origin.version
  pending : n.state = .localOffer ∨ n.hasRemoteAnswer = true →
    ∃ offer ∈ n.negLocal, ∀ one ∈ produced, one.version ≤ offer.origin.version
  /-- A pending offer is at most one version ahead. -/
  next : n.state = .localOffer → ∀ offer ∈ n.negLocal, ∀ active ∈ n.activeLocal,
    offer.origin.version ≤ active.origin.version + 1
  newer : produced.Pairwise Newer

namespace Negotiation

variable {produced : List Produced}

/-- One more version, which is not less than the earlier ones. -/
theorem newer_append (newer : produced.Pairwise Newer) {last : Produced}
    (after : ∀ one ∈ produced, Newer one last) : (produced ++ [last]).Pairwise Newer := by
  rw [pairwise_append]
  refine ⟨newer, pairwise_singleton _ _, ?_⟩
  intro one member other same
  obtain rfl := mem_singleton.mp same
  exact after one member

/-- An offer that is not modified may repeat a version. -/
theorem newer_unmodified (one : Produced) (version : Nat) :
    Newer one { version := version, modified := false } := nofun

/-- A bound of the earlier versions and of the last one. -/
theorem le_append {last : Option Produced} {version : Nat}
    (older : ∀ one ∈ produced, one.version ≤ version)
    (newest : ∀ one ∈ last, one.version ≤ version) :
    ∀ one ∈ produced ++ last.toList, one.version ≤ version := by
  intro one member
  rcases mem_append.mp member with member | member
  · exact older one member
  · exact newest one (mem_toList.mp member)

variable {n : Negotiation}

/-- The end of an exchange covers what the active SDP covers. -/
theorem Covers.clear {initial : Option SdpSession} (set : n.activeLocal.isSome → initial.isSome)
    (newer : produced.Pairwise Newer)
    (settled : ∀ one ∈ produced, ∃ active ∈ n.activeLocal, one.version ≤ active.origin.version) :
    (n.clear initial).Covers produced where
  sound := Sound.clear set
  settled _ _ := settled
  pending waits := by simp [Negotiation.clear] at waits
  next := nofun
  newer := newer

/-- A session that replaces a pending local offer covers what the offer does. -/
theorem Covers.replaced (h : n.Covers produced) {localSdp : SdpSession}
    (keeps : ¬n.LosesVersion (.setLocalAnswer localSdp))
    (pending : n.state = .remoteOffer ∨ n.state = .waitNego) (answered : n.hasRemoteAnswer = true)
    (sdp : SdpSession) (version : sdp.origin.version = localSdp.origin.version) :
    ∃ offer ∈ some sdp, ∀ one ∈ produced, one.version ≤ offer.origin.version := by
  obtain ⟨offer, set, older⟩ := h.pending (.inr answered)
  have waiting : n.state = .waitNego := by
    rcases pending with pending | pending
    · rw [(h.sound.remoteOffer pending).1] at answered
      contradiction
    · exact pending
  have covered : offer.origin.version ≤ sdp.origin.version := by
    by_contra lower
    exact keeps ⟨waiting, answered, offer, set, by omega⟩
  exact ⟨sdp, rfl, fun one member => Nat.le_trans (older one member) covered⟩

theorem Covers.step {n' : Negotiation} {c : Call} {rep : Report} (h : n.Covers produced)
    (called : n.call c = some (n', rep)) (keeps : ¬n.LosesVersion c) :
    n'.Covers (produced ++ (producedBy n' rep c).toList) := by
  have step := call_step called
  have sound := h.sound.step step
  cases step with
  | refused failed => simpa [producedBy, failed] using h
  | setOptions =>
    simp only [producedBy, ne_eq, not_true_eq_false, if_false, toList_none, append_nil]
    exact { h with sound := sound }
  | @modified allowMediaChange localSdp oldOffer idle active =>
    have older : ∀ one ∈ produced, one.version ≤ oldOffer.origin.version := by
      simpa [active] using h.settled (h.sound.done idle).1 (by simp [idle])
    refine { sound := sound, settled := by simp, pending := ?_, next := ?_, newer := ?_ }
    · refine fun _ => ⟨modifiedOffer allowMediaChange localSdp oldOffer, rfl, ?_⟩
      exact le_append (fun one member => Nat.le_succ_of_le (older one member))
        (by simp [producedBy])
    · simp [active, modifiedOffer]
    · exact newer_append h.newer fun one member _ => Nat.lt_succ_of_le (older one member)
  | @resent active idle set =>
    have older : ∀ one ∈ produced, one.version ≤ active.origin.version := by
      simpa [set] using h.settled (h.sound.done idle).1 (by simp [idle])
    refine { sound := sound, settled := by simp, pending := ?_, next := ?_, newer := ?_ }
    · exact fun _ => ⟨active, rfl, le_append older (by simp [producedBy])⟩
    · simp [retain, set]
    · exact newer_append h.newer fun one _ => newer_unmodified one _
  | repeated pending =>
    obtain ⟨offer, set, older⟩ := h.pending (.inl pending)
    rw [mem_def] at set
    refine { h with sound := sound, settled := ?_, pending := ?_, newer := ?_ }
    · exact fun _ other => absurd pending other
    · exact fun _ => ⟨offer, set, le_append older (by simp [producedBy, set])⟩
    · rw [set]
      exact newer_append h.newer fun one _ => newer_unmodified one _
  | remoteAnswer pending =>
    simp only [producedBy, ne_eq, not_true_eq_false, if_false, toList_none, append_nil]
    exact { sound := sound, settled := by simp, pending := fun _ => h.pending (.inl pending)
            next := by simp, newer := h.newer }
  | remoteOffer idle =>
    simp only [producedBy, ne_eq, not_true_eq_false, if_false, toList_none, append_nil]
    have unanswered := (h.sound.done idle).1
    exact { sound := sound, settled := fun _ _ => h.settled unanswered (by simp [idle])
            pending := by simp [unanswered], next := by simp, newer := h.newer }
  | @localAnswer localSdp initial pending set =>
    simp only [producedBy, ne_eq, not_true_eq_false, if_false, toList_none, append_nil]
    refine { sound := sound, settled := fun unanswered _ => h.settled unanswered ?_,
             pending := ?_, next := by simp, newer := h.newer }
    · rcases pending with pending | pending <;> simp [pending]
    · exact fun waits => h.replaced keeps pending (waits.resolve_left (by simp)) _ rfl
  | @firstAnswer localSdp pending unset =>
    simp only [producedBy, ne_eq, not_true_eq_false, if_false, toList_none, append_nil]
    refine { sound := sound, settled := fun unanswered _ => h.settled unanswered ?_,
             pending := ?_, next := by simp, newer := h.newer }
    · rcases pending with pending | pending <;> simp [pending]
    · exact fun waits => h.replaced keeps pending (waits.resolve_left (by simp)) _ rfl
  | @cancelledLocal pending =>
    simp only [producedBy, ne_eq, not_true_eq_false, if_false, toList_none, append_nil]
    apply Covers.clear (by simpa using h.sound.restored (.inl pending)) h.newer
    obtain ⟨offer, set, older⟩ := h.pending (.inl pending)
    cases active : n.activeLocal with
    | none => exact absurd ⟨pending, active⟩ keeps
    | some active' =>
      have ahead := h.next pending offer set active' active
      exact fun one member => ⟨_, rfl, Nat.le_trans (older one member) ahead⟩
  | cancelledRemote pending =>
    simp only [producedBy, ne_eq, not_true_eq_false, if_false, toList_none, append_nil]
    exact Covers.clear h.sound.initial h.newer
      (h.settled (h.sound.remoteOffer pending).1 (by simp [pending]))
  | @failed allowAsym status pending failed =>
    simp only [producedBy, ne_eq, failed, not_false_eq_true, if_true, toList_none,
      append_nil]
    refine Covers.clear (h.sound.restored (.inr pending)) h.newer ?_
    cases answered : n.hasRemoteAnswer with
    | false => exact h.settled answered (by simp [pending])
    | true =>
      obtain ⟨offer, set, older⟩ := h.pending (.inr answered)
      have covered : ∃ active ∈ n.activeLocal, offer.origin.version ≤ active.origin.version := by
        by_contra lower
        have fails :
            (n.negotiate allowAsym).any (fun result => result.2.status ≠ .success) = true := by
          rw [show n.negotiate allowAsym = _ from called]
          simpa using failed
        exact keeps ⟨pending, answered, fails, offer, set, by simpa using lower⟩
      obtain ⟨active, isActive, after⟩ := covered
      exact fun one member => ⟨active, isActive, Nat.le_trans (older one member) after⟩
  | @processed _ offer _ active _ pending remoteAnswer localSet remoteSet success =>
    have origin : active.origin = offer.origin := by
      rw [processAnswer, Prod.mk.injEq, Prod.mk.injEq] at success
      rw [← success.2.1]
    have older : ∀ one ∈ produced, one.version ≤ active.origin.version := by
      simpa [localSet, origin] using h.pending (.inr remoteAnswer)
    apply Covers.clear (fun _ => (h.sound.waitNego pending).1)
    · exact newer_append h.newer fun one _ => newer_unmodified one _
    · refine fun one member => ⟨active, rfl, ?_⟩
      exact le_append older (by simp [producedBy, Negotiation.clear]) one member
  | @answered _ _ _ _ versioned pending localAnswer localSet remoteSet success last =>
    have older : ∀ one ∈ produced, one.version ≤ versioned.origin.version + 1 := by
      intro one member
      obtain ⟨active, isActive, after⟩ := h.settled localAnswer (by simp [pending]) one member
      rw [mem_def.mp isActive, some_or, Option.some.injEq] at last
      rw [← last]
      exact Nat.le_succ_of_le after
    apply Covers.clear (fun _ => (h.sound.waitNego pending).1)
    · exact newer_append h.newer fun one _ => newer_unmodified one _
    · refine fun one member => ⟨_, rfl, ?_⟩
      exact le_append older (by simp [producedBy, Negotiation.clear, withVersionAfter]) one member

theorem Start.covers (h : n.Start) : n.Covers (firstProduced n) := by
  have sound := h.sound
  cases h with
  | @localOffer localSdp valid =>
    have first : firstProduced
        { zero .localOffer with initial := some localSdp, negLocal := some localSdp } =
          [{ version := localSdp.origin.version, modified := false }] := rfl
    rw [first]
    exact { sound := sound, settled := fun _ other => absurd rfl other
            pending := fun _ => ⟨localSdp, rfl, by simp⟩
            next := by simp [zero], newer := pairwise_singleton _ _ }
  | remoteOffer remote =>
    have first : firstProduced { zero .remoteOffer with negRemote := some remote } = [] := rfl
    rw [first]
    exact { sound := sound, settled := by simp, pending := by simp [zero], next := by simp [zero]
            newer := List.Pairwise.nil }
  | @answered initial remote valid =>
    have first : firstProduced { zero .waitNego with
        initial := some initial, negLocal := some initial, negRemote := some remote } = [] := rfl
    rw [first]
    exact { sound := sound, settled := by simp, pending := by simp [zero], next := by simp [zero]
            newer := List.Pairwise.nil }

end Negotiation

/-- The versions increase, and the negotiator covers them as long as it is there. -/
def History.Covered (h : History) : Prop :=
  h.produced.Pairwise Newer ∧ ∀ held ∈ h.mem, held.Proper ∧ held.view.Covers h.produced

theorem History.Covered.exec {h : History} (covered : h.Covered) {c : Call}
    (keeps : ∀ held ∈ h.mem, ¬held.view.LosesVersion c) : (h.exec c).Covered := by
  unfold History.exec
  cases called : h.mem.bind fun mem => call mem c with
  | none => exact ⟨covered.1, fun held set => by cases set⟩
  | some result =>
    have ⟨mem', ret⟩ := result
    obtain ⟨held, set, result⟩ := bind_eq_some_iff.mp called
    have ⟨proper, covers⟩ := covered.2 held set
    have ⟨n', rep, value, agree⟩ := call_agree_some proper result
    have next := covers.step value (keeps held set)
    have view : mem'.view = n' := agree.holds.view
    have report : { status := ret.status, offer := read mem'.sessions ret.offer } = rep := by
      have status : ret.status = rep.status := agree.status
      have offer : read mem'.sessions ret.offer = rep.offer := agree.offer
      rw [status, offer]
    rw [← view, ← report] at next
    refine ⟨next.newer, ?_⟩
    intro held' same
    obtain rfl := some.inj same
    exact ⟨agree.holds.proper, next⟩

/-- Along every run in which no version is lost, each modified offer has a greater version than
all offers and successful answers before it. -/
theorem versions_increase {mem : Memory} (started : Started mem) {calls : List Call}
    (keeps : Run.Meets History.exec (fun h c => ∀ held ∈ h.mem, ¬held.view.LosesVersion c)
      (History.start mem) calls) :
    Run.Always History.exec (fun h => h.produced.Pairwise Newer) (History.start mem) calls := by
  have ⟨n, start, holds⟩ := started.holds
  have first : (History.start mem).Covered := by
    have covers := start.covers
    rw [← holds.view] at covers
    refine ⟨covers.newer, ?_⟩
    intro held same
    obtain rfl := some.inj same
    exact ⟨holds.proper, covers⟩
  have kept : ∀ (h : History) (c : Call), h.Covered →
      (∀ held ∈ h.mem, ¬held.view.LosesVersion c) → (h.exec c).Covered :=
    fun h c covered keeps => covered.exec keeps
  exact (Run.always kept first keeps).imp fun h covered => covered.1

/-- The versions of a run with a cancelled offer increase. -/
theorem versions_increase_cancelled : ∃ mem, createWLocalOffer (pcmuSession 1) = .ok mem ∧
    Run.Always History.exec (fun h => h.produced.Pairwise Newer) (History.start mem)
      [.setRemoteAnswer (pcmuSession 5), .negotiate false, .modifyLocalOffer2 false (pcmuSession 3),
       .cancelOffer, .modifyLocalOffer2 false (pcmuSession 3)] :=
  ⟨_, rfl, versions_increase (@Started.localOffer (pcmuSession 1) _ rfl) (by decide +kernel)⟩

/-- An offer that fails to negotiate and the next one have the same version. -/
theorem versions_repeat_failed : ∃ mem, createWLocalOffer (pcmuSession 1) = .ok mem ∧
    ¬Run.Always History.exec (fun h => h.produced.Pairwise Newer) (History.start mem)
      [.setRemoteAnswer (pcmuSession 5), .negotiate false, .modifyLocalOffer2 false (pcmuSession 3),
       .setRemoteAnswer (rtpSession 6 [rtpMedia audio 0 [ofChars ['0']]]), .negotiate false,
       .modifyLocalOffer2 false (pcmuSession 3)] := by
  refine ⟨_, rfl, fun increase => ?_⟩
  have last := increase.last
  revert last
  unfold Newer
  decide +kernel

end Pjmedia.SdpNeg
