import Pjproject.Lib.Run
import Pjproject.SdpNeg.Refinement

/-!
# Null pointers of the negotiator

The guards of the calls look at the state alone. Which sessions are set in which state is an
invariant of every run, and all calls but one dereference only those. The modification of the
active session does not look whether there is one, unlike its sending as an offer: a cancelled
or failed first exchange leaves none.
-/

namespace Pjmedia.SdpNeg
open Option Pj Sdp Heap

namespace Negotiation

/-- Which sessions are set in which state. -/
structure Sound (n : Negotiation) : Prop where
  done : n.state = .done →
    n.hasRemoteAnswer = false ∧ n.initialTmp = none ∧ n.negLocal = none ∧ n.negRemote = none
  remoteOffer : n.state = .remoteOffer →
    n.hasRemoteAnswer = false ∧ n.initialTmp = none ∧ n.negLocal = none ∧ n.negRemote.isSome
  localOffer : n.state = .localOffer →
    n.hasRemoteAnswer = false ∧ n.initial.isSome ∧ n.negLocal.isSome
  waitNego : n.state = .waitNego →
    n.initial.isSome ∧ n.negLocal.isSome ∧ n.negRemote.isSome
  /-- There is an initial session as soon as there is an active one. -/
  initial : n.activeLocal.isSome → n.initial.isSome
  /-- The initial session that a failure restores. -/
  restored : n.state = .localOffer ∨ n.state = .waitNego → n.activeLocal.isSome →
    n.initialTmp.isSome

variable {n : Negotiation}

theorem Start.sound (h : n.Start) : n.Sound := by
  cases h <;> constructor <;> simp [Negotiation.zero]

/-- The end of an exchange is sound if an active session comes with an initial one. -/
theorem Sound.clear {initial : Option SdpSession} (h : n.activeLocal.isSome → initial.isSome) :
    (n.clear initial).Sound where
  done _ := ⟨rfl, rfl, rfl, rfl⟩
  remoteOffer := nofun
  localOffer := nofun
  waitNego := nofun
  initial := h
  restored := nofun

theorem Sound.step {n' : Negotiation} {c : Call} {rep : Report} (h : n.Sound)
    (step : n.Step c n' rep) : n'.Sound := by
  have ⟨done, remoteOffer, localOffer, waitNego, initial, restored⟩ := h
  cases step with
  | refused => exact ⟨done, remoteOffer, localOffer, waitNego, initial, restored⟩
  | repeated => exact ⟨done, remoteOffer, localOffer, waitNego, initial, restored⟩
  | setOptions => exact ⟨done, remoteOffer, localOffer, waitNego, initial, restored⟩
  | modified idle active => constructor <;> simp_all
  | resent idle set => constructor <;> simp_all [retain]
  | remoteAnswer pending => constructor <;> simp_all
  | remoteOffer idle => constructor <;> simp_all
  | localAnswer pending set =>
    have remote : n.negRemote.isSome := by
      rcases pending with pending | pending
      · exact (remoteOffer pending).2.2.2
      · exact (waitNego pending).2.2
    constructor <;> simp_all [retain]
  | firstAnswer pending unset => constructor <;> simp_all
  | cancelledLocal pending => exact Sound.clear (by simpa using restored (.inl pending))
  | cancelledRemote pending => exact Sound.clear initial
  | failed pending failed => exact Sound.clear (restored (.inr pending))
  | processed pending => exact Sound.clear fun _ => (waitNego pending).1
  | answered pending => exact Sound.clear fun _ => (waitNego pending).1

/-- The call modifies an active local session that is not set. -/
def ModifiesUnset (n : Negotiation) (c : Call) : Prop :=
  ∃ allowMediaChange localSdp, c = .modifyLocalOffer2 allowMediaChange localSdp ∧
    pjmediaSdpValidate localSdp = .success ∧ n.state = .done ∧ n.activeLocal = none

/-- In a sound state nothing else dereferences a null pointer. -/
theorem Sound.call_none_iff (h : n.Sound) (c : Call) :
    n.call c = none ↔ n.ModifiesUnset c := by
  cases c with
  | modifyLocalOffer2 allowMediaChange localSdp =>
    rw [call, modifyLocalOffer]
    by_cases idle : n.state = .done
    · by_cases valid : pjmediaSdpValidate localSdp = .success <;>
        simp [ModifiesUnset, idle, valid]
    · simp [ModifiesUnset, idle]
  | negotiate allowAsym =>
    have defined : n.negotiate allowAsym ≠ none := by
      unfold negotiate
      split
      · simp
      · next pending =>
        obtain ⟨initial, negLocal, negRemote⟩ := h.waitNego (not_not.mp pending)
        obtain ⟨initial, hinitial⟩ := isSome_iff_exists.mp initial
        obtain ⟨offer, hoffer⟩ := isSome_iff_exists.mp negLocal
        obtain ⟨remote, hremote⟩ := isSome_iff_exists.mp negRemote
        simp only [hremote, negotiateLocalAnswer, hoffer, hinitial]
        split
        · simp
        · split
          · simp
          · cases n.activeLocal <;> simp
    exact iff_of_false defined (by simp [ModifiesUnset])
  | _ => exact iff_of_false (Option.some_ne_none _) (by simp [ModifiesUnset])

end Negotiation

/-- The call modifies the active local SDP, which is not set. -/
def Memory.ModifiesUnset (mem : Memory) (c : Call) : Prop :=
  ∃ allowMediaChange localSdp, c = .modifyLocalOffer2 allowMediaChange localSdp ∧
    pjmediaSdpValidate localSdp = .success ∧ mem.neg.state = .done ∧
      mem.neg.activeLocalSdp = none

theorem Memory.Proper.modifiesUnset_iff {mem : Memory} (h : mem.Proper) (c : Call) :
    mem.view.ModifiesUnset c ↔ mem.ModifiesUnset c := by
  have valid : Valid mem.sessions mem.neg.activeLocalSdp := h.valid _ (by simp [Negotiator.roots])
  have same : mem.view.activeLocal = none ↔ mem.neg.activeLocalSdp = none := valid.read_eq_none
  simp only [Negotiation.ModifiesUnset, Memory.ModifiesUnset, same]
  rfl

/-- Along a run from a created negotiator no call dereferences a null pointer exactly when none
modifies an active local SDP that is not set. -/
theorem nullFree_iff_activeSet {mem : Memory} (started : Started mem) (calls : List Call) :
    Run.Always exec (fun mem => mem.isSome = true) (some mem) calls ↔
      Run.Meets exec (fun mem c => ∀ held ∈ mem, ¬held.ModifiesUnset c) (some mem) calls := by
  have ⟨n, start, holds⟩ := started.holds
  have sound : mem.view.Sound := by
    rw [holds.view]
    exact start.sound
  have none_iff : ∀ held : Memory, held.Proper → held.view.Sound → ∀ c,
      call held c = none ↔ held.ModifiesUnset c := fun held proper sound c =>
    (call_none_iff proper c).trans ((sound.call_none_iff c).trans (proper.modifiesUnset_iff c))
  have kept : ∀ (mem : Option Memory) (c : Call), mem.isSome = true ∧ Keeps Negotiation.Sound mem →
      (∀ held ∈ mem, ¬held.ModifiesUnset c) →
        (exec mem c).isSome = true ∧ Keeps Negotiation.Sound (exec mem c) := by
    intro mem c ⟨there, keeps⟩ set
    refine ⟨?_, keeps.exec fun held _ n rep called sound =>
      sound.step (Negotiation.call_step called)⟩
    obtain ⟨held, rfl⟩ := isSome_iff_exists.mp there
    have ⟨proper, sound⟩ := keeps held rfl
    rw [exec, bind_some, isSome_map, isSome_iff_ne_none]
    exact fun null => set held rfl ((none_iff held proper sound c).mp null)
  have broken : ∀ (mem : Option Memory) (c : Call), mem.isSome = true ∧ Keeps Negotiation.Sound mem →
      (¬∀ held ∈ mem, ¬held.ModifiesUnset c) → ¬(exec mem c).isSome = true := by
    intro mem c ⟨_, keeps⟩ unset
    simp only [not_forall, not_not] at unset
    obtain ⟨held, rfl, modifies⟩ := unset
    have ⟨proper, sound⟩ := keeps held rfl
    rw [exec, bind_some, (none_iff held proper sound c).mpr modifies]
    decide
  refine Run.always_iff kept (fun mem inv => inv.1) broken ⟨rfl, ?_⟩
  intro held member
  obtain rfl := some.inj member
  exact ⟨holds.proper, sound⟩

/-- A memory that a run has come to is sound. -/
theorem Reachable.sound {mem : Memory} (h : Reachable mem) : mem.Proper ∧ mem.view.Sound :=
  h.keeps (fun _ start => start.sound) fun _ _ _ _ called sound =>
    sound.step (Negotiation.call_step called)

/-- A media line of RTP/AVP. -/
def rtpMedia (media : Str) (port : Nat) (fmt : List Str) : SdpMedia :=
  { media := media, port := port, portCount := 0
    transport := ofChars ['R', 'T', 'P', '/', 'A', 'V', 'P']
    fmt := fmt, conn := none, bandw := [], attr := [] }

/-- `"audio"`. -/
def audio : Str := ofChars ['a', 'u', 'd', 'i', 'o']

/-- A session with media lines. -/
def rtpSession (version : Nat) (media : List SdpMedia) : SdpSession :=
  { origin :=
      { user := ofChars ['-'], id := 1, version := version, netType := netTypeIn
        addrType := ip4, addr := ofChars ['h', 'o', 's', 't'] }
    name := ofChars ['c', 'a', 'l', 'l']
    conn := some { netType := netTypeIn, addrType := ip4, addr := ofChars ['h', 'o', 's', 't'] }
    bandw := [], start := 0, stop := 0, attr := [], media := media }

/-- A session with one audio line and the format 0. -/
def pcmuSession (version : Nat) : SdpSession :=
  rtpSession version [rtpMedia audio 4000 [ofChars ['0']]]

/-- An offer that is cancelled before there is an active SDP, and a new one: the new one
dereferences the active local SDP. -/
theorem nullFree_cancelled : ∃ mem, createWRemoteOffer none (pcmuSession 1) = .ok mem ∧
    pjmediaSdpValidate (pcmuSession 1) = .success ∧
      ¬Run.Always exec (fun mem => mem.isSome = true) (some mem)
        [.cancelOffer, .modifyLocalOffer2 false (pcmuSession 1)] := by
  refine ⟨_, rfl, by decide +kernel, fun safe => ?_⟩
  have last := safe.last
  revert last
  decide +kernel

/-- The equivalence at that run without its last call. -/
theorem nullFree_iff_activeSet_cancelled : ∃ mem, createWRemoteOffer none (pcmuSession 1) = .ok mem ∧
    (Run.Always exec (fun mem => mem.isSome = true) (some mem) [.cancelOffer] ↔
      Run.Meets exec (fun mem c => ∀ held ∈ mem, ¬held.ModifiesUnset c) (some mem)
        [.cancelOffer]) :=
  ⟨_, rfl, nullFree_iff_activeSet (@Started.remoteOffer none (pcmuSession 1) _ rfl) _⟩

end Pjmedia.SdpNeg
