import Pjproject.Srtp.Setting

/-!
# Mandatory SRTP

A transport whose use is mandatory does not bypass SRTP as long as no start of media finds an empty
policy: an answerer without policies of its own answer, or an offerer that accepts an answer whose
crypto, or whose counterpart in the setting, has no key. Every such start is a bypass.
-/

namespace Pjmedia.Srtp
open Option List Pj Pjmedia.Sdp Pjnath.Stun

variable {srtp srtp' : TransportSrtp} {mLoc mLoc' mRem : SdpMedia} {status : Int}

/-! ## Packets -/

/-- SRTP is not bypassed: what is sent is what libsrtp has protected, and what is received is what it
has unprotected. -/
structure Protected (srtp : TransportSrtp) : Prop where
  bypass : srtp.bypassSrtp = false
  rtpSent : ∀ lib pkt out, transportSendRtp lib srtp pkt = .ok out →
    lib.protect pkt = (srtpErrStatusOk, out)
  rtcpSent : ∀ lib pkt out, transportSendRtcp2 lib srtp pkt = .ok out →
    lib.protectRtcp pkt = (srtpErrStatusOk, out)
  rtpReceived : ∀ lib pkt out, (srtpRtpCb lib srtp pkt).2 = some out →
    ∃ before bytes, out = .ok bytes ∧
      ((∃ again, lib.unprotect again before = (srtpErrStatusOk, bytes)) ∨
        lib.unprotectRtcp before = (srtpErrStatusOk, bytes))
  rtcpReceived : ∀ lib pkt out, srtpRtcpCb lib srtp pkt = some out →
    ∃ before bytes, pkt = .ok before ∧ out = .ok bytes ∧
      lib.unprotectRtcp before = (srtpErrStatusOk, bytes)

section
variable {lib : Libsrtp} {pkt out : Except Int Str} (bypass : srtp.bypassSrtp = false)
include bypass

theorem rtcpCb_unprotected (handed : srtpRtcpCb lib srtp pkt = some out) :
    ∃ before bytes, pkt = .ok before ∧ out = .ok bytes ∧
      lib.unprotectRtcp before = (srtpErrStatusOk, bytes) := by
  unfold srtpRtcpCb at handed
  rw [if_neg (by simp [bypass])] at handed
  cases pkt with
  | error failed => cases handed
  | ok before =>
    dsimp only at handed
    split at handed
    · cases handed
    · split at handed
      · rename_i success
        cases handed
        exact ⟨before, _, rfl, rfl, Prod.ext success rfl⟩
      · cases handed

theorem rtpCb_unprotected (handed : (srtpRtpCb lib srtp pkt).2 = some out) :
    ∃ before bytes, out = .ok bytes ∧
      ((∃ again, lib.unprotect again before = (srtpErrStatusOk, bytes)) ∨
        lib.unprotectRtcp before = (srtpErrStatusOk, bytes)) := by
  unfold srtpRtpCb at handed
  rw [if_neg (by simp [bypass])] at handed
  cases pkt with
  | error failed => cases handed
  | ok before =>
    dsimp only at handed
    split at handed
    · cases handed
    · split at handed
      · have handed' : srtpRtcpCb lib { srtp with probationCnt := srtp.probationCnt - 1 } (.ok before) =
            some out := handed
        have ⟨bytes, out', _, same, done⟩ := rtcpCb_unprotected bypass handed'
        exact ⟨bytes, out', same, .inr done⟩
      · split at handed
        · split at handed
          · split at handed
            · rename_i success
              cases handed
              exact ⟨_, _, rfl, .inl ⟨true, Prod.ext success rfl⟩⟩
            · cases handed
          · cases handed
        · split at handed
          · rename_i success
            cases handed
            exact ⟨_, _, rfl, .inl ⟨false, Prod.ext success rfl⟩⟩
          · cases handed

end

/-- All of it follows from the flag. -/
theorem protected_of_bypass (bypass : srtp.bypassSrtp = false) : Protected srtp where
  bypass := bypass
  rtpSent := by
    intro lib pkt out sent
    unfold transportSendRtp at sent
    rw [if_neg (by simp [bypass])] at sent
    split at sent
    · cases sent
    · split at sent
      · cases sent
      · dsimp only at sent
        split at sent
        · rename_i success
          cases sent
          exact Prod.ext success rfl
        · cases sent
  rtcpSent := by
    intro lib pkt out sent
    unfold transportSendRtcp2 at sent
    rw [if_neg (by simp [bypass])] at sent
    split at sent
    · cases sent
    · split at sent
      · cases sent
      · dsimp only at sent
        split at sent
        · rename_i success
          cases sent
          exact Prod.ext success rfl
        · cases sent
  rtpReceived _ _ _ := rtpCb_unprotected bypass
  rtcpReceived _ _ _ := rtcpCb_unprotected bypass

/-! ## The session -/

variable {crypto : SrtpCrypto}

/-- A crypto that is no bypass: its suite is not `NULL`, and it has no flags. -/
structure SrtpCrypto.Ciphers (crypto : SrtpCrypto) : Prop where
  flags : crypto.flags = 0
  suite : getCryptoIdx crypto.name ≠ some 0

theorem SrtpCrypto.Ciphers.idxUnless (ciphers : crypto.Ciphers) (flag : Nat) :
    idxUnless crypto flag ≠ some 0 := by
  unfold Srtp.idxUnless
  rw [ciphers.flags, Nat.zero_and, if_neg (not_not_intro rfl)]
  exact ciphers.suite

theorem SrtpCrypto.Ciphers.inUse (ciphers : crypto.Ciphers) {idx : Nat}
    (found : getCryptoIdx crypto.name = some idx) : crypto.inUse.Ciphers := by
  refine ⟨ciphers.flags, ?_⟩
  have kept := (getCryptoIdx_some found).2
  change getCryptoIdx (cryptoSuite ((getCryptoIdx crypto.name).getD 0)).name ≠ some 0
  rw [found, getD_some, kept, ← found]
  exact ciphers.suite

/-- A session that is not a bypass. -/
def Session (srtp : TransportSrtp) : Prop := srtp.sessionInited = true → srtp.txPolicy.Ciphers

theorem stop_idle (srtp : TransportSrtp) : (pjmediaTransportSrtpStop srtp).sessionInited = false := by
  unfold pjmediaTransportSrtpStop
  split
  · rfl
  · rename_i idle
    simpa using idle

/-- A session starts without a bypass if what it sends is ciphered. -/
theorem start_ciphers (lib : Libsrtp) (srtp : TransportSrtp) {tx rx : SrtpCrypto} (ciphers : tx.Ciphers) :
    (pjmediaTransportSrtpStart lib srtp tx rx).1.bypassSrtp = srtp.bypassSrtp ∧
      Session (pjmediaTransportSrtpStart lib srtp tx rx).1 := by
  have idle := stop_idle srtp
  have bypass := stop_bypass srtp
  have none : Session (pjmediaTransportSrtpStop srtp) := by
    intro inited
    rw [idle] at inited
    cases inited
  unfold pjmediaTransportSrtpStart
  dsimp only
  split
  · rename_i crTxIdx auTxIdx crRxIdx auRxIdx found _ _ _
    split
    · rename_i null
      rw [null.1] at found
      exact absurd found (ciphers.idxUnless _)
    · split
      · exact ⟨bypass, none⟩
      · unfold createContexts
        split
        · refine ⟨bypass, fun inited => ?_⟩
          exact absurd (idle.symm.trans inited) Bool.false_ne_true
        · split
          · refine ⟨bypass, fun inited => ?_⟩
            exact absurd (idle.symm.trans inited) Bool.false_ne_true
          · refine ⟨bypass, fun _ => ?_⟩
            unfold idxUnless at found
            rw [ciphers.flags, Nat.zero_and, if_neg (not_not_intro rfl)] at found
            exact ciphers.inUse found
  · exact ⟨bypass, none⟩

/-- One of the policies that are negotiated is empty. -/
def EmptyPolicy (srtp : TransportSrtp) : Prop :=
  srtpCryptoEmpty srtp.txPolicyNeg = true ∨ srtpCryptoEmpty srtp.rxPolicyNeg = true

theorem startSrtp_empty (lib : Libsrtp) (none : EmptyPolicy srtp) :
    (startSrtp lib srtp).1.bypassSrtp = true := by
  unfold startSrtp
  rw [if_pos (Bool.or_eq_true _ _ ▸ none)]
  exact stop_bypass _

theorem startSrtp_keyed (lib : Libsrtp) (some' : ¬EmptyPolicy srtp) (ciphers : srtp.txPolicyNeg.Ciphers)
    (bypass : srtp.bypassSrtp = false) (session : Session srtp) :
    (startSrtp lib srtp).1.bypassSrtp = false ∧ Session (startSrtp lib srtp).1 := by
  unfold startSrtp
  rw [if_neg (Bool.or_eq_true _ _ ▸ some')]
  dsimp only
  split
  · exact ⟨rfl, session⟩
  · have started := @start_ciphers lib { srtp with probationCnt := probationCntInit } _
      srtp.rxPolicyNeg ciphers
    split
    · exact ⟨started.1.trans bypass, started.2⟩
    · exact ⟨rfl, started.2⟩

/-! ## Starts of media -/

/-- The crypto of the setting with the name of a suite, or else the policy that there is. -/
def ownCrypto (srtp : TransportSrtp) (crypto : SrtpCrypto) : SrtpCrypto :=
  (srtp.crypto.find? fun own => pjStricmpEq crypto.name own.name).getD srtp.txPolicyNeg

/-- An answer is accepted: it has one attribute of crypto, whose tag and suite are those of an attribute
of the local media. -/
structure Accepts (srtp : TransportSrtp) (mLoc mRem : SdpMedia) (crypto : SrtpCrypto) : Prop where
  proto : transportProto mRem.transport = .rtpSavp
  only : ∃ attr tag locCrypto count, mRem.attr.filter isCrypto = [attr] ∧
    parseAttrCrypto attr = .ok (crypto, tag) ∧
    fillLocalCrypto mLoc.attr (List.replicate maxCryptos .zero) 0 = some (locCrypto, count) ∧
    answerRefusal srtp locCrypto count crypto tag = none

/-- The start of media finds an empty policy: that of an answerer, or the crypto of an answer or of the
setting. -/
inductive Keyless (srtp : TransportSrtp) (mLoc mRem : SdpMedia) : Prop
  | answerer (side : srtp.offererSide = false) (proto : transportProto mRem.transport ≠ .other)
      (none : EmptyPolicy srtp)
  | offerer (side : srtp.offererSide = true) {crypto : SrtpCrypto}
      (accepts : Accepts srtp mLoc mRem crypto)
      (none : srtpCryptoEmpty (ownCrypto srtp crypto) = true ∨ srtpCryptoEmpty crypto = true)

/-- The flag that media has been started is not looked at. -/
theorem keyless_started : Keyless { srtp with started := true } mLoc mRem ↔ Keyless srtp mLoc mRem := by
  constructor
  · intro keyless
    cases keyless with
    | answerer side proto none => exact .answerer side proto none
    | offerer side accepts none => exact .offerer side ⟨accepts.proto, accepts.only⟩ none
  · intro keyless
    cases keyless with
    | answerer side proto none => exact .answerer side proto none
    | offerer side accepts none => exact .offerer side ⟨accepts.proto, accepts.only⟩ none

/-- The loop over an answer reads the attributes of crypto. -/
theorem readAnswer_filter (locCrypto : List SrtpCrypto) (count : Int) (attrs : List SdpAttr)
    (srtp : TransportSrtp) (hasCryptoAttr : Bool) :
    readAnswer locCrypto count attrs srtp hasCryptoAttr =
      readAnswer locCrypto count (attrs.filter isCrypto) srtp hasCryptoAttr := by
  induction attrs generalizing srtp hasCryptoAttr with
  | nil => rfl
  | cons attr rest ih =>
    by_cases own : isCrypto attr = true
    · rw [filter_cons_of_pos own, readAnswer, readAnswer]
      simp only [ih]
    · rw [filter_cons_of_neg own, readAnswer, if_pos own]
      exact ih srtp hasCryptoAttr

/-- The loop over an answer ends well without crypto, or with one that is accepted. -/
theorem readAnswer_success {locCrypto : List SrtpCrypto} {count : Int} {attrs : List SdpAttr}
    {hasCryptoAttr : Bool}
    (read : readAnswer locCrypto count attrs srtp false = (srtp', hasCryptoAttr, none)) :
    hasCryptoAttr = false ∨
      ∃ attr crypto tag, attrs.filter isCrypto = [attr] ∧ parseAttrCrypto attr = .ok (crypto, tag) ∧
        answerRefusal srtp locCrypto count crypto tag = none ∧ srtp' = takeAnswer srtp crypto := by
  rw [readAnswer_filter] at read
  have own : ∀ attr ∈ attrs.filter isCrypto, isCrypto attr = true :=
    fun attr member => (mem_filter.mp member).2
  cases only : attrs.filter isCrypto with
  | nil =>
    rw [only] at read
    cases read
    exact .inl rfl
  | cons attr rest =>
    rw [only] at read own
    rw [readAnswer, if_neg (not_not_intro (own attr mem_cons_self)),
      if_neg Bool.false_ne_true] at read
    split at read
    · cases read
    · rename_i crypto tag parsed
      split at read
      · cases read
      · rename_i accepted
        cases rest with
        | nil =>
          cases read
          exact .inr ⟨attr, crypto, tag, rfl, parsed, accepted, rfl⟩
        | cons other later =>
          have second := own other (mem_cons_of_mem _ mem_cons_self)
          rw [readAnswer, if_neg (not_not_intro second), if_pos rfl] at read
          cases read

/-- A start that succeeds without an empty policy to find leaves none. -/
theorem mediaStart_keyed (use : srtp.use = .mandatory)
    (done : sdesMediaStart srtp mLoc mRem = some (srtp', mLoc', pjSuccess))
    (keyed : ¬Keyless srtp mLoc mRem) : ¬EmptyPolicy srtp' := by
  unfold sdesMediaStart at done
  by_cases proto : transportProto mRem.transport = .other
  · rw [if_pos proto] at done
    cases done
  · rw [if_neg proto] at done
    cases side : srtp.offererSide with
    | false =>
      rw [if_pos (by simp [side])] at done
      cases done
      exact fun none => keyed (.answerer side proto none)
    | true =>
      rw [if_neg (by simp [side]), if_neg (by simp [use])] at done
      by_cases savp : transportProto mRem.transport = .rtpSavp
      · rw [if_pos savp, if_neg (by simp)] at done
        have ⟨⟨locCrypto, count⟩, filled, done⟩ := bind_eq_some_iff.mp done
        dsimp only at done
        split at done
        · rename_i refusal found
          have wrong := readAnswer_refusal locCrypto count mRem.attr _ false (congrArg (·.2.2) found)
          have success : refusal.status = pjSuccess := congrArg (·.2.2) (some.inj done)
          exact absurd success.symm wrong
        · rename_i after hasCryptoAttr found
          rcases readAnswer_success found with none | ⟨attr, crypto, tag, only, parsed, accepted, same⟩
          · have ⟨tx, rx, policies, _⟩ := readAnswer_policies locCrypto count mRem.attr
              { srtp with peerUse := .mandatory } false
            rw [found] at policies
            have mandatory : after.use = .mandatory := (congrArg TransportSrtp.use policies).trans use
            rw [if_pos ⟨mandatory, by simp [none]⟩] at done
            cases done
          · split at done
            · cases done
            · cases done
              rw [same]
              exact fun none => keyed (.offerer side
                ⟨savp, attr, tag, locCrypto, count, only, parsed, filled, accepted⟩ none)
      · rw [if_neg savp, if_pos (by simp [use])] at done
        cases done

/-- A start that finds an empty policy succeeds, and leaves it. -/
theorem mediaStart_keyless (use : srtp.use = .mandatory) (keyless : Keyless srtp mLoc mRem) :
    ∃ srtp' mLoc', sdesMediaStart srtp mLoc mRem = some (srtp', mLoc', pjSuccess) ∧
      EmptyPolicy srtp' := by
  unfold sdesMediaStart
  cases keyless with
  | answerer side proto empty =>
    rw [if_neg proto, if_pos (by simp [side])]
    exact ⟨_, _, rfl, empty⟩
  | @offerer side crypto accepts empty =>
    obtain ⟨savp, attr, tag, locCrypto, count, only, parsed, filled, accepted⟩ := accepts
    have own : isCrypto attr = true := by
      have member : attr ∈ mRem.attr.filter isCrypto := by
        rw [only]
        exact mem_cons_self
      exact (mem_filter.mp member).2
    have accepted' : answerRefusal { srtp with peerUse := .mandatory } locCrypto count crypto tag = none :=
      accepted
    have read : readAnswer locCrypto count mRem.attr { srtp with peerUse := .mandatory } false =
        (takeAnswer { srtp with peerUse := .mandatory } crypto, true, none) := by
      rw [readAnswer_filter, only, readAnswer, if_neg (not_not_intro own), if_neg Bool.false_ne_true,
        parsed]
      dsimp only
      rw [accepted']
      rfl
    rw [if_neg (by simp [savp]), if_neg (by simp [side]), if_neg (by simp [use]), if_pos savp,
      if_neg (by simp), filled]
    simp only [Option.bind_eq_bind, Option.bind_some, read]
    rw [if_neg (by simp)]
    exact ⟨_, _, rfl, empty⟩

/-! ## Steps -/

/-- A mandatory transport that does not bypass SRTP, and whose suites all cipher. -/
structure Guarded (srtp : TransportSrtp) : Prop where
  use : srtp.use = .mandatory
  proper : ProperSetting srtp.crypto
  ciphers : ∀ crypto ∈ srtp.crypto, crypto.Ciphers
  bypass : srtp.bypassSrtp = false
  negotiated : srtpCryptoEmpty srtp.txPolicyNeg = false → srtp.txPolicyNeg.Ciphers
  session : Session srtp

theorem SameSuites.ciphers {before after : List SrtpCrypto} (same : SameSuites before after)
    (ciphers : ∀ crypto ∈ before, crypto.Ciphers) : ∀ crypto ∈ after, crypto.Ciphers := by
  intro crypto member
  have name := mem_map_of_mem (f := SrtpCrypto.name) member
  have flags := mem_map_of_mem (f := SrtpCrypto.flags) member
  rw [same.1] at name
  rw [same.2] at flags
  have ⟨named, inside, sameName⟩ := mem_map.mp name
  have ⟨flagged, inside', sameFlags⟩ := mem_map.mp flags
  constructor
  · rw [← sameFlags]
    exact (ciphers flagged inside').flags
  · rw [← sameName]
    exact (ciphers named inside).suite

/-- The keying keeps what it puts keys into. -/
theorem Guarded.keying (guarded : Guarded srtp) (keying : Keying srtp srtp') : Guarded srtp' where
  use := keying.use.trans guarded.use
  proper := keying.proper
  ciphers := keying.suites.ciphers guarded.ciphers
  bypass := keying.bypass.trans guarded.bypass
  negotiated := by
    intro keyed
    rcases keying.txNeg with same | inside
    · rw [same] at keyed ⊢
      exact guarded.negotiated keyed
    · exact keying.suites.ciphers guarded.ciphers _ inside
  session := by
    intro inited
    rw [keying.txPolicy]
    exact guarded.session (keying.session.symm.trans inited)

/-- The session keeps the setting. -/
theorem Guarded.sameSetting (guarded : Guarded srtp) (same : SameSetting srtp srtp')
    (bypass : srtp'.bypassSrtp = false) (session : Session srtp') : Guarded srtp' where
  use := same.use.trans guarded.use
  proper := by
    rw [same.crypto]
    exact guarded.proper
  ciphers := by
    rw [same.crypto]
    exact guarded.ciphers
  bypass := bypass
  negotiated := by
    rw [same.tx]
    exact guarded.negotiated
  session := session

/-- New negotiations start without policies. -/
theorem Guarded.clearNeg (guarded : Guarded srtp) (offererSide keying : Bool) :
    Guarded { srtp.clearNeg with offererSide := offererSide, keying := keying } where
  use := guarded.use
  proper := guarded.proper
  ciphers := guarded.ciphers
  bypass := guarded.bypass
  negotiated keyed := nomatch keyed
  session := guarded.session

/-- A mandatory transport takes part in every negotiation. -/
theorem mediaCreate_mandatory (use : srtp.use = .mandatory) (member : Int) (mRem : Option SdpMedia) :
    ∃ keying, (transportMediaCreate srtp member mRem).1 =
      { srtp.clearNeg with offererSide := mRem.isNone, bypassSrtp := false, keying := keying } := by
  have able : ¬(mRem.isNone = true ∧ srtp.use = .disabled) := by
    rw [use]
    rintro ⟨_, disabled⟩
    cases disabled
  unfold transportMediaCreate
  dsimp only [TransportSrtp.clearNeg]
  rw [decide_eq_false able]
  split
  · exact ⟨_, rfl⟩
  · split
    · exact ⟨_, rfl⟩
    · split
      · exact ⟨_, rfl⟩
      · rw [if_neg (by simp [use])]
        exact ⟨_, rfl⟩

section
variable (guarded : Guarded srtp)
include guarded

theorem guarded_mediaCreate (member : Int) (mRem : Option SdpMedia) :
    Guarded (transportMediaCreate srtp member mRem).1 := by
  have ⟨keying, same⟩ := mediaCreate_mandatory guarded.use member mRem
  have cleared := guarded.clearNeg mRem.isNone keying
  rw [TransportSrtp.clearNeg, guarded.bypass] at cleared
  rw [same]
  exact cleared

theorem guarded_encodeSdp {source : KeySource} {member : Int} {mRem : Option SdpMedia}
    (done : transportEncodeSdp source srtp member mLoc mRem = some (srtp', mLoc', status)) :
    Guarded srtp' := by
  have ⟨before, began, ended⟩ := encodeSdp_cases done
  have cleared : Guarded before := by
    rw [began]
    exact guarded.clearNeg _ _
  rcases ended with ⟨same, _⟩ | ⟨after, _, _, encoded, ⟨bypass, keying, same, kept, _⟩, _⟩
  · rw [same]
    exact cleared
  · have held := cleared.keying (keying_encodeSdp cleared.proper encoded)
    have able : after.use ≠ .disabled := by
      rw [held.use]
      decide
    rw [same, kept able]
    exact ⟨held.use, held.proper, held.ciphers, held.bypass, held.negotiated, held.session⟩

theorem guarded_mediaStart {lib : Libsrtp} {member : Int}
    (done : transportMediaStart lib srtp member mLoc mRem = some (srtp', mLoc', status))
    (keyed : member = pjSuccess → srtp.keying = true → ¬Keyless srtp mLoc mRem) :
    Guarded srtp' := by
  have marked : Guarded { srtp with started := true } :=
    ⟨guarded.use, guarded.proper, guarded.ciphers, guarded.bypass, guarded.negotiated, guarded.session⟩
  rcases transportMediaStart_cases done with ⟨same, _⟩ | ⟨after, _, success, active, began, ended⟩
  · rw [same]
    exact marked
  · have held := marked.keying (keying_mediaStart marked.proper began)
    rcases ended with ⟨_, same, _⟩ | ⟨started, same⟩
    · rw [same]
      exact ⟨held.use, held.proper, held.ciphers, held.bypass, held.negotiated, held.session⟩
    · rw [started] at began
      have full : ¬EmptyPolicy after := by
        apply mediaStart_keyed marked.use began
        rw [keyless_started]
        exact keyed success active
      have tx : srtpCryptoEmpty after.txPolicyNeg = false := by
        by_contra empty
        exact full (.inl (by simpa using empty))
      have ⟨bypass, session⟩ :=
        startSrtp_keyed lib full (held.negotiated tx) held.bypass held.session
      have setting := sameSetting_startSrtp lib after
      rw [← same] at bypass session setting
      exact held.sameSetting setting bypass session

theorem guarded_mediaStop : Guarded (transportMediaStop srtp) := by
  have same := sameSetting_stop { srtp with started := false }
  have idle := stop_idle { srtp with started := false }
  apply guarded.sameSetting ⟨same.use, same.crypto, same.tx, same.rx⟩
  · exact (stop_bypass _).trans guarded.bypass
  · intro inited
    exact absurd (idle.symm.trans inited) Bool.false_ne_true

end

/-- A packet may start the session again, with the policies that it has. -/
theorem rtpCb_ciphers (lib : Libsrtp) (pkt : Except Int Str) (bypass : srtp.bypassSrtp = false)
    (session : Session srtp) :
    (srtpRtpCb lib srtp pkt).1.bypassSrtp = false ∧ Session (srtpRtpCb lib srtp pkt).1 := by
  unfold srtpRtpCb
  rw [if_neg (by simp [bypass])]
  cases pkt with
  | error _ => exact ⟨bypass, session⟩
  | ok pkt =>
    dsimp only
    split
    · exact ⟨bypass, session⟩
    · rename_i inited
      split
      · exact ⟨bypass, session⟩
      · split
        · have ciphers := session (not_not.mp inited)
          have started := @start_ciphers lib { srtp with probationCnt := srtp.probationCnt - 1 } _
            srtp.rxPolicy ciphers
          split
          · exact ⟨started.1.trans bypass, started.2⟩
          · exact ⟨started.1.trans bypass, started.2⟩
        · exact ⟨bypass, session⟩

theorem guarded_rtpCb (guarded : Guarded srtp) (lib : Libsrtp) (pkt : Except Int Str) :
    Guarded (srtpRtpCb lib srtp pkt).1 := by
  have ⟨bypass, session⟩ := rtpCb_ciphers lib pkt guarded.bypass guarded.session
  exact guarded.sameSetting (sameSetting_rtpCb lib srtp pkt) bypass session

/-! ## Runs -/

/-- No start of media finds an empty policy. -/
def FindsKeys (srtp : TransportSrtp) : Event → Prop
  | .mediaStart _ member mLoc mRem =>
    member = pjSuccess → srtp.keying = true → ¬Keyless srtp mLoc mRem
  | _ => True

theorem guarded_step {event : Event} (guarded : Guarded srtp) (keys : FindsKeys srtp event)
    (done : step srtp event = some srtp') : Guarded srtp' := by
  cases event with
  | attach useRtcpMux =>
    cases done
    exact ⟨guarded.use, guarded.proper, guarded.ciphers, guarded.bypass, guarded.negotiated,
      guarded.session⟩
  | mediaCreate member mRem =>
    cases done
    exact guarded_mediaCreate guarded member mRem
  | encodeSdp source member mLoc mRem =>
    have ⟨result, encoded, same⟩ := map_eq_some_iff.mp done
    cases same
    exact guarded_encodeSdp guarded encoded
  | mediaStart lib member mLoc mRem =>
    have ⟨result, started, same⟩ := map_eq_some_iff.mp done
    cases same
    exact guarded_mediaStart guarded started keys
  | mediaStop =>
    cases done
    exact guarded_mediaStop guarded
  | rtp lib pkt =>
    cases done
    exact guarded_rtpCb guarded lib pkt

/-- A start that finds an empty policy is a bypass. -/
theorem bypass_step {event : Event} (guarded : Guarded srtp) (keyless : ¬FindsKeys srtp event) :
    ∃ srtp', step srtp event = some srtp' ∧ srtp'.bypassSrtp = true := by
  cases event with
  | mediaStart lib member mLoc mRem =>
    have ⟨success, keyless⟩ := Classical.not_imp.mp keyless
    have ⟨active, keyless⟩ := Classical.not_imp.mp keyless
    have use : TransportSrtp.use { srtp with started := true } = .mandatory := guarded.use
    have ⟨after, mLoc', began, empty⟩ :=
      mediaStart_keyless use (keyless_started.mpr (not_not.mp keyless))
    refine ⟨(startSrtp lib after).1, ?_, startSrtp_empty lib empty⟩
    change (transportMediaStart lib srtp member mLoc mRem).map Prod.fst = _
    unfold transportMediaStart
    rw [if_neg (not_not_intro success), if_neg (not_not_intro active), began]
    rfl
  | attach | mediaCreate | encodeSdp | mediaStop | rtp => exact absurd trivial keyless

section
variable {opt : SrtpSetting} (created : pjmediaTransportSrtpCreate opt = .ok srtp)
include created

/-- A transport is created without a session and without policies. -/
theorem create_fields :
    srtp.use = opt.use ∧ srtp.bypassSrtp = false ∧ srtp.sessionInited = false ∧
      srtp.txPolicyNeg = .zero := by
  unfold pjmediaTransportSrtpCreate at created
  by_cases disabled : opt.use = .disabled
  · rw [if_pos disabled] at created
    cases created
    exact ⟨rfl, rfl, rfl, rfl⟩
  · rw [if_neg disabled] at created
    cases reset : opt.crypto.mapM resetCrypto with
    | error failed =>
      rw [reset] at created
      cases created
    | ok crypto =>
      rw [reset] at created
      cases created
      exact ⟨rfl, rfl, rfl, rfl⟩

theorem guarded_create (use : opt.use = .mandatory)
    (suites : ∀ crypto ∈ srtp.crypto, crypto.name ≠ nullName ∧ crypto.flags = 0) :
    Guarded srtp := by
  have ⟨sameUse, bypass, idle, neg⟩ := create_fields created
  have proper := proper_create created
  refine ⟨sameUse.trans use, proper, ?_, bypass, ?_, ?_⟩
  · intro crypto member
    have ⟨named, flags⟩ := suites crypto member
    refine ⟨flags, ?_⟩
    have ⟨suite, inTable, name, _⟩ := proper crypto member
    have ⟨idx, found, _, null⟩ := getCryptoIdx_suite inTable
    rw [name] at named ⊢
    rw [found]
    intro zero
    exact named (null.mp (some.inj zero))
  · intro keyed
    rw [neg] at keyed
    cases keyed
  · intro inited
    exact absurd (idle.symm.trans inited) Bool.false_ne_true

end

/-- In the runs of a mandatory transport without `NULL` and without flags, SRTP is never bypassed, and
all packets are protected, exactly if no start of media finds an empty policy. -/
theorem mandatory_protected_iff {opt : SrtpSetting} {start : TransportSrtp}
    (created : pjmediaTransportSrtpCreate opt = .ok start) (use : opt.use = .mandatory)
    (suites : ∀ crypto ∈ start.crypto, crypto.name ≠ nullName ∧ crypto.flags = 0)
    (events : List Event) :
    Run.Always next (fun state => ∀ srtp ∈ state, Protected srtp) (some start) events ↔
      Run.Meets next (fun state event => ∀ srtp ∈ state, FindsKeys srtp event) (some start) events := by
  refine @Run.always_iff _ _ next _ (fun state => ∀ srtp ∈ state, Guarded srtp) _ ?_ ?_ ?_ _ _ ?_
  · intro state event guarded keys srtp member
    have ⟨before, here, done⟩ := bind_eq_some_iff.mp member
    exact guarded_step (guarded before here) (keys before here) done
  · exact fun state guarded srtp member => protected_of_bypass (guarded srtp member).bypass
  · intro state event guarded keyless safe
    apply keyless
    intro before here
    by_contra unkeyed
    have ⟨after, done, bypass⟩ := bypass_step (guarded before here) unkeyed
    have reached : next state event = some after := bind_eq_some_iff.mpr ⟨before, here, done⟩
    have hidden := (safe after reached).bypass
    rw [bypass] at hidden
    cases hidden
  · intro srtp member
    cases member
    exact guarded_create created use suites

/-- A mandatory setting with one suite. -/
def mandatorySetting : SrtpSetting where
  use := .mandatory
  crypto := [⟨[], ofChars "AES_256_CM_HMAC_SHA1_80".toList, 0⟩]
  fits := by decide

/-- A line of audio that is protected, with the attributes of crypto that have the values. -/
def protectedLine (values : List Str) : SdpMedia where
  media := ofChars "audio".toList
  port := 4000
  portCount := 1
  transport := idRtpSavp
  fmt := [[48]]
  conn := none
  bandw := []
  attr := values.map fun value => ⟨idCrypto, value⟩

/-- A generator of keys of ones. -/
def onesSource : KeySource where
  key _ length := List.replicate length 1
  length_key _ _ := length_replicate
  nonzero _ _ := by simp

/-- A library whose functions succeed. -/
def idleLibsrtp : Libsrtp where
  create _ := srtpErrStatusOk
  protect pkt := (srtpErrStatusOk, pkt)
  protectRtcp pkt := (srtpErrStatusOk, pkt)
  unprotect _ pkt := (srtpErrStatusOk, pkt)
  unprotectRtcp pkt := (srtpErrStatusOk, pkt)

theorem mandatory_protected_sample : ∃ start,
    pjmediaTransportSrtpCreate mandatorySetting = .ok start ∧
      (Run.Always next (fun state => ∀ srtp ∈ state, Protected srtp) (some start)
          [.mediaCreate 0 none, .encodeSdp onesSource 0 (protectedLine []) none, .mediaStop] ↔
        Run.Meets next (fun state event => ∀ srtp ∈ state, FindsKeys srtp event) (some start)
          [.mediaCreate 0 none, .encodeSdp onesSource 0 (protectedLine []) none, .mediaStop]) := by
  obtain ⟨start, created, suites⟩ : ∃ start, pjmediaTransportSrtpCreate mandatorySetting = .ok start ∧
      ∀ crypto ∈ start.crypto, crypto.name ≠ nullName ∧ crypto.flags = 0 :=
    ⟨_, rfl, by decide⟩
  exact ⟨start, created, mandatory_protected_iff created rfl suites _⟩

/-- An offer with a suite, and an answer with a crypto of that suite whose key is padding only. -/
def keylessRun : List Event :=
  [.mediaCreate 0 none, .encodeSdp onesSource 0 (protectedLine []) none,
    .mediaStart idleLibsrtp 0
      (protectedLine [cryptoText 1 (cryptoSuite 1).name (Base64.encodeFrom (List.replicate 46 1))])
      (protectedLine [ofChars "1 AES_256_CM_HMAC_SHA1_80 inline:=".toList])]

set_option maxRecDepth 10000 in
theorem keylessRun_bypasses : ∃ start, pjmediaTransportSrtpCreate mandatorySetting = .ok start ∧
    (∀ crypto ∈ start.crypto, crypto.name ≠ nullName ∧ crypto.flags = 0) ∧
    (keylessRun.foldl next (some start)).map TransportSrtp.bypassSrtp = some true :=
  ⟨_, rfl, by decide, rfl⟩

theorem mandatory_bypassed : ∃ start, pjmediaTransportSrtpCreate mandatorySetting = .ok start ∧
    (∀ crypto ∈ start.crypto, crypto.name ≠ nullName ∧ crypto.flags = 0) ∧
    ¬Run.Always next (fun state => ∀ srtp ∈ state, Protected srtp) (some start) keylessRun := by
  have ⟨start, created, suites, bypassed⟩ := keylessRun_bypasses
  refine ⟨start, created, suites, fun always => ?_⟩
  have ⟨srtp, reached, bypass⟩ := map_eq_some_iff.mp bypassed
  have hidden := (always.last srtp reached).bypass
  rw [bypass] at hidden
  cases hidden

end Pjmedia.Srtp
