import Pjproject.Rtp.ExtendedSeq
import Pjproject.Rtp.Rtcp

/-!
# RTCP report blocks

A run of an RTCP session is extended with what its reports are to say: the extended highest
sequence number at the previous report and the count of packets received since then. The first
report after the base sequence number has been set counts from that number, which a restart sets
anew.
-/

namespace Pjmedia.Rtp
open Pj

/-- The calls on an RTCP session, with the times they see. -/
inductive RtcpCall
  | rxRtp2 (seq rtpTs payload : UInt32) (now : UInt64)
  | txRtp (bytesPayloadSize : UInt32)
  | buildRtcp (now ntpNow : UInt64)
deriving DecidableEq, Repr

/-- A report, and the numbers it is about. -/
structure RtcpReport where
  /-- The highest sequence number it carries. -/
  lastSeq : UInt32
  /-- The fraction lost it carries. -/
  fractLost : UInt8
  /-- The extended highest sequence number. -/
  extended : UInt32
  /-- Packets expected in its interval. -/
  expected : Nat
  /-- Packets received in its interval. -/
  received : Nat
deriving DecidableEq, Repr

/-- The report says what it is to say. -/
def RtcpReport.Right (report : RtcpReport) : Prop :=
  report.lastSeq = report.extended ∧
    report.fractLost.toNat =
      min 255 (256 * (report.expected - report.received) / report.expected)

instance (report : RtcpReport) : Decidable report.Right := inferInstanceAs (Decidable (_ ∧ _))

/-- A session with the account of its intervals. -/
structure Monitor where
  sess : RtcpSession
  /-- The extended highest sequence number at the last report since the base was set. -/
  reported : Option UInt32
  /-- Packets received since then. -/
  interval : Nat
  reports : List RtcpReport
deriving DecidableEq, Repr

/-- A session that has been initialized. -/
def Monitor.start (order : ByteOrder) (settings : RtcpSessionSetting) : Monitor :=
  { sess := rtcpInit2 order settings, reported := none, interval := 0, reports := [] }

/-- The packets expected in the interval: those the extended highest sequence number has advanced
by, or those from the base on. Before any packet there are none. -/
def Monitor.expected (m : Monitor) : Nat :=
  if m.sess.rx.pkt = 0 then 0
  else
    match m.reported with
    | some prior => (extendedSeq m.sess.seqCtrl - prior).toNat
    | none => (extendedSeq m.sess.seqCtrl - m.sess.seqCtrl.baseSeq).toNat + 1

/-- The status of a received packet. -/
def Monitor.status (m : Monitor) (seq : UInt32) : RtpStatus :=
  (seqUpdate (rtcpSeqCtrl m.sess seq) seq.toUInt16).2

/-- The next call of a run. -/
def Monitor.exec (order : ByteOrder) (m : Monitor) : RtcpCall → Monitor
  | .rxRtp2 seq rtpTs payload now =>
    let sess := rtcpRxRtp2 m.sess seq rtpTs payload now
    if (m.status seq).restart then { m with sess := sess, reported := none, interval := 1 }
    else
      { m with
        sess := sess
        interval := if (m.status seq).bad then m.interval else m.interval + 1 }
  | .txRtp bytesPayloadSize => { m with sess := rtcpTxRtp m.sess bytesPayloadSize }
  | .buildRtcp now ntpNow =>
    let (sess, isSr) := rtcpBuildRtcp order m.sess now ntpNow
    { sess := sess
      reported := if m.sess.rx.pkt = 0 then none else some (extendedSeq m.sess.seqCtrl)
      interval := 0
      reports := m.reports ++
        [{ lastSeq := pjHtonl order (sess.rr isSr).lastSeq
           fractLost := (sess.rr isSr).fractLost
           extended := extendedSeq m.sess.seqCtrl
           expected := m.expected
           received := m.interval }] }

/-- A report is due on an interval in which no packet is lost, or, if it is not the first one from
the base on, in which some are received and less than 2²⁴ lost. -/
def Monitor.Countable (m : Monitor) : Prop :=
  m.expected ≤ m.interval ∨
    m.reported.isSome ∧ 0 < m.interval ∧ m.expected < m.interval + 2 ^ 24

/-- A report is countable, and a received packet is not the one that wraps their count. -/
def Monitor.Accepts (m : Monitor) : RtcpCall → Prop
  | .rxRtp2 _ _ _ _ => m.sess.rx.pkt ≠ 0xFFFFFFFF
  | .txRtp _ => True
  | .buildRtcp _ _ => m.Countable

instance (m : Monitor) : Decidable m.Countable :=
  inferInstanceAs (Decidable (_ ∨ _ ∧ _ ∧ _))

instance (m : Monitor) : ∀ c : RtcpCall, Decidable (m.Accepts c)
  | .rxRtp2 _ _ _ _ => inferInstanceAs (Decidable (_ ≠ _))
  | .txRtp _ => .isTrue trivial
  | .buildRtcp _ _ => inferInstanceAs (Decidable m.Countable)

/-! ## Sequence number control -/

/-- The count of cycles has no bits of a sequence number. -/
def WholeCycles (sess : RtpSeqSession) : Prop := sess.cycles.toNat % 2 ^ 16 = 0

theorem seqUpdate_wholeCycles {sess : RtpSeqSession} (whole : WholeCycles sess) (seq : UInt16) :
    WholeCycles (seqUpdate sess seq).1 := by
  have wrapped : (sess.cycles + rtpSeqMod).toNat % 2 ^ 16 = 0 := by
    have cycle : rtpSeqMod.toNat = 2 ^ 16 := by decide
    unfold WholeCycles at whole
    rw [UInt32.toNat_add, cycle]
    omega
  unfold seqUpdate
  dsimp only
  split_ifs
  · exact whole
  · exact whole
  · exact whole
  · exact wrapped
  · exact whole
  · exact rfl
  · exact whole
  · exact whole

/-- A packet restarts the session or leaves the base as it is; the packet of a restart is not
bad. -/
theorem seqUpdate_base (sess : RtpSeqSession) (seq : UInt16) :
    if (seqUpdate sess seq).2.restart then (seqUpdate sess seq).2.bad = false
    else (seqUpdate sess seq).1.baseSeq = sess.baseSeq := by
  unfold seqUpdate
  dsimp only
  split_ifs <;> simp_all

/-- The high bits of the cycles are all of them. -/
theorem wholeCycles_mask {sess : RtpSeqSession} (whole : WholeCycles sess) :
    sess.cycles &&& 0xFFFF0000 = sess.cycles := by
  have bound := sess.cycles.toNat_lt
  have mask : (0xFFFF0000 : UInt32).toNat = (2 ^ 16 - 1) <<< 16 := by decide
  have shifted : sess.cycles.toNat = (sess.cycles.toNat / 2 ^ 16) <<< 16 := by
    unfold WholeCycles at whole
    omega
  apply UInt32.toNat_inj.mp
  rw [UInt32.toNat_and, mask, shifted, ← Nat.shiftLeft_and_distrib, Nat.and_two_pow_sub_one_eq_mod]
  congr 1
  omega

/-! ## What the calls do to the counts -/

/-- The counts of a session that its reports are made of. -/
structure RtcpCounts where
  seqCtrl : RtpSeqSession
  pkt : UInt32
  received : UInt32
  expPrior : UInt32
  rxPrior : UInt32

/-- The counts of a session. -/
def RtcpSession.counts (sess : RtcpSession) : RtcpCounts :=
  { seqCtrl := sess.seqCtrl, pkt := sess.rx.pkt, received := sess.received
    expPrior := sess.expPrior, rxPrior := sess.rxPrior }

section
variable (sess : RtcpSession)
include sess

theorem rtcpUpdateJitter_counts (rtpTs : UInt32) (now : UInt64) :
    (rtcpUpdateJitter sess rtpTs now).counts = sess.counts := by
  unfold rtcpUpdateJitter
  split <;> rfl

theorem rtcpCountGood_counts (status : RtpStatus) (rtpTs : UInt32) (now : UInt64) :
    (rtcpCountGood sess status rtpTs now).counts =
      { sess.counts with received := sess.received + 1 } := by
  unfold rtcpCountGood
  dsimp only
  split
  · exact rtcpUpdateJitter_counts _ rtpTs now
  · rfl

theorem rtcpRxRtp2_counts (seq rtpTs payload : UInt32) (now : UInt64) :
    (rtcpRxRtp2 sess seq rtpTs payload now).counts =
      let update := seqUpdate (rtcpSeqCtrl sess seq) seq.toUInt16
      { seqCtrl := update.1
        pkt := sess.rx.pkt + 1
        received := (if update.2.restart then 0 else sess.received) + if update.2.bad then 0 else 1
        expPrior := if update.2.restart then 0 else sess.expPrior
        rxPrior := if update.2.restart then 0 else sess.rxPrior } := by
  unfold rtcpRxRtp2
  generalize seqUpdate (rtcpSeqCtrl sess seq) seq.toUInt16 = update
  have ⟨seqCtrl, status⟩ := update
  dsimp only
  cases restart : status.restart with
  | true =>
    cases bad : status.bad with
    | true => rfl
    | false => exact rtcpCountGood_counts _ status rtpTs now
  | false =>
    cases bad : status.bad with
    | true => simp [RtcpSession.counts, rtcpCountPacket, rtcpCountStatus]
    | false => exact rtcpCountGood_counts _ status rtpTs now

theorem RtcpSession.updateRr_counts (isSr : Bool) (change : RtcpRr → RtcpRr) :
    (sess.updateRr isSr change).counts = sess.counts := by
  cases isSr <;> rfl

theorem RtcpSession.updateRr_rr (isSr : Bool) (change : RtcpRr → RtcpRr) :
    (sess.updateRr isSr change).rr isSr = change (sess.rr isSr) := by
  cases isSr <;> rfl

end

theorem rtcpUpdateLastSeq_counts (order : ByteOrder) (sess : RtcpSession) (isSr : Bool) :
    (rtcpUpdateLastSeq order sess isSr).counts = sess.counts := by
  cases isSr <;> rfl

section
variable {sess : RtcpSession} (order : ByteOrder) (whole : WholeCycles sess.seqCtrl)
include order whole

/-- The report block that is filled in has the extended highest sequence number. -/
theorem rtcpUpdateLastSeq_lastSeq (isSr : Bool) :
    pjHtonl order ((rtcpUpdateLastSeq order sess isSr).rr isSr).lastSeq =
      extendedSeq sess.seqCtrl := by
  have masked := wholeCycles_mask whole
  unfold rtcpUpdateLastSeq
  rw [RtcpSession.updateRr_rr, pjHtonl_pjHtonl]
  cases isSr <;> exact congrArg (· + sess.seqCtrl.maxSeq.toUInt32) masked

/-- A report block is about the interval between two states of the counts. -/
theorem rtcpFillRr_counts (isSr : Bool) (now : UInt64) :
    (rtcpFillRr order sess isSr now).counts =
        { sess.counts with
          expPrior := extendedSeq sess.seqCtrl - sess.seqCtrl.baseSeq, rxPrior := sess.received } ∧
      pjHtonl order ((rtcpFillRr order sess isSr now).rr isSr).lastSeq = extendedSeq sess.seqCtrl ∧
      ((rtcpFillRr order sess isSr now).rr isSr).fractLost =
        fractLost (extendedSeq sess.seqCtrl - sess.seqCtrl.baseSeq - sess.expPrior)
          (sess.received - sess.rxPrior) := by
  have lastSeq := rtcpUpdateLastSeq_lastSeq order whole isSr
  have counts := rtcpUpdateLastSeq_counts order sess isSr
  unfold rtcpFillRr
  rw [RtcpSession.updateRr_counts, RtcpSession.updateRr_rr]
  generalize rtcpUpdateLastSeq order sess isSr = updated at lastSeq counts
  rw [lastSeq]
  have ⟨seqCtrl, pkt, received, expPrior, rxPrior⟩ := RtcpCounts.mk.inj counts
  rw [seqCtrl, received, expPrior, rxPrior]
  refine ⟨?_, ?_, rfl⟩
  · rw [← counts]
    simp [RtcpSession.counts, seqCtrl, pkt, received, expPrior]
  · cases isSr <;> exact lastSeq

/-- A report is about the interval between two states of the counts. -/
theorem rtcpBuildRtcp_counts (now ntpNow : UInt64) :
    let built := rtcpBuildRtcp order sess now ntpNow
    built.1.counts =
        { sess.counts with
          expPrior := extendedSeq sess.seqCtrl - sess.seqCtrl.baseSeq, rxPrior := sess.received } ∧
      pjHtonl order (built.1.rr built.2).lastSeq = extendedSeq sess.seqCtrl ∧
      (built.1.rr built.2).fractLost =
        fractLost (extendedSeq sess.seqCtrl - sess.seqCtrl.baseSeq - sess.expPrior)
          (sess.received - sess.rxPrior) := by
  unfold rtcpBuildRtcp
  split
  · exact rtcpFillRr_counts order whole true now
  · exact rtcpFillRr_counts order whole false now

end

/-! ## The account -/

variable {m : Monitor}

/-- The fraction lost of an interval in which nothing is lost. -/
theorem fractLost_none {expected received : UInt32} (none : expected ≤ received) :
    fractLost expected received = 0 := by
  have zero : (if expected ≥ received then expected - received else 0) = 0 := by
    split
    · next least =>
      have same : expected = received := UInt32.le_antisymm none least
      rw [same, UInt32.sub_self]
    · rfl
  rw [fractLost, zero]
  exact if_pos (.inr rfl)

/-- The fraction lost of an interval in which some packets are received and few are lost. -/
theorem fractLost_some {expected received : UInt32} (lost : received < expected)
    (some : 0 < received.toNat) (few : expected.toNat < received.toNat + 2 ^ 24) :
    (fractLost expected received).toNat =
      256 * (expected.toNat - received.toNat) / expected.toNat := by
  have value := UInt32.lt_iff_toNat_lt.mp lost
  have bound := expected.toNat_lt
  have count : (expected - received).toNat = expected.toNat - received.toNat :=
    UInt32.toNat_sub_of_le _ _ (UInt32.le_of_lt lost)
  have shifted : ((expected - received) <<< 8).toNat = 256 * (expected.toNat - received.toNat) := by
    rw [UInt32.toNat_shiftLeft, count, Nat.shiftLeft_eq]
    have eight : (8 : UInt32).toNat % 32 = 8 := by decide
    rw [eight]
    omega
  have least : expected ≥ received := UInt32.le_of_lt lost
  have filled : ¬(expected = 0 ∨ expected - received = 0) := by
    rw [← UInt32.toNat_inj, ← UInt32.toNat_inj, count, UInt32.toNat_zero]
    omega
  have small : 256 * (expected.toNat - received.toNat) / expected.toNat < 256 := by
    rw [Nat.div_lt_iff_lt_mul (by omega)]
    exact Nat.mul_lt_mul_of_pos_left (by omega) (by decide)
  simp only [fractLost, if_pos least, if_neg filled]
  rw [UInt32.toNat_toUInt8, UInt32.toNat_div, shifted]
  exact Nat.mod_eq_of_lt small

/-- The counts of a session are those of the account. -/
structure Monitor.Accounts (m : Monitor) : Prop where
  whole : WholeCycles m.sess.seqCtrl
  empty : m.sess.rx.pkt = 0 →
    m.reported = none ∧ extendedSeq m.sess.seqCtrl = m.sess.seqCtrl.baseSeq
  received : m.sess.received.toNat = m.sess.rxPrior.toNat + m.interval
  bound : m.sess.received.toNat ≤ m.sess.rx.pkt.toNat
  first : m.reported = none → m.sess.expPrior = 0
  prior : ∀ prior ∈ m.reported, m.sess.expPrior = prior - m.sess.seqCtrl.baseSeq
  right : ∀ report ∈ m.reports, report.Right

theorem Monitor.start_accounts (order : ByteOrder) (settings : RtcpSessionSetting) :
    (Monitor.start order settings).Accounts where
  whole := rfl
  empty _ := ⟨rfl, rfl⟩
  received := rfl
  bound := Nat.le_refl 0
  first _ := rfl
  prior := nofun
  right := nofun

/-- A count that has not reached its end is incremented. -/
theorem toNat_succ {count : UInt32} (more : count ≠ 0xFFFFFFFF) :
    (count + 1).toNat = count.toNat + 1 := by
  have bound := count.toNat_lt
  have differ : count.toNat ≠ 2 ^ 32 - 1 := fun same => more (UInt32.toNat_inj.mp same)
  rw [UInt32.toNat_add, UInt32.toNat_one]
  omega

section
variable (h : m.Accounts)
include h

/-- The first packet initializes the sequence number control. -/
theorem Monitor.Accounts.seqCtrl_whole (seq : UInt32) : WholeCycles (rtcpSeqCtrl m.sess seq) := by
  unfold rtcpSeqCtrl
  split
  · exact rfl
  · exact h.whole

/-- The account of a received packet. -/
theorem Monitor.Accounts.rx (order : ByteOrder) (seq rtpTs payload : UInt32) (now : UInt64)
    (more : m.sess.rx.pkt ≠ 0xFFFFFFFF) :
    (m.exec order (.rxRtp2 seq rtpTs payload now)).Accounts := by
  have whole := seqUpdate_wholeCycles (h.seqCtrl_whole seq) seq.toUInt16
  have base := seqUpdate_base (rtcpSeqCtrl m.sess seq) seq.toUInt16
  have counts := rtcpRxRtp2_counts m.sess seq rtpTs payload now
  have counted := toNat_succ more
  have bound := h.bound
  have received := h.received
  have status : m.status seq = (seqUpdate (rtcpSeqCtrl m.sess seq) seq.toUInt16).2 := rfl
  dsimp only [Monitor.exec] at counts ⊢
  rw [← status] at base counts
  generalize rtcpRxRtp2 m.sess seq rtpTs payload now = sess' at counts ⊢
  have ⟨seqCtrl', pkt', received', expPrior', rxPrior'⟩ := RtcpCounts.mk.inj counts
  rw [← seqCtrl'] at whole
  have filled : sess'.rx.pkt ≠ 0 := by
    intro empty
    rw [pkt'] at empty
    rw [empty, UInt32.toNat_zero] at counted
    omega
  by_cases restart : (m.status seq).restart = true
  · rw [if_pos restart] at base received' expPrior' rxPrior'
    rw [base, if_neg Bool.false_ne_true] at received'
    have one : sess'.received.toNat = 1 := by
      rw [received']
      rfl
    rw [if_pos restart]
    exact
      { whole := whole
        empty := fun empty => absurd empty filled
        received := by simp only [one, rxPrior', UInt32.toNat_zero]
        bound := by
          simp only [one, pkt', counted]
          omega
        first := fun _ => expPrior'
        prior := nofun
        right := h.right }
  · rw [if_neg restart] at base received' expPrior' rxPrior'
    rw [if_neg restart]
    have next : sess'.received.toNat = m.sess.received.toNat +
        if (m.status seq).bad then 0 else 1 := by
      rw [received']
      split
      · rw [UInt32.add_zero, Nat.add_zero]
      · have less : m.sess.received ≠ 0xFFFFFFFF := by
          intro same
          have total := m.sess.rx.pkt.toNat_lt
          have last : m.sess.received.toNat = 2 ^ 32 - 1 := by rw [same]; rfl
          exact more (UInt32.toNat_inj.mp (show m.sess.rx.pkt.toNat = 2 ^ 32 - 1 by omega))
        exact toNat_succ less
    refine
      { whole := whole
        empty := fun empty => absurd empty filled
        received := ?_
        bound := ?_
        first := fun none => expPrior'.trans (h.first none)
        prior := ?_
        right := h.right }
    · simp only [next, rxPrior', received]
      split <;> omega
    · simp only [next, pkt', counted]
      split <;> omega
    · intro prior reported
      have ready : m.sess.rx.pkt ≠ 0 := by
        intro empty
        rw [(h.empty empty).1] at reported
        contradiction
      have same : rtcpSeqCtrl m.sess seq = m.sess.seqCtrl := if_neg ready
      simp only [expPrior', seqCtrl', base]
      rw [same]
      exact h.prior prior reported

/-- The count of packets received in an interval. -/
theorem Monitor.Accounts.interval : (m.sess.received - m.sess.rxPrior).toNat = m.interval := by
  have received := h.received
  have least : m.sess.rxPrior ≤ m.sess.received := UInt32.le_iff_toNat_le.mpr (by omega)
  rw [UInt32.toNat_sub_of_le _ _ least]
  omega

/-- The fraction lost of a countable interval. -/
theorem Monitor.Accounts.fractLost (countable : m.Countable) :
    (fractLost (extendedSeq m.sess.seqCtrl - m.sess.seqCtrl.baseSeq - m.sess.expPrior)
      (m.sess.received - m.sess.rxPrior)).toNat =
        min 255 (256 * (m.expected - m.interval) / m.expected) := by
  have interval := h.interval
  -- The source does not count the base itself, which matters in the first interval only.
  have count : (extendedSeq m.sess.seqCtrl - m.sess.seqCtrl.baseSeq - m.sess.expPrior).toNat ≤
      m.expected ∧ (m.reported.isSome → m.expected =
        (extendedSeq m.sess.seqCtrl - m.sess.seqCtrl.baseSeq - m.sess.expPrior).toNat) := by
    unfold Monitor.expected
    by_cases empty : m.sess.rx.pkt = 0
    · obtain ⟨none, base⟩ := h.empty empty
      rw [if_pos empty, h.first none, base, UInt32.sub_self, none]
      exact ⟨Nat.le_refl 0, nofun⟩
    · rw [if_neg empty]
      cases reported : m.reported with
      | none =>
        rw [h.first reported, UInt32.sub_zero]
        exact ⟨Nat.le_succ _, nofun⟩
      | some prior =>
        have advanced : extendedSeq m.sess.seqCtrl - m.sess.seqCtrl.baseSeq - m.sess.expPrior =
            extendedSeq m.sess.seqCtrl - prior := by
          rw [h.prior prior reported]
          grind
        rw [advanced]
        exact ⟨Nat.le_refl _, fun _ => rfl⟩
  have ⟨least, same⟩ := count
  generalize extendedSeq m.sess.seqCtrl - m.sess.seqCtrl.baseSeq - m.sess.expPrior = expected
    at least same ⊢
  by_cases none : m.expected ≤ m.interval
  · have zero : m.expected - m.interval = 0 := by omega
    rw [fractLost_none (UInt32.le_iff_toNat_le.mpr (by omega)), zero, Nat.mul_zero, Nat.zero_div]
    rfl
  · obtain ⟨some, positive, few⟩ := countable.resolve_left none
    have value := same some
    rw [fractLost_some (UInt32.lt_iff_toNat_lt.mpr (by omega)) (by omega) (by omega), interval,
      ← value]
    have small : 256 * (m.expected - m.interval) / m.expected < 256 := by
      rw [Nat.div_lt_iff_lt_mul (by omega)]
      exact Nat.mul_lt_mul_of_pos_left (by omega) (by decide)
    omega

/-- The account of a report. -/
theorem Monitor.Accounts.build (order : ByteOrder) (now ntpNow : UInt64) (countable : m.Countable) :
    (m.exec order (.buildRtcp now ntpNow)).Accounts := by
  have ⟨counts, lastSeq, fract⟩ := rtcpBuildRtcp_counts order h.whole now ntpNow
  dsimp only [Monitor.exec]
  generalize rtcpBuildRtcp order m.sess now ntpNow = built at counts lastSeq fract ⊢
  have ⟨sess', isSr⟩ := built
  obtain ⟨seqCtrl', pkt', received', expPrior', rxPrior'⟩ :
      sess'.seqCtrl = m.sess.seqCtrl ∧ sess'.rx.pkt = m.sess.rx.pkt ∧
        sess'.received = m.sess.received ∧
        sess'.expPrior = extendedSeq m.sess.seqCtrl - m.sess.seqCtrl.baseSeq ∧
        sess'.rxPrior = m.sess.received := RtcpCounts.mk.inj counts
  refine
    { whole := by rw [seqCtrl']; exact h.whole
      empty := ?_
      received := by simp only [received', rxPrior', Nat.add_zero]
      bound := by rw [received', pkt']; exact h.bound
      first := ?_
      prior := ?_
      right := ?_ }
  · intro empty
    rw [pkt'] at empty
    rw [seqCtrl']
    exact ⟨if_pos empty, (h.empty empty).2⟩
  · intro none
    have empty : m.sess.rx.pkt = 0 := by
      by_contra filled
      rw [if_neg filled] at none
      contradiction
    rw [expPrior', (h.empty empty).2, UInt32.sub_self]
  · intro prior reported
    rw [Option.mem_def, Option.ite_none_left_eq_some, Option.some.injEq] at reported
    rw [expPrior', seqCtrl', reported.2]
  · intro report member
    rcases List.mem_append.mp member with earlier | last
    · exact h.right report earlier
    · rw [List.mem_singleton.mp last]
      refine ⟨lastSeq, ?_⟩
      rw [fract]
      exact h.fractLost countable

/-- One call that meets the condition keeps the account. -/
theorem Monitor.Accounts.exec (order : ByteOrder) {c : RtcpCall} (accepts : m.Accepts c) :
    (m.exec order c).Accounts := by
  cases c with
  | rxRtp2 seq rtpTs payload now => exact h.rx order seq rtpTs payload now accepts
  | txRtp bytesPayloadSize =>
    exact
      { whole := h.whole, empty := h.empty, received := h.received, bound := h.bound
        first := h.first, prior := h.prior, right := h.right }
  | buildRtcp now ntpNow => exact h.build order now ntpNow accepts

end

/-- Along every run whose reports are countable, each report carries the extended highest sequence
number and the fraction lost of its interval. -/
theorem reports_right (order : ByteOrder) (settings : RtcpSessionSetting) {calls : List RtcpCall}
    (accepts : Run.Meets (Monitor.exec order) Monitor.Accepts (Monitor.start order settings)
      calls) :
    Run.Always (Monitor.exec order) (fun m => ∀ report ∈ m.reports, report.Right)
      (Monitor.start order settings) calls :=
  (Run.always (fun _ _ h accepts => h.exec order accepts) (Monitor.start_accounts order settings)
    accepts).imp fun _ h => h.right

/-- A session of 8000 samples a second. -/
def sampleSetting : RtcpSessionSetting :=
  { clockRate := 8000, ssrc := 1, rtpTsBase := 0, tvBase := 0, tsBase := 0, tsFreq := 1000 }

/-- Received packets, one for each sequence number. -/
def rxCalls (seqs : List UInt32) : List RtcpCall := seqs.map fun seq => .rxRtp2 seq (seq * 160) 160 0

/-- A packet is lost before the first report, which says that none is. -/
theorem reports_right_first : ¬Run.Always (Monitor.exec .little)
    (fun m => ∀ report ∈ m.reports, report.Right) (Monitor.start .little sampleSetting)
    (rxCalls [10, 11, 13] ++ [.buildRtcp 5000 5000]) := by
  intro right
  have last := right.last
  revert last
  decide +kernel

/-- A packet is lost before the second report. -/
theorem reports_right_second : Run.Always (Monitor.exec .little)
    (fun m => ∀ report ∈ m.reports, report.Right) (Monitor.start .little sampleSetting)
    (rxCalls [10, 11] ++ .buildRtcp 5000 5000 :: .txRtp 160 :: rxCalls [12, 14] ++
      [.buildRtcp 10000 10000]) :=
  reports_right .little sampleSetting (by decide +kernel)

end Pjmedia.Rtp
