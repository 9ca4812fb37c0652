import Pjproject.Rtp.ReceiveBounds

/-!
# The conversions of the RTCP statistics

Loss periods and jitters are converted from samples to microseconds in words of 32 bits. The
products with the count of packets, or with a thousand, wrap around for large gaps and jitters,
and then the quotient is below the one of the exact product.
-/

namespace Pjmedia.Rtp
open Pj Traced

variable (mean : MathStat → Int → Int)

/-! ## What the statistics should be fed -/

/-- A loss period in microseconds, to the millisecond. -/
def exactPeriod (count pktSize clockRate : Nat) : Nat := count * pktSize * 1000 / clockRate * 1000

/-- A jitter in microseconds, from `limit` on to the millisecond. -/
def exactJitter (limit jitter clockRate : Nat) : Nat :=
  if jitter < limit then jitter * 1000000 / clockRate else jitter * 1000 / clockRate * 1000

/-- The statistics of the peer are fed what the report block at `rr` says. -/
def ReportExact (mem : Nat → UInt8) (rr : Nat) (r received : RtcpReceiver) : Prop :=
  received.txLossPeriod =
      (if r.sess.tx.loss < totalLost mem rr then
        r.txLossPeriod.feed mean (exactPeriod (totalLost mem rr - r.sess.tx.loss).toNat
          r.pktSize.toNat r.sess.clockRate.toNat)
      else r.txLossPeriod) ∧
    received.txJitter =
      r.txJitter.feed mean
        (exactJitter 4295 (netWord32 mem (rr + 12)).toNat r.sess.clockRate.toNat)

/-- The status of a packet that `r` receives. -/
def RtcpReceiver.status (r : RtcpReceiver) (seq : UInt32) : RtpStatus :=
  (seqUpdate (rtcpSeqCtrl r.sess seq) seq.toUInt16).2

/-- The receiver detects a gap in front of a packet. -/
def RtcpReceiver.Gap (r : RtcpReceiver) (seq : UInt32) : Prop :=
  (r.status seq).bad = false ∧ 1 < (r.status seq).diff

/-- The receiver measures the jitter with a packet: it is the next one, with another time, and some
have come since the last restart. -/
def RtcpReceiver.Measures (r : RtcpReceiver) (seq rtpTs : UInt32) : Prop :=
  (r.status seq).bad = false ∧ (r.status seq).restart = false ∧ (r.status seq).diff = 1 ∧
    rtpTs ≠ r.sess.rtpLastTs ∧ r.sess.transit ≠ 0 ∧ ¬r.sess.received + 1 < ignoreFirstPackets

/-- The statistics of a received packet are fed the gap in front of it and the jitter. -/
def PacketExact (r : RtcpReceiver) (seq rtpTs : UInt32) (received : RtcpReceiver) : Prop :=
  (r.Gap seq → received.rxLossPeriod =
      r.rxLossPeriod.feed mean (exactPeriod ((r.status seq).diff.toNat - 1) r.pktSize.toNat
        r.sess.clockRate.toNat)) ∧
    (r.Measures seq rtpTs → received.rxJitter =
      r.rxJitter.feed mean
        (exactJitter 4294 (received.sess.jitter.toNat / 16) r.sess.clockRate.toNat))

/-! ## Products of 32 bits -/

/-- The quotient of a product that has wrapped around is below the one of the exact product. -/
theorem wrapped_div_lt {product rate : Nat} (pos : 0 < rate) (bound : rate ≤ 2 ^ 32)
    (wraps : 2 ^ 32 ≤ product) : product % 2 ^ 32 / rate < product / rate := by
  have least : product % 2 ^ 32 + rate ≤ product := by omega
  have quotient : (product % 2 ^ 32 + rate) / rate = product % 2 ^ 32 / rate + 1 :=
    Nat.add_div_right _ pos
  have monotone : (product % 2 ^ 32 + rate) / rate ≤ product / rate := Nat.div_le_div_right least
  omega

/-- A word in milliseconds is fed as the exact microseconds exactly if its product has not wrapped
around. -/
theorem i32_milliseconds_iff {product rate : Nat} (low : 8000 ≤ rate) (high : rate ≤ 2 ^ 32) :
    i32 (product % 2 ^ 32 / rate * 1000 % 2 ^ 32 : Nat) = (product / rate * 1000 : Nat) ↔
      product < 2 ^ 32 := by
  have quotient : product % 2 ^ 32 / rate ≤ 2 ^ 32 / 8000 :=
    Nat.div_le_div (by omega) low (by decide)
  have small : product % 2 ^ 32 / rate ≤ 536870 := quotient
  rw [Nat.mod_eq_of_lt (by omega), i32_natCast (by omega)]
  constructor
  · intro same
    by_contra wraps
    have less := wrapped_div_lt (by omega) high (Nat.not_lt.mp wraps)
    have equal : product % 2 ^ 32 / rate * 1000 = product / rate * 1000 := Int.ofNat.inj same
    omega
  · intro fits
    rw [Nat.mod_eq_of_lt fits]

theorem lossPeriod_exact_iff {count pktSize clockRate : UInt32} (low : 8000 ≤ clockRate.toNat) :
    i32 (lossPeriod count pktSize clockRate).toNat =
        (exactPeriod count.toNat pktSize.toNat clockRate.toNat : Nat) ↔
      count.toNat * pktSize.toNat * 1000 < 2 ^ 32 := by
  have fed : (lossPeriod count pktSize clockRate).toNat =
      count.toNat * pktSize.toNat * 1000 % 2 ^ 32 / clockRate.toNat * 1000 % 2 ^ 32 := by
    simp [lossPeriod]
  rw [fed]
  exact i32_milliseconds_iff low (Nat.le_of_lt clockRate.toNat_lt)

/-- Below the limit no product wraps around. -/
theorem jitterUsec_exact_iff {limit jitter clockRate : UInt32} (low : 8000 ≤ clockRate.toNat)
    (small : limit.toNat ≤ 4295) :
    i32 (jitterUsec limit jitter clockRate).toNat =
        (exactJitter limit.toNat jitter.toNat clockRate.toNat : Nat) ↔
      jitter.toNat * 1000 < 2 ^ 32 := by
  unfold jitterUsec exactJitter
  by_cases below : jitter < limit
  · have bound : jitter.toNat < limit.toNat := UInt32.lt_iff_toNat_lt.mp below
    have fed : (jitter * 1000000 / clockRate).toNat = jitter.toNat * 1000000 / clockRate.toNat := by
      rw [UInt32.toNat_div, UInt32.toNat_mul, UInt32.toNat_ofNat,
        Nat.mod_eq_of_lt (by decide : 1000000 < 2 ^ 32), Nat.mod_eq_of_lt (by omega)]
    have quotient : jitter.toNat * 1000000 / clockRate.toNat ≤ 4295000000 / 8000 :=
      Nat.div_le_div (by omega) low (by decide)
    rw [if_pos below, if_pos bound, fed]
    exact iff_of_true (i32_natCast (by omega)) (by omega)
  · have bound : ¬jitter.toNat < limit.toNat := fun less => below (UInt32.lt_iff_toNat_lt.mpr less)
    have fed : (jitter * 1000 / clockRate * 1000).toNat =
        jitter.toNat * 1000 % 2 ^ 32 / clockRate.toNat * 1000 % 2 ^ 32 := by
      simp
    rw [if_neg below, if_neg bound, fed]
    exact i32_milliseconds_iff low (Nat.le_of_lt clockRate.toNat_lt)

/-- A statistic keeps the last sample, so it tells what it has been fed. -/
theorem MathStat.feed_inj {stat : MathStat} {val other : Int} :
    stat.feed mean val = stat.feed mean other ↔ val = other :=
  ⟨congrArg MathStat.last, congrArg _⟩

/-! ## What the statistics are fed -/

variable {r : RtcpReceiver}

theorem receiveRtt_stats (clock : RtcpClock) (r : RtcpReceiver) (lsr dlsr : UInt32) :
    (receiveRtt mean clock r lsr dlsr).txLossPeriod = r.txLossPeriod ∧
      (receiveRtt mean clock r lsr dlsr).txJitter = r.txJitter := by
  have kept : ∀ (late : Prop) [Decidable late] (rtt : MathStat),
      (if late then r else { r with rtt := rtt }).txLossPeriod = r.txLossPeriod ∧
        (if late then r else { r with rtt := rtt }).txJitter = r.txJitter := by
    intro late _ rtt
    split <;> exact ⟨rfl, rfl⟩
  exact kept _ _

variable {mem : Nat → UInt8}

/-- The statistics that the report block at `rr` updates. -/
theorem receiveRr_stats (clock : RtcpClock) (r : RtcpReceiver) (rr : Nat) :
    ∃ received, (receiveRr mean mem clock r rr).result = .ok received ∧
      received.txLossPeriod =
        (if r.sess.tx.loss < totalLost mem rr then
          mathStatUpdate mean r.txLossPeriod
            (lossPeriod (totalLost mem rr - r.sess.tx.loss) r.pktSize r.sess.clockRate)
        else r.txLossPeriod) ∧
      received.txJitter =
        mathStatUpdate mean r.txJitter
          (jitterUsec 4295 (netWord32 mem (rr + 12)) r.sess.clockRate) := by
  have loss : (receiveLoss mean r (totalLost mem rr)).txLossPeriod =
      if r.sess.tx.loss < totalLost mem rr then
        mathStatUpdate mean r.txLossPeriod
          (lossPeriod (totalLost mem rr - r.sess.tx.loss) r.pktSize r.sess.clockRate)
      else r.txLossPeriod := by
    unfold receiveLoss
    dsimp only
    split <;> rfl
  have others : (receiveLoss mean r (totalLost mem rr)).txJitter = r.txJitter ∧
      (receiveLoss mean r (totalLost mem rr)).sess.clockRate = r.sess.clockRate := by
    unfold receiveLoss
    dsimp only
    split <;> exact ⟨rfl, rfl⟩
  have jitter : (receiveJitter mean (receiveLoss mean r (totalLost mem rr))
        (netWord32 mem (rr + 12))).txJitter =
      mathStatUpdate mean r.txJitter
        (jitterUsec 4295 (netWord32 mem (rr + 12)) r.sess.clockRate) := by
    unfold receiveJitter
    rw [others.1, others.2]
  unfold receiveRr
  rw [result_bind_of_ok (packetReads_result ..), result_bind_of_ok (packetReads_result ..),
    result_bind_of_ok (packetReads_result ..)]
  by_cases lsr : netWord32 mem (rr + 16) = 0
  · rw [if_pos lsr]
    exact ⟨_, rfl, loss, jitter⟩
  rw [if_neg lsr, result_bind_of_ok (packetReads_result ..)]
  by_cases dlsr : netWord32 mem (rr + 20) = 0
  · rw [if_pos dlsr]
    exact ⟨_, rfl, loss, jitter⟩
  · rw [if_neg dlsr]
    have ⟨lossKept, jitterKept⟩ := receiveRtt_stats mean clock
      (receiveJitter mean (receiveLoss mean r (totalLost mem rr)) (netWord32 mem (rr + 12)))
      (netWord32 mem (rr + 16)) (netWord32 mem (rr + 20))
    exact ⟨_, rfl, lossKept.trans loss, jitterKept.trans jitter⟩

/-- The loss and the jitter of a report block do not wrap around when they are converted. -/
def ReportFits (mem : Nat → UInt8) (rr : Nat) (r : RtcpReceiver) : Prop :=
  (r.sess.tx.loss < totalLost mem rr →
      (totalLost mem rr - r.sess.tx.loss).toNat * r.pktSize.toNat * 1000 < 2 ^ 32) ∧
    (netWord32 mem (rr + 12)).toNat * 1000 < 2 ^ 32

theorem reportExact_iff {received : RtcpReceiver} {rr : Nat} (low : 8000 ≤ r.sess.clockRate.toNat)
    (loss : received.txLossPeriod =
      (if r.sess.tx.loss < totalLost mem rr then
        mathStatUpdate mean r.txLossPeriod
          (lossPeriod (totalLost mem rr - r.sess.tx.loss) r.pktSize r.sess.clockRate)
      else r.txLossPeriod))
    (jitter : received.txJitter = mathStatUpdate mean r.txJitter
      (jitterUsec 4295 (netWord32 mem (rr + 12)) r.sess.clockRate)) :
    ReportExact mean mem rr r received ↔ ReportFits mem rr r := by
  unfold ReportExact ReportFits
  rw [loss, jitter]
  apply and_congr
  · by_cases grows : r.sess.tx.loss < totalLost mem rr
    · rw [if_pos grows, if_pos grows, imp_iff_right grows, mathStatUpdate, MathStat.feed_inj]
      exact lossPeriod_exact_iff low
    · rw [if_neg grows, if_neg grows]
      exact iff_of_true rfl fun less => absurd less grows
  · rw [mathStatUpdate, MathStat.feed_inj]
    exact jitterUsec_exact_iff low (Nat.le_refl _)

/-! ## Received packets -/

/-- The scaled jitter after a packet that has a transit time of `transit`. -/
def scaledJitter (jitter previous transit : UInt32) : UInt32 :=
  let d := transit - previous
  let d := if d < 0x80000000 then d else -d
  jitter + (d - ((jitter + 8) >>> 4))

/-- The transit time of a packet. -/
def transitTime (sess : RtcpSession) (rtpTs : UInt32) (now : UInt64) : UInt32 :=
  (now * sess.clockRate.toUInt64 / sess.tsFreq).toUInt32 - rtpTs

/-- The gap in front of a packet and the jitter do not wrap around when they are converted. -/
def PacketFits (r : RtcpReceiver) (seq rtpTs : UInt32) (now : UInt64) : Prop :=
  (r.Gap seq → ((r.status seq).diff.toNat - 1) * r.pktSize.toNat * 1000 < 2 ^ 32) ∧
    (r.Measures seq rtpTs →
      (scaledJitter r.sess.jitter r.sess.transit (transitTime r.sess rtpTs now)).toNat / 16 * 1000 <
        2 ^ 32)

theorem rtcpUpdateJitter_jitter {sess : RtcpSession} {rtpTs : UInt32} {now : UInt64}
    (counted : ¬(sess.transit = 0 ∨ sess.received < ignoreFirstPackets)) :
    (rtcpUpdateJitter sess rtpTs now).jitter =
      scaledJitter sess.jitter sess.transit (transitTime sess rtpTs now) := by
  unfold rtcpUpdateJitter
  rw [if_neg counted]
  rfl

/-- The loss periods after a packet behind a gap. -/
theorem rtcpRxRtp2Stat_gap {seq : UInt32} (gap : r.Gap seq) (rtpTs payload : UInt32)
    (now : UInt64) :
    (rtcpRxRtp2Stat mean r seq rtpTs payload now).rxLossPeriod =
      mathStatUpdate mean r.rxLossPeriod
        (lossPeriod ((r.status seq).diff - 1).toUInt32 r.pktSize r.sess.clockRate) := by
  have ⟨good, ahead⟩ := gap
  have notNext : ¬((r.status seq).diff = 1 ∧ rtpTs ≠ r.sess.rtpLastTs) := by
    rintro ⟨next, _⟩
    rw [next] at ahead
    exact absurd ahead (by decide)
  unfold RtcpReceiver.status at good ahead notNext ⊢
  unfold rtcpRxRtp2Stat
  dsimp only
  rw [if_neg (Bool.eq_false_iff.mp good), if_pos ahead]
  rw [if_neg notNext]

/-- The jitter after a packet that it is measured with. -/
theorem rtcpRxRtp2Stat_measures {seq rtpTs : UInt32} (measures : r.Measures seq rtpTs)
    (payload : UInt32) (now : UInt64) :
    (rtcpRxRtp2Stat mean r seq rtpTs payload now).sess.jitter =
        scaledJitter r.sess.jitter r.sess.transit (transitTime r.sess rtpTs now) ∧
      (rtcpRxRtp2Stat mean r seq rtpTs payload now).rxJitter =
        mathStatUpdate mean r.rxJitter
          (jitterUsec 4294
            (scaledJitter r.sess.jitter r.sess.transit (transitTime r.sess rtpTs now) >>> 4)
            r.sess.clockRate) := by
  have ⟨good, same, next, fresh, started, settled⟩ := measures
  have notGap : ¬(r.status seq).diff > 1 := by
    rw [next]
    decide
  have ignored : ¬(r.sess.transit = 0 ∨ r.sess.received + 1 < ignoreFirstPackets) :=
    not_or.mpr ⟨started, settled⟩
  unfold RtcpReceiver.status at good same next notGap
  have jitter : (rtcpRxRtp2 r.sess seq rtpTs payload now).jitter =
      scaledJitter r.sess.jitter r.sess.transit (transitTime r.sess rtpTs now) := by
    unfold rtcpRxRtp2
    dsimp only
    rw [if_neg (Bool.eq_false_iff.mp good), if_neg (Bool.eq_false_iff.mp same)]
    unfold rtcpCountGood
    dsimp only
    rw [if_pos ⟨next, fresh⟩]
    exact rtcpUpdateJitter_jitter ignored
  unfold rtcpRxRtp2Stat
  dsimp only
  rw [if_neg (Bool.eq_false_iff.mp good), if_neg notGap, if_neg (Bool.eq_false_iff.mp same)]
  rw [if_pos ⟨next, fresh⟩, if_neg ignored]
  exact ⟨jitter, by rw [jitter]⟩

theorem packetExact_iff (low : 8000 ≤ r.sess.clockRate.toNat) (seq rtpTs payload : UInt32)
    (now : UInt64) :
    PacketExact mean r seq rtpTs (rtcpRxRtp2Stat mean r seq rtpTs payload now) ↔
      PacketFits r seq rtpTs now := by
  apply and_congr
  · refine forall_congr' fun gap => ?_
    have count : ((r.status seq).diff - 1).toUInt32.toNat = (r.status seq).diff.toNat - 1 := by
      have ahead : 1 ≤ (r.status seq).diff := UInt16.le_of_lt gap.2
      rw [UInt16.toNat_toUInt32, UInt16.toNat_sub_of_le _ _ ahead]
      rfl
    have exact_iff := @lossPeriod_exact_iff ((r.status seq).diff - 1).toUInt32 r.pktSize _ low
    rw [count] at exact_iff
    rw [rtcpRxRtp2Stat_gap mean gap, mathStatUpdate, MathStat.feed_inj]
    exact exact_iff
  · refine forall_congr' fun measures => ?_
    have ⟨scaled, fed⟩ := rtcpRxRtp2Stat_measures mean measures payload now
    generalize scaledJitter r.sess.jitter r.sess.transit (transitTime r.sess rtpTs now) = jitter at *
    have samples : (jitter >>> 4).toNat = jitter.toNat / 16 := by
      rw [UInt32.toNat_shiftRight, Nat.shiftRight_eq_div_pow]
      rfl
    have exact_iff := @jitterUsec_exact_iff 4294 (jitter >>> 4) _ low (by decide)
    rw [samples] at exact_iff
    rw [scaled, fed, mathStatUpdate, MathStat.feed_inj]
    exact exact_iff

/-- The statistics are fed the exact periods and jitters exactly if no product wraps around. -/
theorem rtcpStatistics_exact_iff {r : RtcpReceiver} (low : 8000 ≤ r.sess.clockRate.toNat)
    (clock : RtcpClock) (rr : Nat) (seq rtpTs payload : UInt32) (now : UInt64) :
    (∃ received, (receiveRr mean mem clock r rr).result = .ok received ∧
        (ReportExact mean mem rr r received ↔ ReportFits mem rr r)) ∧
      (PacketExact mean r seq rtpTs (rtcpRxRtp2Stat mean r seq rtpTs payload now) ↔
        PacketFits r seq rtpTs now) := by
  have ⟨received, result, loss, jitter⟩ := @receiveRr_stats mean mem clock r rr
  exact ⟨⟨received, result, reportExact_iff mean low loss jitter⟩,
    packetExact_iff mean low seq rtpTs payload now⟩

/-- The memory at a report block with a jitter of 4294968 samples. -/
def sampleBlock (address : Nat) : UInt8 := [0x41, 0x89, 0x38].getD (address - 13) 0

theorem rtcpStatistics_exact_sample :
    (∃ received, (receiveRr (fun _ val => val) sampleBlock ⟨0, 0⟩ sampleReceiver 0).result =
          .ok received ∧
        (ReportExact (fun _ val => val) sampleBlock 0 sampleReceiver received ↔
          ReportFits sampleBlock 0 sampleReceiver)) ∧
      (PacketExact (fun _ val => val) sampleReceiver 7 160
          (rtcpRxRtp2Stat (fun _ val => val) sampleReceiver 7 160 160 0) ↔
        PacketFits sampleReceiver 7 160 0) :=
  rtcpStatistics_exact_iff _ (by decide) ⟨0, 0⟩ 0 7 160 160 0

/-- The jitter of a report block wraps around to no jitter at all. -/
theorem rtcpStatistics_wrap :
    ¬∃ received, (receiveRr (fun _ val => val) sampleBlock ⟨0, 0⟩ sampleReceiver 0).result =
        .ok received ∧
      ReportExact (fun _ val => val) sampleBlock 0 sampleReceiver received := by
  rintro ⟨received, result, _, right⟩
  have ⟨same, returned, _, fed⟩ :=
    @receiveRr_stats (fun _ val => val) sampleBlock ⟨0, 0⟩ sampleReceiver 0
  cases result.symm.trans returned
  have jitter := (MathStat.feed_inj _).mp (fed.symm.trans right)
  exact absurd jitter (by decide)

end Pjmedia.Rtp
