import Pjproject.Pjlib.ByteOrder
import Pjproject.Rtp.SeqSession

/-!
# RTCP sessions

A session keeps a sender report and a receiver report and fills in one of them when a report is
due. The times that the source asks the system for are arguments. Statistics that no report
reads are left out.
-/

namespace Pjmedia.Rtp
open Pj

/-- `pjmedia_rtcp_sr`, in network order. -/
structure RtcpSr where
  /-- NTP time, seconds part. -/
  ntpSec : UInt32
  /-- NTP time, fractions part. -/
  ntpFrac : UInt32
  /-- RTP timestamp. -/
  rtpTs : UInt32
  /-- Sender packet count. -/
  senderPcount : UInt32
  /-- Sender octet count. -/
  senderBcount : UInt32
deriving DecidableEq, Repr

/-- `pjmedia_rtcp_rr`, in network order when the report is complete. -/
structure RtcpRr where
  /-- SSRC identification. -/
  ssrc : UInt32
  /-- Fraction lost. -/
  fractLost : UInt8
  /-- Total lost, bits 16 to 23. -/
  totalLost2 : UInt8
  /-- Total lost, bits 8 to 15. -/
  totalLost1 : UInt8
  /-- Total lost, bits 0 to 7. -/
  totalLost0 : UInt8
  /-- Last sequence number. -/
  lastSeq : UInt32
  /-- Jitter. -/
  jitter : UInt32
  /-- Last SR. -/
  lsr : UInt32
  /-- Delay since last SR. -/
  dlsr : UInt32
deriving DecidableEq, Repr

/-- `pjmedia_rtcp_common`. -/
structure RtcpCommon where
  version : Nat
  p : Bool
  count : Nat
  pt : Nat
  length : UInt16
  ssrc : UInt32
deriving DecidableEq, Repr

/-- `pjmedia_rtcp_sr_pkt`. -/
structure RtcpSrPkt where
  common : RtcpCommon
  sr : RtcpSr
  rr : RtcpRr
deriving DecidableEq, Repr

/-- `pjmedia_rtcp_rr_pkt`. -/
structure RtcpRrPkt where
  common : RtcpCommon
  rr : RtcpRr
deriving DecidableEq, Repr

/-- The counters of `pjmedia_rtcp_stream_stat`. -/
structure RtcpStreamStat where
  pkt : UInt32 := 0
  bytes : UInt32 := 0
  discard : UInt32 := 0
  loss : UInt32 := 0
  reorder : UInt32 := 0
  dup : UInt32 := 0
deriving DecidableEq, Repr

/-- `pjmedia_rtcp_session`. -/
structure RtcpSession where
  /-- Cached RTCP SR packet. -/
  rtcpSrPkt : RtcpSrPkt
  /-- Cached RTCP RR packet. -/
  rtcpRrPkt : RtcpRrPkt
  /-- RTCP sequence number control. -/
  seqCtrl : RtpSeqSession
  /-- Last timestamp of a received packet. -/
  rtpLastTs : UInt32
  /-- Clock rate of the stream. -/
  clockRate : UInt32
  /-- Count of packets received. -/
  received : UInt32
  /-- Count of packets expected at the last interval. -/
  expPrior : UInt32
  /-- Count of packets received at the last interval. -/
  rxPrior : UInt32
  /-- Relative transit time of the previous packet. -/
  transit : UInt32
  /-- Scaled jitter. -/
  jitter : UInt32
  /-- Base time, in seconds. -/
  tvBase : UInt32
  /-- Base system timestamp. -/
  tsBase : UInt64
  /-- System timestamp frequency. -/
  tsFreq : UInt64
  /-- Base RTP timestamp. -/
  rtpTsBase : UInt32
  /-- NTP time in the last SR received. -/
  rxLsr : UInt32
  /-- Time when the last SR was received. -/
  rxLsrTime : UInt64
  /-- Peer SSRC. -/
  peerSsrc : UInt32
  /-- Statistics of the encoder stream. -/
  tx : RtcpStreamStat
  /-- Statistics of the decoder stream. -/
  rx : RtcpStreamStat
deriving DecidableEq, Repr

/-- `pjmedia_rtcp_session_setting`, and the times at the start of a session. -/
structure RtcpSessionSetting where
  clockRate : UInt32
  ssrc : UInt32
  rtpTsBase : UInt32
  tvBase : UInt32
  tsBase : UInt64
  tsFreq : UInt64
deriving DecidableEq, Repr

/-- A report block of zeros. -/
def RtcpRr.zero : RtcpRr :=
  { ssrc := 0, fractLost := 0, totalLost2 := 0, totalLost1 := 0, totalLost0 := 0, lastSeq := 0
    jitter := 0, lsr := 0, dlsr := 0 }

/-- `pjmedia_rtcp_init2`. -/
def rtcpInit2 (order : ByteOrder) (settings : RtcpSessionSetting) : RtcpSession :=
  let common : RtcpCommon :=
    { version := 2, p := false, count := 1, pt := 200, length := pjHtons order 12
      ssrc := pjHtonl order settings.ssrc }
  { rtcpSrPkt :=
      { common := common
        sr := { ntpSec := 0, ntpFrac := 0, rtpTs := 0, senderPcount := 0, senderBcount := 0 }
        rr := RtcpRr.zero }
    rtcpRrPkt :=
      { common := { common with pt := 201, length := pjHtons order 7 }, rr := RtcpRr.zero }
    seqCtrl := { maxSeq := 0, cycles := 0, baseSeq := 0, badSeq := 0, probation := 0 }
    rtpLastTs := 0xFFFFFFFF
    clockRate := settings.clockRate
    received := 0, expPrior := 0, rxPrior := 0, transit := 0, jitter := 0
    tvBase := settings.tvBase, tsBase := settings.tsBase, tsFreq := settings.tsFreq
    rtpTsBase := settings.rtpTsBase
    rxLsr := 0, rxLsrTime := 0, peerSsrc := 0, tx := {}, rx := {} }

/-- `rtcp_init_seq`. -/
def rtcpInitSeq (sess : RtcpSession) : RtcpSession :=
  { sess with received := 0, expPrior := 0, rxPrior := 0, transit := 0, jitter := 0 }

/-- `PJMEDIA_RTCP_IGNORE_FIRST_PACKETS`. -/
def ignoreFirstPackets : UInt32 := 25

/-- The jitter of `pjmedia_rtcp_rx_rtp2`, for a packet that arrives `now`. -/
def rtcpUpdateJitter (sess : RtcpSession) (rtpTs : UInt32) (now : UInt64) : RtcpSession :=
  let arrival := (now * sess.clockRate.toUInt64 / sess.tsFreq).toUInt32
  let transit := arrival - rtpTs
  if sess.transit = 0 ∨ sess.received < ignoreFirstPackets then { sess with transit := transit }
  else
    -- The absolute value of an `int` difference.
    let d := transit - sess.transit
    let d := if d < 0x80000000 then d else -d
    { sess with jitter := sess.jitter + (d - ((sess.jitter + 8) >>> 4)), transit := transit }

/-- The sequence number control with which `pjmedia_rtcp_rx_rtp2` meets a packet. -/
def rtcpSeqCtrl (sess : RtcpSession) (seq : UInt32) : RtpSeqSession :=
  if sess.rx.pkt = 0 then seqInit sess.seqCtrl seq.toUInt16 else sess.seqCtrl

/-- The part of `pjmedia_rtcp_rx_rtp2` that counts a packet and updates the sequence number
control. -/
def rtcpCountPacket (sess : RtcpSession) (seqCtrl : RtpSeqSession) (payload : UInt32) :
    RtcpSession :=
  { sess with
    seqCtrl := seqCtrl
    rx := { sess.rx with pkt := sess.rx.pkt + 1, bytes := sess.rx.bytes + payload } }

/-- The part of `pjmedia_rtcp_rx_rtp2` that counts duplicates and reordered packets. -/
def rtcpCountStatus (sess : RtcpSession) (status : RtpStatus) : RtcpSession :=
  { sess with
    rx := { sess.rx with
      dup := if status.dup then sess.rx.dup + 1 else sess.rx.dup
      reorder :=
        if status.outorder && !status.probation then sess.rx.reorder + 1 else sess.rx.reorder } }

/-- The part of `pjmedia_rtcp_rx_rtp2` for a packet that is not bad: `received`, the lost packets
and the jitter. -/
def rtcpCountGood (sess : RtcpSession) (status : RtpStatus) (rtpTs : UInt32) (now : UInt64) :
    RtcpSession :=
  let lost := if status.diff > 1 then (status.diff - 1).toUInt32 else 0
  let sess :=
    { sess with
      received := sess.received + 1, rx := { sess.rx with loss := sess.rx.loss + lost } }
  let sess :=
    if status.diff = 1 ∧ rtpTs ≠ sess.rtpLastTs then rtcpUpdateJitter sess rtpTs now else sess
  { sess with rtpLastTs := rtpTs }

/-- `pjmedia_rtcp_rx_rtp2` of a packet that arrives `now`. -/
def rtcpRxRtp2 (sess : RtcpSession) (seq rtpTs payload : UInt32) (now : UInt64) : RtcpSession :=
  let (seqCtrl, status) := seqUpdate (rtcpSeqCtrl sess seq) seq.toUInt16
  let sess := rtcpCountPacket sess seqCtrl payload
  let sess := if status.restart then rtcpInitSeq sess else sess
  let sess := rtcpCountStatus sess status
  if status.bad then { sess with rx := { sess.rx with discard := sess.rx.discard + 1 } }
  else rtcpCountGood sess status rtpTs now

/-- `pjmedia_rtcp_tx_rtp`. -/
def rtcpTxRtp (sess : RtcpSession) (bytesPayloadSize : UInt32) : RtcpSession :=
  { sess with
    tx := { sess.tx with pkt := sess.tx.pkt + 1, bytes := sess.tx.bytes + bytesPayloadSize } }

/-- `JAN_1970`. -/
def jan1970 : UInt32 := 2208988800

/-- `pjmedia_rtcp_ntp_rec`. -/
structure RtcpNtpRec where
  hi : UInt32
  lo : UInt32
deriving DecidableEq, Repr

/-- `pjmedia_rtcp_get_ntp_time`. -/
def rtcpGetNtpTime (sess : RtcpSession) (now : UInt64) : RtcpNtpRec :=
  let elapsed := now - sess.tsBase
  { hi := (elapsed / sess.tsFreq).toUInt32 + sess.tvBase + jan1970
    lo := ((elapsed % sess.tsFreq <<< 32) / sess.tsFreq).toUInt32 }

/-- The sender report that `pjmedia_rtcp_build_rtcp` fills in. -/
def rtcpFillSr (order : ByteOrder) (sess : RtcpSession) (ntp : RtcpNtpRec) : RtcpSr :=
  let sec := ntp.hi - sess.tvBase - jan1970
  -- The product with `1000.0` and the quotient are exact enough for the cast to `long`.
  let msec := ntp.lo.toNat * 1000 / 0xFFFFFFFF
  let rtpTs :=
    sess.rtpTsBase + sess.clockRate * sec + UInt32.ofNat (sess.clockRate.toNat * msec / 1000)
  { ntpSec := pjHtonl order ntp.hi
    ntpFrac := pjHtonl order ntp.lo
    rtpTs := pjHtonl order rtpTs
    senderPcount := pjHtonl order sess.tx.pkt
    senderBcount := pjHtonl order sess.tx.bytes }

/-- The report block of the sender report or of the receiver report. -/
def RtcpSession.rr (sess : RtcpSession) (isSr : Bool) : RtcpRr :=
  if isSr then sess.rtcpSrPkt.rr else sess.rtcpRrPkt.rr

/-- A change of one of the report blocks. -/
def RtcpSession.updateRr (sess : RtcpSession) (isSr : Bool) (change : RtcpRr → RtcpRr) :
    RtcpSession :=
  if isSr then { sess with rtcpSrPkt := { sess.rtcpSrPkt with rr := change sess.rtcpSrPkt.rr } }
  else { sess with rtcpRrPkt := { sess.rtcpRrPkt with rr := change sess.rtcpRrPkt.rr } }

/-- The update of `last_seq`, which adds `max_seq` to both report blocks. -/
def rtcpUpdateLastSeq (order : ByteOrder) (sess : RtcpSession) (isSr : Bool) : RtcpSession :=
  let addMaxSeq (rr : RtcpRr) : RtcpRr :=
    { rr with lastSeq := rr.lastSeq + sess.seqCtrl.maxSeq.toUInt32 }
  let sess := sess.updateRr isSr fun rr =>
    { rr with
      ssrc := pjHtonl order sess.peerSsrc, lastSeq := sess.seqCtrl.cycles &&& 0xFFFF0000 }
  let sess :=
    { sess with
      rtcpSrPkt := { sess.rtcpSrPkt with rr := addMaxSeq sess.rtcpSrPkt.rr }
      rtcpRrPkt := { sess.rtcpRrPkt with rr := addMaxSeq sess.rtcpRrPkt.rr } }
  sess.updateRr isSr fun rr => { rr with lastSeq := pjHtonl order rr.lastSeq }

/-- The fraction lost of an interval. -/
def fractLost (expectedInterval receivedInterval : UInt32) : UInt8 :=
  let lostInterval :=
    if expectedInterval ≥ receivedInterval then expectedInterval - receivedInterval else 0
  if expectedInterval = 0 ∨ lostInterval = 0 then 0
  else ((lostInterval <<< 8) / expectedInterval).toUInt8

/-- The delay since the last SR, at the time `now`. -/
def delaySinceLastSr (sess : RtcpSession) (now : UInt64) : UInt32 :=
  ((now <<< 16) / sess.tsFreq - (sess.rxLsrTime <<< 16) / sess.tsFreq).toUInt32

/-- The part of `pjmedia_rtcp_build_rtcp` that fills in a report block, at the time `now`. -/
def rtcpFillRr (order : ByteOrder) (sess : RtcpSession) (isSr : Bool) (now : UInt64) :
    RtcpSession :=
  let sess := rtcpUpdateLastSeq order sess isSr
  let expected := pjHtonl order (sess.rr isSr).lastSeq - sess.seqCtrl.baseSeq
  let expectedInterval := expected - sess.expPrior
  let receivedInterval := sess.received - sess.rxPrior
  let noSr := sess.rxLsrTime = 0 ∨ sess.rxLsr = 0
  { sess with expPrior := expected, rxPrior := sess.received }.updateRr isSr fun rr =>
    { rr with
      jitter := pjHtonl order (sess.jitter >>> 4)
      totalLost2 := (sess.rx.loss >>> 16).toUInt8
      totalLost1 := (sess.rx.loss >>> 8).toUInt8
      totalLost0 := sess.rx.loss.toUInt8
      fractLost := fractLost expectedInterval receivedInterval
      lsr := if noSr then 0 else pjHtonl order sess.rxLsr
      dlsr := if noSr then 0 else pjHtonl order (delaySinceLastSr sess now) }

/-- `pjmedia_rtcp_build_rtcp` at the time `now`, with an NTP time of `ntpNow`: the session, and
whether the report is the sender report. -/
def rtcpBuildRtcp (order : ByteOrder) (sess : RtcpSession) (now ntpNow : UInt64) :
    RtcpSession × Bool :=
  if sess.tx.pkt ≠ pjHtonl order sess.rtcpSrPkt.sr.senderPcount then
    let sr := rtcpFillSr order sess (rtcpGetNtpTime sess ntpNow)
    (rtcpFillRr order { sess with rtcpSrPkt := { sess.rtcpSrPkt with sr := sr } } true now, true)
  else (rtcpFillRr order sess false now, false)

end Pjmedia.Rtp
