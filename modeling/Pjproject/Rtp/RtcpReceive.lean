import Pjproject.Rtp.RtcpSdes

/-!
# Receiving RTCP packets

`pjmedia_rtcp_rx_rtcp` and the parsers that it calls for the packets of a compound, and the
statistics of received RTP packets. The mean of a statistic is a floating point number, and any
function here. The times that the source asks the system for are arguments.
-/

namespace Pjmedia.Rtp
open Pj Traced

/-! ## Statistics -/

/-- `pj_math_stat`. -/
structure MathStat where
  /-- Number of samples. -/
  n : Nat
  max : Int
  min : Int
  /-- The last sample. -/
  last : Int
  mean : Int
deriving DecidableEq, Repr

/-- What a session keeps of the statistics and of its peer, with the round trip times that the
source calls `rtt`. -/
structure RtcpReceiver where
  sess : RtcpSession
  /-- Average packet size, in samples. -/
  pktSize : UInt32
  txLossPeriod : MathStat
  txJitter : MathStat
  rxLossPeriod : MathStat
  rxJitter : MathStat
  rtt : MathStat
  peer : PeerSdes
  /-- The NACKs that have been published; one without entries is not initialized. -/
  nacks : List (Option RtcpFbNack)

/-- `pj_math_stat_init`. -/
def mathStatInit : MathStat := { n := 0, max := 0, min := 0, last := 0, mean := 0 }

/-- `pjmedia_rtcp_init2`, for packets of `samplesPerFrame`. -/
def RtcpReceiver.init2 (order : ByteOrder) (settings : RtcpSessionSetting)
    (samplesPerFrame : UInt32) : RtcpReceiver :=
  { sess := rtcpInit2 order settings, pktSize := samplesPerFrame
    txLossPeriod := mathStatInit, txJitter := mathStatInit
    rxLossPeriod := mathStatInit, rxJitter := mathStatInit, rtt := mathStatInit
    peer := { sdes := RtcpSdes.zero, buf := fun _ => 0 }, nacks := [] }

/-- The times at the reception of a packet: `pj_get_timestamp`, and the one that the NTP time is
taken from. -/
structure RtcpClock where
  now : UInt64
  ntpNow : UInt64
deriving DecidableEq, Repr

variable (mean : MathStat → Int → Int)

/-- `pj_math_stat_update`. -/
def MathStat.feed (stat : MathStat) (val : Int) : MathStat :=
  { n := stat.n + 1
    max := if stat.n = 0 then val else if stat.max < val then val else stat.max
    min := if stat.n = 0 then val else if stat.min > val then val else stat.min
    last := val
    mean := mean stat val }

/-- `pj_math_stat_update` of an `unsigned`, which is passed as an `int`. -/
def mathStatUpdate (stat : MathStat) (val : UInt32) : MathStat := stat.feed mean (i32 val.toNat)

/-- A loss period in microseconds. -/
def lossPeriod (count pktSize clockRate : UInt32) : UInt32 :=
  count * pktSize * 1000 / clockRate * 1000

/-- A jitter in microseconds, which is exact below `limit` and in milliseconds from there on. -/
def jitterUsec (limit jitter clockRate : UInt32) : UInt32 :=
  if jitter < limit then jitter * 1000000 / clockRate else jitter * 1000 / clockRate * 1000

/-- The statistics of `pjmedia_rtcp_rx_rtp2`. -/
def rtcpRxRtp2Stat (r : RtcpReceiver) (seq rtpTs payload : UInt32) (now : UInt64) :
    RtcpReceiver :=
  let status := (seqUpdate (rtcpSeqCtrl r.sess seq) seq.toUInt16).2
  let sess := rtcpRxRtp2 r.sess seq rtpTs payload now
  if status.bad then { r with sess := sess }
  else
    let count := (status.diff - 1).toUInt32
    let period := lossPeriod count r.pktSize r.sess.clockRate
    let r :=
      if status.diff > 1 then { r with rxLossPeriod := mathStatUpdate mean r.rxLossPeriod period }
      else r
    let before := if status.restart then rtcpInitSeq r.sess else r.sess
    if status.diff = 1 ∧ rtpTs ≠ r.sess.rtpLastTs then
      if before.transit = 0 ∨ before.received + 1 < ignoreFirstPackets then
        { r with sess := sess, rxJitter := { r.rxJitter with min := -1 } }
      else
        let jitter := jitterUsec 4294 (sess.jitter >>> 4) r.sess.clockRate
        { r with sess := sess, rxJitter := mathStatUpdate mean r.rxJitter jitter }
    else { r with sess := sess }

/-- The part of `parse_rtcp_report` for the packets that the peer has lost. -/
def receiveLoss (r : RtcpReceiver) (loss : UInt32) : RtcpReceiver :=
  let lastLoss := r.sess.tx.loss
  let r := { r with sess := { r.sess with tx := { r.sess.tx with loss := loss } } }
  if loss > lastLoss then
    { r with
      txLossPeriod := mathStatUpdate mean r.txLossPeriod
        (lossPeriod (loss - lastLoss) r.pktSize r.sess.clockRate) }
  else r

/-- The part of `parse_rtcp_report` for the jitter of the peer. -/
def receiveJitter (r : RtcpReceiver) (jitter : UInt32) : RtcpReceiver :=
  { r with txJitter := mathStatUpdate mean r.txJitter (jitterUsec 4295 jitter r.sess.clockRate) }

/-- The delay of a round trip in microseconds. -/
def eeDelay (now lsr dlsr : UInt32) : UInt64 :=
  let eedelay := (now - lsr - dlsr).toUInt64
  if eedelay < 4294 then (eedelay * 1000000) >>> 16 else ((eedelay * 1000) >>> 16) * 1000

/-- The part of `parse_rtcp_report` for the round trip time. -/
def receiveRtt (clock : RtcpClock) (r : RtcpReceiver) (lsr dlsr : UInt32) : RtcpReceiver :=
  let ntp := rtcpGetNtpTime r.sess clock.ntpNow
  let now := ((ntp.hi &&& 0xFFFF) <<< 16) + (ntp.lo >>> 16)
  if now - dlsr < lsr ∨ eeDelay now lsr dlsr > 30000000 then r
  else
    let rtt := (eeDelay now lsr dlsr).toUInt32
    -- An exceptionally high time is taken as three times the average.
    let most := UInt32.ofInt r.rtt.mean * 3
    { r with rtt := mathStatUpdate mean r.rtt (if rtt > most ∧ r.rtt.n ≠ 0 then most else rtt) }

/-! ## Parsers -/

variable (mem : Nat → UInt8)

/-- A byte of a packet. -/
def packetByte (address : Nat) : RtcpParser Nat := access [.read address] (mem address).toNat

/-- The word of four bytes in network order. -/
def netWord32 (address : Nat) : UInt32 :=
  UInt32.ofNat ((netWord mem address).toNat * 65536 + (netWord mem (address + 2)).toNat)

/-- Some consecutive bytes of a packet. -/
def packetReads {α : Type} (address count : Nat) (value : α) : RtcpParser α :=
  access ((List.range count).map fun i => .read (address + i)) value

/-- The sender report at `sr`. -/
def receiveSr (clock : RtcpClock) (r : RtcpReceiver) (sr : Nat) : RtcpParser RtcpReceiver := do
  let ntpSec ← packetReads sr 4 (netWord32 mem sr)
  let ntpFrac ← packetReads (sr + 4) 4 (netWord32 mem (sr + 4))
  return { r with
    sess := { r.sess with
      rxLsr := ((ntpSec &&& 0xFFFF) <<< 16) ||| ((ntpFrac >>> 16) &&& 0xFFFF)
      rxLsrTime := clock.now } }

/-- The cumulative loss of the report block at `rr`. -/
def totalLost (rr : Nat) : UInt32 :=
  (mem (rr + 5)).toUInt32 <<< 16 + (mem (rr + 6)).toUInt32 <<< 8 + (mem (rr + 7)).toUInt32

/-- The report block at `rr`. -/
def receiveRr (clock : RtcpClock) (r : RtcpReceiver) (rr : Nat) : RtcpParser RtcpReceiver := do
  let loss ← packetReads (rr + 5) 3 (totalLost mem rr)
  let jitter ← packetReads (rr + 12) 4 (netWord32 mem (rr + 12))
  let r := receiveJitter mean (receiveLoss mean r loss) jitter
  let lsr ← packetReads (rr + 16) 4 (netWord32 mem (rr + 16))
  if lsr = 0 then return r
  else
    let dlsr ← packetReads (rr + 20) 4 (netWord32 mem (rr + 20))
    if dlsr = 0 then return r else return receiveRtt mean clock r lsr dlsr

/-- `parse_rtcp_report`, without `PJMEDIA_HAS_RTCP_XR`. -/
def parseRtcpReport (clock : RtcpClock) (r : RtcpReceiver) (pkt size : Nat) :
    RtcpParser RtcpReceiver := do
  let pt ← packetByte mem (pkt + 1)
  if pt = 200 then
    let count ← packetByte mem pkt
    let r ← receiveSr mem clock r (pkt + 8)
    if count % 32 > 0 ∧ size ≥ 52 then receiveRr mean mem clock r (pkt + 28) else return r
  else if pt = 201 then
    let count ← packetByte mem pkt
    if count % 32 > 0 then receiveRr mean mem clock r (pkt + 8) else return r
  else return r

/-- `parse_rtcp_bye`. -/
def parseRtcpBye (r : RtcpReceiver) (pkt size : Nat) : RtcpParser RtcpReceiver := do
  if size > 8 then
    let slen ← packetByte mem (pkt + 8)
    let buf ← copyToSdesBuf mem r.peer.buf 0 (pkt + 9) (min rtcpRxSdesBufLen slen)
    return { r with peer := { r.peer with buf := buf } }
  else return r

/-- `parse_rtcp_fb`, which tries to parse a NACK of one entry. -/
def parseRtcpFb (r : RtcpReceiver) (pkt size : Nat) : RtcpParser RtcpReceiver :=
  let parsed := rtcpFbParseNack mem pkt size 1
  access (parsed.log.map .read) (match parsed.result with
    | .ok nack => { r with nacks := r.nacks ++ [nack.head?] }
    | .error _ => r)

/-- The switch of `pjmedia_rtcp_rx_rtcp`. -/
def rtcpRxPacket (clock : RtcpClock) (r : RtcpReceiver) (pt p len : Nat) :
    RtcpParser RtcpReceiver :=
  if pt = 200 ∨ pt = 201 ∨ pt = 207 then parseRtcpReport mean mem clock r p len
  else if pt = 202 then do
    let peer ← parseRtcpSdes mem p len r.peer
    return { r with peer := peer }
  else if pt = 203 then parseRtcpBye mem r p len
  else if pt = rtcpRtpfb ∨ pt = rtcpPsfb then parseRtcpFb mem r p len
  else return r

/-- `pjmedia_rtcp_rx_rtcp` of a compound packet that ends at `pEnd`, from the packet at `p` on. -/
def rtcpRxRtcp (clock : Nat → RtcpClock) (pEnd p : Nat) (r : RtcpReceiver) :
    RtcpParser RtcpReceiver :=
  if p < pEnd then do
    let length ← packetReads (p + 2) 2 (netWord mem (p + 2)).toNat
    let pt ← packetByte mem (p + 1)
    let r ← rtcpRxPacket mean mem (clock p) r pt p ((length + 1) * 4)
    rtcpRxRtcp clock pEnd (p + (length + 1) * 4) r
  else return r
termination_by pEnd - p

end Pjmedia.Rtp
