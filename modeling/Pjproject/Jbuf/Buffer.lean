import Pjproject.Jbuf.FrameList

/-!
# The jitter buffer

`pjmedia_jbuf` over its frame list: the operations of `jbuf.h`, the jitter calculation and
the two discard algorithms. The statistics `jb_delay` and `jb_burst` are left out: they are
only reported, no operation reads them. The counters of lost, discarded and empty frames
do not wrap here.
-/

namespace Pjmedia.JitterBuffer
open Pj

/-- `PJMEDIA_JB_DEFAULT_INIT_DELAY`. -/
def defaultInitDelay : Nat := 15

/-- `MAX_BURST_MSEC`. -/
def maxBurstMsec : Nat := 1000

/-- `INIT_CYCLE`. -/
def initCycle : Nat := 10

/-- `STA_DISC_SAFE_SHRINKING_DIFF`. -/
def staDiscSafeShrinkingDiff : Int := 1

/-- `STABLE_HISTORY_LIMIT`. -/
def stableHistoryLimit : Int := 20

/-- `PJMEDIA_JBUF_DISC_MIN_GAP`. -/
def discMinGap : Nat := 200

/-- `PJMEDIA_JBUF_PRO_DISC_MIN_BURST`. -/
def proDiscMinBurst : Nat := 1

/-- `PJMEDIA_JBUF_PRO_DISC_MAX_BURST`. -/
def proDiscMaxBurst : Nat := 100

/-- `PJMEDIA_JBUF_PRO_DISC_T1`. -/
def proDiscT1 : Nat := 2000

/-- `PJMEDIA_JBUF_PRO_DISC_T2`. -/
def proDiscT2 : Nat := 10000

/-- `pjmedia_jb_discard_algo`. -/
inductive JbDiscardAlgo
  | none
  | static
  | progressive
deriving DecidableEq, Repr

/-- `enum pjmedia_jb_op`. -/
inductive JbOp
  | init
  | put
  | get
deriving DecidableEq, Repr

/-- `JB_STATUS_INITIALIZING` and `JB_STATUS_PROCESSING`. -/
inductive JbStatus
  | initializing
  | processing
deriving DecidableEq, Repr

/-- `struct pjmedia_jbuf`. -/
structure Jbuf where
  /-- Frame size. -/
  jbFrameSize : Nat
  /-- Frame duration in milliseconds. -/
  jbFramePtime : Nat
  /-- Capacity in frames. -/
  jbMaxCount : Nat
  /-- Initial prefetch. -/
  jbInitPrefetch : Int
  /-- Minimum allowed prefetch. -/
  jbMinPrefetch : Int
  /-- Maximum allowed prefetch. -/
  jbMaxPrefetch : Int
  /-- Maximum burst; a longer one is left out of the level calculation. -/
  jbMaxBurst : Int
  /-- Interval between two shrinkings. -/
  jbMinShrinkGap : Int
  /-- Discard algorithm. -/
  jbDiscardAlgo : JbDiscardAlgo
  /-- The buffer. -/
  jbFramelist : JbFramelist
  /-- Delay between source and destination, from the operations of the current burst. -/
  jbLevel : Int
  /-- Maximum level of the last calculations. -/
  jbMaxHistLevel : Int
  /-- Number of times the delay was below the prefetch delay. -/
  jbStableHist : Int
  /-- Last operation. -/
  jbLastOp : JbOp
  /-- Effective burst level. -/
  jbEffLevel : Int
  /-- Number of frames to insert before any is removed. -/
  jbPrefetch : Int
  /-- Whether the buffer is prefetching. -/
  jbPrefetching : Bool
  /-- Whether the level calculation has started. -/
  jbStatus : JbStatus
  /-- Number of operation switches while initializing. -/
  jbInitCycleCnt : Nat
  /-- Sequence number of the last frame deleted or discarded. -/
  jbDiscardRef : Int
  /-- Distance from `jbDiscardRef` to the next discard, in frames. -/
  jbDiscardDist : Nat
  /-- Number of lost frames. -/
  jbLost : Nat
  /-- Number of discarded frames. -/
  jbDiscard : Nat
  /-- Number of empty or prefetching gets. -/
  jbEmpty : Nat

/-- `jb_min_shrink_gap` for a frame duration. -/
def minShrinkGap (ptime : Nat) : Int := ((discMinGap / ptime : Nat) : Int)

/-- `jb_max_burst` for a frame duration and three quarters of the capacity. -/
def maxBurst (ptime threeQuarters : Nat) : Int :=
  i32 (max (maxBurstMsec / ptime) threeQuarters : Nat)

/-- `pjmedia_jbuf_set_ptime`; a duration of zero is a division by zero in the source. -/
def jbufSetPtime (jb : Jbuf) (ptime : Nat) : Jbuf :=
  { jb with
    jbFramePtime := ptime
    jbMinShrinkGap := minShrinkGap ptime
    jbMaxBurst := maxBurst ptime (jb.jbMaxCount * 3 / 4) }

/-- `pjmedia_jbuf_set_discard`. -/
def jbufSetDiscard (jb : Jbuf) (algo : JbDiscardAlgo) : Jbuf := { jb with jbDiscardAlgo := algo }

/-- The prefetch settings of `pjmedia_jbuf_set_fixed` and `pjmedia_jbuf_set_adaptive`. -/
def setPrefetch (jb : Jbuf) (prefetch minPrefetch maxPrefetch : Int) : Jbuf :=
  { jb with
    jbPrefetch := prefetch, jbInitPrefetch := prefetch
    jbMinPrefetch := minPrefetch, jbMaxPrefetch := maxPrefetch }

@[simp] theorem setPrefetch_framelist (jb : Jbuf) (prefetch minPrefetch maxPrefetch : Int) :
    (setPrefetch jb prefetch minPrefetch maxPrefetch).jbFramelist = jb.jbFramelist := rfl

@[simp] theorem jbufSetDiscard_framelist (jb : Jbuf) (algo : JbDiscardAlgo) :
    (jbufSetDiscard jb algo).jbFramelist = jb.jbFramelist := rfl

/-- `pjmedia_jbuf_set_fixed`. -/
def jbufSetFixed (jb : Jbuf) (prefetch : Nat) : Jbuf × Status :=
  if jb.jbMaxCount < prefetch then (jb, .einval)
  else
    (jbufSetDiscard (setPrefetch jb (i32 prefetch) (i32 prefetch) (i32 prefetch)) .none, .success)

@[simp] theorem jbufSetFixed_framelist (jb : Jbuf) (prefetch : Nat) :
    (jbufSetFixed jb prefetch).1.jbFramelist = jb.jbFramelist := by
  unfold jbufSetFixed
  split <;> simp

/-- `pjmedia_jbuf_set_adaptive`. -/
def jbufSetAdaptive (jb : Jbuf) (prefetch minPrefetch maxPrefetch : Nat) : Jbuf × Status :=
  if minPrefetch ≤ maxPrefetch ∧ prefetch ≤ maxPrefetch ∧ maxPrefetch ≤ jb.jbMaxCount then
    (setPrefetch jb (i32 prefetch) (i32 minPrefetch) (i32 maxPrefetch), .success)
  else (jb, .einval)

@[simp] theorem jbufSetAdaptive_framelist (jb : Jbuf) (prefetch minPrefetch maxPrefetch : Nat) :
    (jbufSetAdaptive jb prefetch minPrefetch maxPrefetch).1.jbFramelist = jb.jbFramelist := by
  unfold jbufSetAdaptive
  split <;> simp

/-- `pjmedia_jbuf_reset`. -/
def jbufReset (jb : Jbuf) : Jbuf :=
  { jb with
    jbLevel := 0
    jbLastOp := .init
    jbStableHist := 0
    jbStatus := .initializing
    jbInitCycleCnt := 0
    jbMaxHistLevel := 0
    jbPrefetching := decide (jb.jbPrefetch ≠ 0)
    jbDiscardDist := 0
    jbFramelist := jbFramelistReset jb.jbFramelist }

/-- `pjmedia_jbuf_create`; `memory` is what the arrays of the frame list hold when they are
allocated, every other field starts as zero. -/
def jbufCreate (memory : Nat → Slot) (frameSize ptime maxCount : Nat) : Jbuf :=
  jbufReset <| jbufSetDiscard
    { jbFramelist := jbFramelistInit memory frameSize maxCount
      jbFrameSize := frameSize
      jbFramePtime := ptime
      jbPrefetch := i32 (min defaultInitDelay (u32 (maxCount * 4 : Nat) / 5) : Nat)
      jbMinPrefetch := 0
      jbMaxPrefetch := i32 (u32 (maxCount * 4 : Nat) / 5 : Nat)
      jbMaxCount := maxCount
      jbMinShrinkGap := minShrinkGap ptime
      jbMaxBurst := maxBurst ptime (u32 (maxCount * 3 : Nat) / 4)
      jbInitPrefetch := 0
      jbDiscardAlgo := .none
      jbLevel := 0, jbMaxHistLevel := 0, jbStableHist := 0, jbLastOp := .init, jbEffLevel := 0
      jbPrefetching := false, jbStatus := .initializing, jbInitCycleCnt := 0, jbDiscardRef := 0
      jbDiscardDist := 0, jbLost := 0, jbDiscard := 0, jbEmpty := 0 }
    .progressive

/-- `pjmedia_jbuf_is_full`. -/
def jbufIsFull (jb : Jbuf) : Bool := jb.jbFramelist.size = jb.jbFramelist.maxCount

/-- The prefetch that `jbuf_calculate_jitter` takes from a lowered effective level. -/
def prefetchLowered (jb : Jbuf) : Jbuf :=
  if jb.jbInitPrefetch ≠ 0 then
    { jb with jbPrefetch := min (max jb.jbEffLevel jb.jbMinPrefetch) jb.jbMaxPrefetch }
  else jb

/-- The prefetch that `jbuf_calculate_jitter` takes from a raised effective level. -/
def prefetchRaised (jb : Jbuf) : Jbuf :=
  if jb.jbInitPrefetch ≠ 0 then
    { jb with jbPrefetch := max (min jb.jbEffLevel jb.jbMaxPrefetch) jb.jbMinPrefetch }
  else jb

/-- `jbuf_calculate_jitter`. -/
def jbufCalculateJitter (jb : Jbuf) : Jbuf :=
  let jb := { jb with jbMaxHistLevel := max jb.jbMaxHistLevel jb.jbLevel }
  if jb.jbLevel < jb.jbEffLevel then
    let jb := { jb with jbStableHist := jb.jbStableHist + 1 }
    if stableHistoryLimit < jb.jbStableHist then
      let diff := max (Int.tdiv (jb.jbEffLevel - jb.jbMaxHistLevel) 3) 1
      let jb := prefetchLowered { jb with jbEffLevel := jb.jbEffLevel - diff }
      { jb with jbMaxHistLevel := 0, jbStableHist := 0 }
    else jb
  else if jb.jbEffLevel < jb.jbLevel then
    let jb := prefetchRaised
      { jb with jbEffLevel := min jb.jbMaxHistLevel (i32 (jb.jbMaxCount * 4 / 5 : Nat)) }
    { jb with jbStableHist := 0 }
  else { jb with jbStableHist := 0 }

/-- `jbuf_discard_static`. -/
def jbufDiscardStatic (jb : Jbuf) : Jbuf :=
  let burstLevel := max jb.jbEffLevel jb.jbLevel
  let diff := i32 (jbFramelistEffSize jb.jbFramelist - burstLevel * 2)
  if staDiscSafeShrinkingDiff ≤ diff then
    let seqOrigin := jbFramelistOrigin jb.jbFramelist
    let jb := if seqOrigin < jb.jbDiscardRef then { jb with jbDiscardRef := seqOrigin } else jb
    if jb.jbMinShrinkGap ≤ seqOrigin - jb.jbDiscardRef then
      let removed := jbFramelistRemoveHead jb.jbFramelist 1
      { jb with
        jbFramelist := removed.1
        jbDiscardRef := jbFramelistOrigin removed.1
        jbDiscard := jb.jbDiscard + removed.2 }
    else jb
  else jb

/-- `burst_level` of `jbuf_discard_progressive`, an `unsigned`. -/
def progressiveBurstLevel (jb : Jbuf) : Nat := u32 (max jb.jbEffLevel jb.jbLevel)

/-- `T` of `jbuf_discard_progressive`: the time in which the delay should be adjusted. -/
def progressiveTime (burstLevel : Nat) : Nat :=
  if burstLevel ≤ proDiscMinBurst then proDiscT1
  else if proDiscMaxBurst ≤ burstLevel then proDiscT2
  else proDiscT1 + (proDiscT2 - proDiscT1) * (burstLevel - proDiscMinBurst) /
    (proDiscMaxBurst - proDiscMinBurst)

/-- `last_seq` of `jbuf_discard_progressive`. -/
def lastSeq (jb : Jbuf) : Int :=
  jbFramelistOrigin jb.jbFramelist + jbFramelistSize jb.jbFramelist - 1

/-- The discard plan of `jbuf_discard_progressive`: a new one, or the old one after a look at
sequence restarts, and its distance for the current overflow. -/
def progressivePlan (jb : Jbuf) : Jbuf :=
  let burstLevel := progressiveBurstLevel jb
  let overflow := jbFramelistEffSize jb.jbFramelist - burstLevel
  let discardDist := progressiveTime burstLevel / overflow / jb.jbFramePtime
  { jb with
    jbDiscardRef :=
      if jb.jbDiscardDist = 0 then lastSeq jb
      else if lastSeq jb < jb.jbDiscardRef then lastSeq jb
      else jb.jbDiscardRef
    jbDiscardDist := (max jb.jbMinShrinkGap discardDist).toNat }

/-- `discard_seq` of `jbuf_discard_progressive`. -/
def discardSeq (jb : Jbuf) : Int :=
  max (jb.jbDiscardRef + jb.jbDiscardDist) (jbFramelistOrigin jb.jbFramelist)

/-- `jbuf_discard_progressive`. -/
def jbufDiscardProgressive (jb : Jbuf) : Jbuf :=
  if jb.jbLastOp ≠ .put then jb
  else if jbFramelistEffSize jb.jbFramelist ≤ progressiveBurstLevel jb then
    { jb with jbDiscardDist := 0 }
  else
    let jb := progressivePlan jb
    if jb.jbDiscardRef + jb.jbDiscardDist ≤ lastSeq jb then
      { jb with
        jbFramelist := (jbFramelistDiscard jb.jbFramelist (discardSeq jb)).1
        jbDiscardRef := discardSeq jb }
    else jb

/-- The part of `jbuf_update` that counts the operation switches while initializing. -/
def jbufInitCycle (jb : Jbuf) (oper : JbOp) : Jbuf :=
  if jb.jbStatus = .initializing then
    if initCycle ≤ jb.jbInitCycleCnt + 1 ∧ oper = .get then
      { jb with
        jbInitCycleCnt := jb.jbInitCycleCnt + 1
        jbStatus := .processing, jbLevel := min jb.jbLevel jb.jbMaxBurst }
    else { jb with jbInitCycleCnt := jb.jbInitCycleCnt + 1 }
  else jb

/-- The part of `jbuf_update` that calculates the jitter from the last burst of puts. -/
def jbufBurst (jb : Jbuf) (oper : JbOp) : Jbuf :=
  if oper = .get ∧ jb.jbLevel ≤ jb.jbMaxBurst then jbufCalculateJitter jb else jb

/-- The part of `jbuf_update` for an operation other than the last one. Its early return
leaves the status initializing, with which the rest of `jbuf_update` does nothing. -/
def jbufSwitchOp (jb : Jbuf) (oper : JbOp) : Jbuf :=
  if jb.jbLastOp = oper then jb
  else
    let ready := jbufInitCycle { jb with jbLastOp := oper } oper
    if ready.jbStatus = .initializing then { ready with jbLevel := 0 }
    else { jbufBurst ready oper with jbLevel := 0 }

/-- `jbuf_update`. -/
def jbufUpdate (jb : Jbuf) (oper : JbOp) : Jbuf :=
  let jb := jbufSwitchOp jb oper
  if jb.jbStatus = .processing then
    match jb.jbDiscardAlgo with
    | .none => jb
    | .static => jbufDiscardStatic jb
    | .progressive => jbufDiscardProgressive jb
  else jb

/-- The second buffer differs from the first one at most in what tells levels, prefetch and
state of the level calculation. -/
structure Retimed (jb jb' : Jbuf) : Prop where
  framelist : jb'.jbFramelist = jb.jbFramelist
  frameSize : jb'.jbFrameSize = jb.jbFrameSize
  framePtime : jb'.jbFramePtime = jb.jbFramePtime
  maxCount : jb'.jbMaxCount = jb.jbMaxCount
  minShrinkGap : jb'.jbMinShrinkGap = jb.jbMinShrinkGap
  discardAlgo : jb'.jbDiscardAlgo = jb.jbDiscardAlgo
  prefetching : jb'.jbPrefetching = jb.jbPrefetching
  discardRef : jb'.jbDiscardRef = jb.jbDiscardRef
  discardDist : jb'.jbDiscardDist = jb.jbDiscardDist

theorem Retimed.refl (jb : Jbuf) : Retimed jb jb := ⟨rfl, rfl, rfl, rfl, rfl, rfl, rfl, rfl, rfl⟩

theorem Retimed.trans {jb jb' jb'' : Jbuf} (h : Retimed jb jb') (h' : Retimed jb' jb'') :
    Retimed jb jb'' where
  framelist := h'.framelist.trans h.framelist
  frameSize := h'.frameSize.trans h.frameSize
  framePtime := h'.framePtime.trans h.framePtime
  maxCount := h'.maxCount.trans h.maxCount
  minShrinkGap := h'.minShrinkGap.trans h.minShrinkGap
  discardAlgo := h'.discardAlgo.trans h.discardAlgo
  prefetching := h'.prefetching.trans h.prefetching
  discardRef := h'.discardRef.trans h.discardRef
  discardDist := h'.discardDist.trans h.discardDist

theorem Retimed.prefetchLowered (jb : Jbuf) : Retimed jb (prefetchLowered jb) := by
  unfold JitterBuffer.prefetchLowered
  split
  · constructor <;> rfl
  · exact Retimed.refl jb

theorem Retimed.prefetchRaised (jb : Jbuf) : Retimed jb (prefetchRaised jb) := by
  unfold JitterBuffer.prefetchRaised
  split
  · constructor <;> rfl
  · exact Retimed.refl jb

/-- The jitter calculation looks at no frame. -/
theorem Retimed.calculateJitter (jb : Jbuf) : Retimed jb (jbufCalculateJitter jb) := by
  simp only [jbufCalculateJitter]
  split
  · split
    · obtain ⟨_⟩ := Retimed.prefetchLowered
        { jb with
          jbMaxHistLevel := max jb.jbMaxHistLevel jb.jbLevel
          jbStableHist := jb.jbStableHist + 1
          jbEffLevel := jb.jbEffLevel -
            max (Int.tdiv (jb.jbEffLevel - max jb.jbMaxHistLevel jb.jbLevel) 3) 1 }
      constructor <;> assumption
    · constructor <;> rfl
  · split
    · obtain ⟨_⟩ := Retimed.prefetchRaised
        { jb with
          jbMaxHistLevel := max jb.jbMaxHistLevel jb.jbLevel
          jbEffLevel := min (max jb.jbMaxHistLevel jb.jbLevel) (i32 (jb.jbMaxCount * 4 / 5 : Nat)) }
      constructor <;> assumption
    · constructor <;> rfl

theorem Retimed.initCycle (jb : Jbuf) (oper : JbOp) : Retimed jb (jbufInitCycle jb oper) := by
  unfold jbufInitCycle
  split
  · split <;> constructor <;> rfl
  · exact Retimed.refl jb

theorem Retimed.burst (jb : Jbuf) (oper : JbOp) : Retimed jb (jbufBurst jb oper) := by
  unfold jbufBurst
  split
  · exact Retimed.calculateJitter jb
  · exact Retimed.refl jb

/-- Another level, a reset one in particular, is a change of timing. -/
theorem Retimed.level {jb jb' : Jbuf} (h : Retimed jb jb') (level : Int) :
    Retimed jb { jb' with jbLevel := level } :=
  ⟨h.1, h.2, h.3, h.4, h.5, h.6, h.7, h.8, h.9⟩

/-- Switching the operation moves no frame. -/
theorem Retimed.switchOp (jb : Jbuf) (oper : JbOp) : Retimed jb (jbufSwitchOp jb oper) := by
  simp only [jbufSwitchOp]
  split
  · exact Retimed.refl jb
  · have ready : Retimed jb (jbufInitCycle { jb with jbLastOp := oper } oper) :=
      Retimed.trans (by constructor <;> rfl) (Retimed.initCycle _ _)
    split
    · exact ready.level 0
    · exact (ready.trans (Retimed.burst _ _)).level 0

theorem jbufCalculateJitter_lastOp (jb : Jbuf) :
    (jbufCalculateJitter jb).jbLastOp = jb.jbLastOp := by
  simp only [jbufCalculateJitter]
  split
  · split
    · simp only [prefetchLowered]
      split <;> rfl
    · rfl
  · split
    · simp only [prefetchRaised]
      split <;> rfl
    · rfl

/-- The operation is the last one from then on. -/
theorem jbufSwitchOp_lastOp (jb : Jbuf) (oper : JbOp) : (jbufSwitchOp jb oper).jbLastOp = oper := by
  have ready : (jbufInitCycle { jb with jbLastOp := oper } oper).jbLastOp = oper := by
    unfold jbufInitCycle
    split
    · split <;> rfl
    · rfl
  simp only [jbufSwitchOp]
  split
  · assumption
  · split
    · exact ready
    · unfold jbufBurst
      split
      · exact (jbufCalculateJitter_lastOp _).trans ready
      · exact ready

/-- A frame given to `pjmedia_jbuf_put_frame3`. -/
structure Frame where
  /-- The bytes at `frame`; their number is `frame_size`. -/
  payload : List UInt8
  /-- `bit_info`. -/
  bitInfo : UInt32
  /-- `frame_seq`. -/
  seq : Int
  /-- `ts`. -/
  ts : UInt32
deriving DecidableEq, Repr

/-- The calls of `jb_framelist_put_at` in `pjmedia_jbuf_put_frame3`. -/
def putAt (jb : Jbuf) (frame : Frame) : Jbuf × Status :=
  let put := jbFramelistPutAt jb.jbFramelist frame.seq frame.payload
    (min frame.payload.length jb.jbFrameSize) frame.bitInfo frame.ts .normal
  ({ jb with jbFramelist := put.1 }, put.2)

/-- The removal of old frames in `pjmedia_jbuf_put_frame3`: as few as make room. -/
def makeRoom (jb : Jbuf) (frame : Frame) : Jbuf :=
  let distance := frame.seq - jbFramelistOrigin jb.jbFramelist - i32 jb.jbMaxCount + 1
  let removed := jbFramelistRemoveHead jb.jbFramelist (u32 distance)
  { jb with jbFramelist := removed.1, jbDiscard := jb.jbDiscard + removed.2 }

/-- The loop of `pjmedia_jbuf_put_frame3` that removes old frames while the buffer is full.
For a capacity that is an `int` one round makes room (`jbufStore_room`). -/
def putWhileFull (frame : Frame) : Nat → Jbuf × Status → Jbuf × Status
  | 0, (jb, status) => (jb, status)
  | fuel + 1, (jb, status) =>
    if status = .etoomany then putWhileFull frame fuel (putAt (makeRoom jb frame) frame)
    else (jb, status)

/-- The part of `pjmedia_jbuf_put_frame3` that stores the frame. -/
def jbufStore (jb : Jbuf) (frame : Frame) : Jbuf × Status :=
  putWhileFull frame 2 (putAt jb frame)

/-- The part of `pjmedia_jbuf_put_frame3` between a successful store and `jbuf_update`;
`curSize` is the effective size before the put. -/
def jbufCountPut (jb : Jbuf) (curSize : Int) : Jbuf :=
  let newSize := i32 (jbFramelistEffSize jb.jbFramelist)
  { jb with
    jbPrefetching := decide (jb.jbPrefetching ∧ newSize < jb.jbPrefetch)
    jbLevel := jb.jbLevel + if curSize < newSize then newSize - curSize else 1 }

/-- `pjmedia_jbuf_put_frame3`, with its `discarded` flag. -/
def jbufPutFrame3 (jb : Jbuf) (frame : Frame) : Jbuf × Bool :=
  let stored := jbufStore jb frame
  if stored.2 = .success then
    (jbufUpdate (jbufCountPut stored.1 (i32 (jbFramelistEffSize jb.jbFramelist))) .put, false)
  else ({ stored.1 with jbDiscard := stored.1.jbDiscard + 1 }, true)

/-- What `pjmedia_jbuf_get_frame3` and `pjmedia_jbuf_peek_frame` report: `p_frame_type`, and
the other outputs where the frame list gives a frame. -/
structure JbReport where
  /-- `p_frame_type`. -/
  frameType : JbFrameType
  /-- The frame of the frame list. -/
  frame : Option JbFrame
deriving DecidableEq, Repr

/-- The type `pjmedia_jbuf_get_frame3` and `pjmedia_jbuf_peek_frame` give a frame. -/
def reportedType (frameType : JbFrameType) : JbFrameType :=
  if frameType = .normal then .normal else .missing

/-- The part of `pjmedia_jbuf_get_frame3` before `jbuf_update`. -/
def jbufTake (jb : Jbuf) (size : Option Nat) : Jbuf × JbReport :=
  if jb.jbPrefetching then
    ({ jb with jbEmpty := jb.jbEmpty + 1 }, { frameType := .zeroPrefetch, frame := none })
  else
    let get := jbFramelistGet jb.jbFramelist size
    match get.2 with
    | some frame =>
      ({ jb with
          jbFramelist := get.1
          jbLost := if frame.frameType = .normal then jb.jbLost else jb.jbLost + 1 },
        { frameType := reportedType frame.frameType, frame := some frame })
    | none =>
      ({ jb with
          jbFramelist := get.1
          jbPrefetching := decide (jb.jbPrefetching ∨ jb.jbPrefetch ≠ 0)
          jbEmpty := jb.jbEmpty + 1 },
        { frameType := .zeroEmpty, frame := none })

/-- The step of `pjmedia_jbuf_get_frame3` between taking a frame and `jbuf_update`. -/
def jbufCountGet (jb : Jbuf) : Jbuf := { jb with jbLevel := jb.jbLevel + 1 }

/-- `pjmedia_jbuf_get_frame3`; `size` is the capacity of the caller's buffer. -/
def jbufGetFrame3 (jb : Jbuf) (size : Option Nat) : Jbuf × JbReport :=
  (jbufUpdate (jbufCountGet (jbufTake jb size).1) .get, (jbufTake jb size).2)

/-- `pjmedia_jbuf_peek_frame`; none when `jb_framelist_peek` does not return. -/
def jbufPeekFrame (jb : Jbuf) (offset : Nat) : Option JbReport :=
  match jbFramelistPeek jb.jbFramelist offset with
  | .noFrame => some { frameType := .zeroEmpty, frame := none }
  | .frame frame => some { frameType := reportedType frame.frameType, frame := some frame }
  | .diverges => none

/-- The loop of `pjmedia_jbuf_remove_frame`: the discarded frames among those removed are
replaced by as many more. Every round lowers `last_discard_num`. -/
def removeMore : Nat → JbFramelist → Nat → Nat → JbFramelist × Nat
  | 0, fl, _, count => (fl, count)
  | fuel + 1, fl, lastDiscardNum, count =>
    if fl.discardedNum < lastDiscardNum then
      let frameCnt := lastDiscardNum - fl.discardedNum
      let removed := jbFramelistRemoveHead fl frameCnt
      removeMore fuel removed.1 fl.discardedNum (u32 ((count : Int) - frameCnt) + removed.2)
    else (fl, count)

/-- `pjmedia_jbuf_remove_frame`: the new buffer and the number of frames removed. -/
def jbufRemoveFrame (jb : Jbuf) (frameCnt : Nat) : Jbuf × Nat :=
  let last := jb.jbFramelist.discardedNum
  let removed := jbFramelistRemoveHead jb.jbFramelist frameCnt
  let more := removeMore (last + 1) removed.1 last removed.2
  ({ jb with jbFramelist := more.1 }, more.2)

/-- The calls an application makes on a jitter buffer. -/
inductive Call
  | putFrame3 (frame : Frame)
  | getFrame3 (size : Option Nat)
  | peekFrame (offset : Nat)
  | removeFrame (frameCnt : Nat)
  | reset
  | setPtime (ptime : Nat)
  | setFixed (prefetch : Nat)
  | setAdaptive (prefetch minPrefetch maxPrefetch : Nat)
  | setDiscard (algo : JbDiscardAlgo)
deriving DecidableEq, Repr

/-- The buffer after a call. -/
def call (jb : Jbuf) : Call → Jbuf
  | .putFrame3 frame => (jbufPutFrame3 jb frame).1
  | .getFrame3 size => (jbufGetFrame3 jb size).1
  | .peekFrame _ => jb
  | .removeFrame frameCnt => (jbufRemoveFrame jb frameCnt).1
  | .reset => jbufReset jb
  | .setPtime ptime => jbufSetPtime jb ptime
  | .setFixed prefetch => (jbufSetFixed jb prefetch).1
  | .setAdaptive prefetch minPrefetch maxPrefetch =>
    (jbufSetAdaptive jb prefetch minPrefetch maxPrefetch).1
  | .setDiscard algo => jbufSetDiscard jb algo

end Pjmedia.JitterBuffer
