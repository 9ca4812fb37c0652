import Pjproject.Lib.Run
import Pjproject.Pjlib.Int

/-!
# The playback of a stream

`get_frame` of `stream.c`. A sample is modelled by where it comes from. A codec succeeds or fails as
it likes, but never writes more than the output size it was given: a frame that does not fit is a
failure. A failed codec call leaves nothing to be played. The log is left out, and so are the frame
sizes of the jitter buffer, which only the codec reads.
-/

namespace Pjmedia.Stream
open Pj

/-- Where a sample comes from; `stale` is what was in the memory before. -/
inductive Audio
  | stale
  | decoded
  | concealed
  | zero
deriving DecidableEq, Repr

/-- The frame types of the jitter buffer. -/
inductive FrameType
  | missing
  | normal
  | zeroPrefetch
  | zeroEmpty
deriving DecidableEq, Repr

/-- A frame of the jitter buffer, with what the codec calls for it come to: whether it can be
decoded, or the answers of the codec to one `recover` after the other. -/
inductive JbFrame
  | missing (recovers : Bool)
  | zeroEmpty (recovers : Nat → Bool)
  | zeroPrefetch (recovers : Nat → Bool)
  | normal (bitInfo : Nat) (decodes : Bool)

/-- `pjmedia_jbuf_get_frame2`: the type of a frame. -/
def JbFrame.frameType : JbFrame → FrameType
  | .missing _ => .missing
  | .zeroEmpty _ => .zeroEmpty
  | .zeroPrefetch _ => .zeroPrefetch
  | .normal _ _ => .normal

/-- The part of `pjmedia_stream` that `get_frame` uses. The decoding buffer is there if it has a
size; `decCells` is where its samples come from. -/
structure Playback where
  paused : Bool
  /-- `PJMEDIA_PIA_SPF` of the port, the samples that `frame->buf` holds. -/
  samplesRequired : Nat
  decPtime : Nat
  clockRate : Nat
  channelCnt : Nat
  /-- The codec has `recover`, and PLC is set. -/
  plc : Bool
  plcCnt : Nat
  maxPlcCnt : Nat
  decBufSize : Option Nat
  decBufPos : Nat
  decBufCount : Nat
  decCells : Nat → Audio
  jbLastFrm : FrameType
  jbLastFrmCnt : Nat

/-- `samples_per_frame`. -/
def Playback.samplesPerFrame (stream : Playback) : Nat :=
  u32 (stream.decPtime * stream.clockRate * stream.channelCnt : Nat) / 1000

/-- The state of a call: the samples written to `frame->buf` so far, and where the stores to it and
to the decoding buffer ended. -/
structure Call where
  stream : Playback
  samplesCount : Nat
  cells : Nat → Option Audio
  frameEnds : List Nat
  decEnds : List Nat
  /-- An empty jitter buffer breaks the loop. -/
  broken : Bool

namespace Call

/-- The samples that are still required. -/
def room (call : Call) : Nat := call.stream.samplesRequired - call.samplesCount

/-- The loop is over. -/
def Over (call : Call) : Prop :=
  call.broken = true ∨ call.stream.samplesRequired ≤ call.samplesCount

instance (call : Call) : Decidable call.Over := inferInstanceAs (Decidable (_ ∨ _))

/-- Samples stored behind those that are counted. -/
def store (call : Call) (count : Nat) (source : Nat → Audio) : Call :=
  { call with
    cells := fun i =>
      if call.samplesCount ≤ i ∧ i < call.samplesCount + count then
        some (source (i - call.samplesCount))
      else call.cells i
    frameEnds := (call.samplesCount + count) :: call.frameEnds }

/-- Samples stored at the start of the decoding buffer. -/
def storeDec (call : Call) (count : Nat) (audio : Audio) : Call :=
  { call with
    stream := { call.stream with
      decCells := fun i => if i < count then audio else call.stream.decCells i }
    decEnds := count :: call.decEnds }

/-- More samples are counted. -/
def advance (call : Call) (count : Nat) : Call :=
  { call with samplesCount := call.samplesCount + count }

/-- The samples left in the decoding buffer are copied. -/
def copyLeftover (call : Call) : Call :=
  if call.stream.decBufSize.isSome ∧ call.stream.decBufPos < call.stream.decBufCount then
    let count := min call.room (call.stream.decBufCount - call.stream.decBufPos)
    let copied := call.store count fun i => call.stream.decCells (call.stream.decBufPos + i)
    { copied.advance count with
      stream := { call.stream with decBufPos := call.stream.decBufPos + count } }
  else call

/-- A change of the frame type is reported. -/
def report (call : Call) (frameType : FrameType) : Call :=
  { call with
    stream := { call.stream with
      jbLastFrm := frameType
      jbLastFrmCnt :=
        if frameType = call.stream.jbLastFrm then call.stream.jbLastFrmCnt + 1 else 1 } }

/-- PLC can be activated. -/
def MayRecover (call : Call) : Prop :=
  call.stream.plc = true ∧ call.stream.plcCnt < call.stream.maxPlcCnt

instance (call : Call) : Decidable call.MayRecover := inferInstanceAs (Decidable (_ ∧ _))

/-- A codec call with the rest of `frame->buf` as its output succeeds, for a frame of so many
samples. -/
def Succeeds (call : Call) (codec : Bool) (samples : Nat) : Prop :=
  codec = true ∧ samples * 2 ≤ call.stream.samplesRequired * 2 - call.samplesCount * 2

instance (call : Call) (codec : Bool) (samples : Nat) : Decidable (call.Succeeds codec samples) :=
  inferInstanceAs (Decidable (_ ∧ _))

/-- `plc_cnt` after a `recover`. -/
def countPlc (call : Call) : Call :=
  { call with stream := { call.stream with plcCnt := call.stream.plcCnt + 1 } }

/-- The branch for `PJMEDIA_JB_MISSING_FRAME`. -/
def missing (call : Call) (recovers : Bool) : Call :=
  let spf := call.stream.samplesPerFrame
  if call.MayRecover then
    if call.Succeeds recovers spf then
      (call.store spf fun _ => .concealed).countPlc.advance spf
    else (call.store call.room fun _ => .zero).countPlc.advance spf
  else (call.store call.room fun _ => .zero).advance spf

/-- The loop that conceals, as often as `plc_cnt` allows. -/
def conceal (recovers : Nat → Bool) : Nat → Nat → Call → Call
  | 0, _, call => call
  | left + 1, index, call =>
    let spf := call.stream.samplesPerFrame
    if call.Succeeds (recovers index) spf then
      let next := ((call.store spf fun _ => .concealed).advance spf).countPlc
      if next.samplesCount < next.stream.samplesRequired then conceal recovers left (index + 1) next
      else next
    else call

/-- The branches for `PJMEDIA_JB_ZERO_EMPTY_FRAME` and `PJMEDIA_JB_ZERO_PREFETCH_FRAME`. -/
def empty (call : Call) (recovers : Nat → Bool) : Call :=
  let concealed :=
    if call.MayRecover then
      conceal recovers (call.stream.maxPlcCnt - call.stream.plcCnt) 0 call
    else call
  let zeroed :=
    if concealed.samplesCount < concealed.stream.samplesRequired then
      { concealed.store concealed.room fun _ => .zero with
        samplesCount := concealed.stream.samplesRequired }
    else concealed
  { zeroed with broken := true }

/-- `use_dec_buf`: a frame of `bit_info` samples is decoded into the decoding buffer. -/
def UsesDecBuf (call : Call) (bitInfo : Nat) : Prop :=
  call.stream.decBufSize.isSome ∧
    call.stream.samplesRequired * 2 - call.samplesCount * 2 < u32 (bitInfo * 2 : Nat)

instance (call : Call) (bitInfo : Nat) : Decidable (call.UsesDecBuf bitInfo) :=
  inferInstanceAs (Decidable (_ ∧ _))

/-- The samples of a codec frame. -/
def frameSamples (call : Call) (bitInfo : Nat) : Nat :=
  if bitInfo = 0 then call.stream.samplesPerFrame else bitInfo

/-- `plc_cnt` is reset. -/
def resetPlc (call : Call) : Call :=
  { call with stream := { call.stream with plcCnt := 0 } }

/-- The samples of the decoding buffer that are to be copied. -/
def hold (call : Call) (count : Nat) : Call :=
  { call with stream := { call.stream with decBufPos := 0, decBufCount := count } }

/-- The decoding buffer has nothing to be played. -/
def spoil (call : Call) : Call :=
  { call with stream := { call.stream with decCells := fun _ => .stale } }

/-- Decoding into the decoding buffer. -/
def decodeAside (call : Call) (bitInfo : Nat) (decodes : Bool) : Call :=
  let samples := call.frameSamples bitInfo
  if decodes = true ∧ samples * 2 ≤ call.stream.decBufSize.getD 0 then
    (call.storeDec samples .decoded).hold (samples * 2 / 2)
  else (call.hold bitInfo).spoil.store call.stream.samplesPerFrame fun _ => .zero

/-- Decoding into `frame->buf`. -/
def decodeDirect (call : Call) (bitInfo : Nat) (decodes : Bool) : Call :=
  let samples := call.frameSamples bitInfo
  let spf := call.stream.samplesPerFrame
  if call.Succeeds decodes samples then (call.store samples fun _ => .decoded).advance spf
  else (call.storeDec call.stream.decBufCount .zero).advance spf

/-- The branch for `PJMEDIA_JB_NORMAL_FRAME`. -/
def normal (call : Call) (bitInfo : Nat) (decodes : Bool) : Call :=
  if call.resetPlc.UsesDecBuf bitInfo then call.resetPlc.decodeAside bitInfo decodes
  else call.resetPlc.decodeDirect bitInfo decodes

/-- What the loop does with a frame of the jitter buffer. -/
def handle (call : Call) : JbFrame → Call
  | .missing recovers => call.missing recovers
  | .zeroEmpty recovers => call.empty recovers
  | .zeroPrefetch recovers => call.empty recovers
  | .normal bitInfo decodes => call.normal bitInfo decodes

/-- One round of the loop: a frame is taken from the jitter buffer, and what it left in the decoding
buffer is copied. -/
def step (call : Call) (frame : JbFrame) : Call :=
  if call.Over then call
  else
    let next := (call.handle frame).report frame.frameType
    if next.Over then next else next.copyLeftover

end Call

/-- The call as it is entered. -/
def Playback.enter (stream : Playback) : Call where
  stream := stream
  samplesCount := 0
  cells _ := none
  frameEnds := []
  decEnds := []
  broken := false

/-- `get_frame` before it asks the jitter buffer. -/
def Playback.begin (stream : Playback) : Call :=
  if stream.enter.Over then stream.enter else stream.enter.copyLeftover

/-- `get_frame` after so many frames of the jitter buffer. -/
def Playback.after (stream : Playback) (frames : Nat → JbFrame) (count : Nat) : Call :=
  ((List.range count).map frames).foldl Call.step stream.begin

/-- `frame->size` of the returned frame; a paused channel returns none. -/
def Call.frameSize (call : Call) : Nat :=
  if call.samplesCount = 0 then 0 else call.samplesCount * 2

end Pjmedia.Stream
