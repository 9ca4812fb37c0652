import Pjproject.Circbuf.Contents
import Pjproject.Lib.Run

/-!
# The delay buffer as a simple queue

`pjmedia_delay_buf` created with `PJMEDIA_DELAY_BUF_SIMPLE_FIFO`: there is no WSOLA, so
`b->wsola` is null and the branches for it, with the learnt level and the effective count
that only they read, are left out. The calls are serialised by the lock.
-/

namespace Pjmedia.Delaybuf

open Pj Circbuf

/-- `DEFAULT_MAX_DELAY`, in milliseconds. -/
def defaultMaxDelay : Nat := 400

/-- The part of `pjmedia_delay_buf` that a simple queue uses. -/
structure DelayBuf where
  samplesPerFrame : Nat
  ptime : Nat
  channelCount : Nat
  maxCnt : Nat
  circBuf : CircBuf

/-- `pjmedia_delay_buf_create`; `none` is `PJ_EINVAL`, or the division by a frame time of
0 ms. -/
def create (clockRate samplesPerFrame channelCount maxDelay : Nat) : Option DelayBuf :=
  if samplesPerFrame = 0 ∨ clockRate = 0 ∨ channelCount = 0 then none
  else
    let ptime := u32 (samplesPerFrame * 1000) / clockRate / channelCount
    let maxDelay := if maxDelay < ptime then max defaultMaxDelay ptime else maxDelay
    if ptime = 0 then none
    else
      let maxCnt := u32 (samplesPerFrame * maxDelay) / ptime
      some ⟨samplesPerFrame, ptime, channelCount, maxCnt, Circbuf.create maxCnt⟩

/-- The overflow check of `pjmedia_delay_buf_put`, which drops the eldest samples. The second
check of the source is the first one again, as nothing is shrunk in between. -/
def dropEldest (b : DelayBuf) : CircBuf :=
  if b.maxCnt < u32 (b.circBuf.len + b.samplesPerFrame) then
    let eraseCnt := u32 ((b.circBuf.len : Int) + b.samplesPerFrame - b.maxCnt)
    advReadPtr b.circBuf eraseCnt
  else b.circBuf

/-- `pjmedia_delay_buf_put`, which always succeeds. -/
def put (b : DelayBuf) (frame : List Sample) : DelayBuf :=
  { b with circBuf := (write (dropEldest b) (frame.take b.samplesPerFrame)).2 }

/-- `pjmedia_delay_buf_get`, which always succeeds, with the frame it returns. -/
def get (b : DelayBuf) : List Sample × DelayBuf :=
  if b.circBuf.len < b.samplesPerFrame then
    let bufLen := b.circBuf.len
    let taken := read b.circBuf bufLen
    let padding := List.replicate (copiedCount (b.samplesPerFrame - bufLen)) 0
    (taken.2.1 ++ padding, { b with circBuf := reset taken.2.2 })
  else
    let taken := read b.circBuf b.samplesPerFrame
    (taken.2.1, { b with circBuf := taken.2.2 })

/-- A call on the delay buffer. -/
inductive Op where
  | put (frame : List Sample)
  | get
  deriving DecidableEq, Repr

/-- The buffer after a call. -/
def next (b : DelayBuf) : Op → DelayBuf
  | .put frame => put b frame
  | .get => (get b).2

/-- The samples that a call puts in. -/
def Op.frame : Op → List Sample
  | .put frame => frame
  | .get => []

/-- The caller's frames have the buffer's frame size. -/
def Whole (b : DelayBuf) : Op → Prop
  | .put frame => frame.length = b.samplesPerFrame
  | .get => True

instance (b : DelayBuf) : (op : Op) → Decidable (Whole b op)
  | .put frame => inferInstanceAs (Decidable (frame.length = b.samplesPerFrame))
  | .get => .isTrue trivial

/-- The frames that the gets of a run return. -/
def returned : DelayBuf → List Op → List (List Sample)
  | _, [] => []
  | b, .put frame :: ops => returned (put b frame) ops
  | b, .get :: ops => (get b).1 :: returned (get b).2 ops

/-- A frame fits the buffer, and the sum of the overflow check does not wrap. -/
def Roomy (b : DelayBuf) : Prop :=
  b.samplesPerFrame ≤ b.maxCnt ∧ b.maxCnt + b.samplesPerFrame < 2 ^ 32

instance (b : DelayBuf) : Decidable (Roomy b) :=
  inferInstanceAs (Decidable (_ ∧ _))

end Pjmedia.Delaybuf
