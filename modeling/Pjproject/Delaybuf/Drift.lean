import Pjproject.Delaybuf.Buffer
import Pjproject.Wsola.Discard

/-!
# The delay buffer with drift correction

`pjmedia_delay_buf` with its WSOLA: the learning of the effective count, the shrinking of the buffer
and the generated frames. What WSOLA does with the samples is left to its functions, which are
parameters here. Each call is modelled with the lengths that it subtracts from one another and the
status of the final write of a put.
-/

namespace Pjmedia.Delaybuf
open Pj Circbuf Memory

/-- `RECALC_TIME`, in milliseconds. -/
def recalcTime : Int := 2000

/-- `SAFE_MARGIN`, in frames. -/
def safeMargin : Nat := 0

/-- `enum OP`. -/
inductive BufOp
  | put
  | get
deriving DecidableEq, Repr

/-- The functions of `wsola.h` that a delay buffer calls, on the state of a session. -/
structure WsolaApi (W : Type) where
  /-- `pjmedia_wsola_save`: whether it succeeds, and the frame it leaves. -/
  save : W → List Sample → Bool × List Sample × W
  /-- `pjmedia_wsola_generate`: the frame, if it succeeds. -/
  generate : W → Option (List Sample) × W
  /-- `pjmedia_wsola_discard`. -/
  discard : W → List Sample → List Sample → Nat → Wsola.Discarded × W

/-- What `wsola.h` says of them: a frame keeps its length, the regions keep theirs, and no more
samples are erased than there are. -/
structure WsolaApi.Contract {W : Type} (api : WsolaApi W) (samplesPerFrame : Nat) : Prop where
  save : ∀ w frame, (api.save w frame).2.1.length = frame.length
  generate : ∀ w frame, (api.generate w).1 = some frame → frame.length = samplesPerFrame
  regions : ∀ w buf1 buf2 eraseCnt,
    (api.discard w buf1 buf2 eraseCnt).1.buf1.length = buf1.length ∧
      (api.discard w buf1 buf2 eraseCnt).1.buf2.length = buf2.length
  erased : ∀ w buf1 buf2 eraseCnt, (api.discard w buf1 buf2 eraseCnt).1.status = .success →
    (api.discard w buf1 buf2 eraseCnt).1.delCnt ≤ buf1.length + buf2.length

/-- `pjmedia_delay_buf`; without WSOLA it is a simple queue. -/
structure DriftBuf (W : Type) extends DelayBuf where
  effCnt : Nat
  level : Nat
  lastOp : BufOp
  recalcTimer : Int
  maxLevel : Nat
  wsola : Option W

/-- What becomes of a creation. -/
inductive Creation (W : Type)
  | einval
  | divisionByZero
  | wsolaRefused
  | created (b : DriftBuf W)

/-- The options of the WSOLA of a delay buffer. -/
def wsolaOptions : Wsola.Options :=
  { noHanning := false, noPlc := false, noDiscard := false, noFading := true }

/-- `pjmedia_delay_buf_create`; `session` is the state of a created WSOLA. -/
def createDrift {W : Type} (session : W) (clockRate samplesPerFrame channelCount maxDelay : Nat)
    (simpleFifo : Bool) : Creation W :=
  if samplesPerFrame = 0 ∨ clockRate = 0 ∨ channelCount = 0 then .einval
  else
    let ptime := u32 (samplesPerFrame * 1000) / clockRate / channelCount
    let maxDelay := if maxDelay < ptime then max defaultMaxDelay ptime else maxDelay
    if ptime = 0 then .divisionByZero
    else
      let maxCnt := u32 (samplesPerFrame * maxDelay) / ptime
      let b : DriftBuf W :=
        { samplesPerFrame := samplesPerFrame, ptime := ptime, channelCount := channelCount
          maxCnt := maxCnt, circBuf := Circbuf.create maxCnt, effCnt := maxCnt / 2, level := 0
          lastOp := .put, recalcTimer := recalcTime, maxLevel := 0, wsola := none }
      if simpleFifo then .created b
      else if (Wsola.create clockRate samplesPerFrame 1 wsolaOptions).isNone then .wsolaRefused
      else .created { b with wsola := some session }

variable {W : Type}

/-- A buffer with the lengths that were subtracted on the way to it, each with the count that was
taken from it. -/
abbrev Counted (W : Type) := DriftBuf W × List (Nat × Nat)

/-- `shrink_buffer`, which is called only with WSOLA. -/
def shrinkBuffer (api : WsolaApi W) (b : DriftBuf W) (eraseCnt : Nat) : Counted W :=
  match b.wsola with
  | none => (b, [])
  | some w =>
    let regions := getReadRegions b.circBuf
    let reg2 := regions.reg2.getD 0
    let discarded := api.discard w (span b.circBuf.buf regions.reg1 regions.reg1Len)
      (span b.circBuf.buf reg2 regions.reg2Len) eraseCnt
    let out := discarded.1
    let circBuf := { b.circBuf with
      buf := store (store b.circBuf.buf regions.reg1 out.buf1) reg2 out.buf2 }
    let b := { b with wsola := some discarded.2, circBuf := circBuf }
    if out.status = .success ∧ 0 < out.delCnt then
      ({ b with circBuf := setLen circBuf (u32 ((circBuf.len : Int) - out.delCnt)) },
        [(circBuf.len, out.delCnt)])
    else (b, [])

/-- `AGC`: up fast and down slowly. -/
def agc (cur target : Nat) : Nat :=
  if cur < target then u32 (cur + target * 3) / 4 else u32 (cur * 3 + target) / 4

/-- The part of `update` that recalculates the effective count. -/
def recalculate (b : DriftBuf W) : DriftBuf W :=
  if b.recalcTimer ≤ 0 then
    let newEffCnt := u32 ((b.maxLevel + safeMargin) * b.samplesPerFrame)
    let effCnt := agc b.effCnt newEffCnt
    let effCnt :=
      if effCnt % b.channelCount ≠ 0 then
        u32 (effCnt + (b.channelCount - effCnt % b.channelCount))
      else effCnt
    { b with effCnt := effCnt, maxLevel := 0, recalcTimer := recalcTime }
  else b

/-- The part of `update` for a switch of the operation. -/
def switchOp (b : DriftBuf W) (op : BufOp) : DriftBuf W :=
  recalculate
    { b with
      maxLevel := if b.maxLevel < b.level then b.level else b.maxLevel
      recalcTimer := i32 (b.recalcTimer - u32 (b.level * b.ptime) / 2)
      lastOp := op
      level := 1 }

/-- `update`. -/
def update (api : WsolaApi W) (b : DriftBuf W) (op : BufOp) : Counted W :=
  if op = b.lastOp then ({ b with level := u32 (b.level + 1) }, [])
  else
    let b := switchOp b op
    if op = .put ∧ u32 (b.samplesPerFrame + b.effCnt) < b.circBuf.len then
      shrinkBuffer api b (b.samplesPerFrame / 2)
    else (b, [])

/-- The part of `pjmedia_delay_buf_put` and `pjmedia_delay_buf_get` that learns, with WSOLA. -/
def learn (api : WsolaApi W) (b : DriftBuf W) (op : BufOp) : Counted W :=
  if b.wsola.isSome then update api b op else (b, [])

/-- The part of `pjmedia_delay_buf_put` that gives the frame to WSOLA. -/
def saveFrame (api : WsolaApi W) (b : DriftBuf W) (frame : List Sample) :
    Bool × List Sample × DriftBuf W :=
  match b.wsola with
  | none => (true, frame, b)
  | some w =>
    let saved := api.save w frame
    (saved.1, saved.2.1, { b with wsola := some saved.2.2 })

/-- The overflow check of `pjmedia_delay_buf_put`: shrinking, and then dropping where that was not
enough. -/
def makeRoom (api : WsolaApi W) (b : DriftBuf W) : Counted W :=
  let sum := u32 (b.circBuf.len + b.samplesPerFrame)
  if b.maxCnt < sum then
    let shrunk :=
      if b.wsola.isSome then
        shrinkBuffer api b (u32 ((b.circBuf.len : Int) + b.samplesPerFrame - b.maxCnt))
      else (b, [])
    let left := u32 (shrunk.1.circBuf.len + shrunk.1.samplesPerFrame)
    let dropped := if shrunk.1.maxCnt < left then [(left, shrunk.1.maxCnt)] else []
    ({ shrunk.1 with circBuf := dropEldest shrunk.1.toDelayBuf },
      (sum, b.maxCnt) :: shrunk.2 ++ dropped)
  else (b, [])

/-- What a call comes to. -/
structure Called (W : Type) where
  b : DriftBuf W
  /-- The lengths that were subtracted, each with the count taken from it. -/
  subtracted : List (Nat × Nat)
  /-- The status of the final write of a put. -/
  written : Option Circbuf.Status
  /-- The frame that a get returns. -/
  frame : List Sample

/-- `pjmedia_delay_buf_put`. -/
def putDrift (api : WsolaApi W) (b : DriftBuf W) (frame : List Sample) : Called W :=
  let learnt := learn api b .put
  let saved := saveFrame api learnt.1 frame
  if saved.1 then
    let room := makeRoom api saved.2.2
    let written := write room.1.circBuf (saved.2.1.take room.1.samplesPerFrame)
    { b := { room.1 with circBuf := written.2 }, subtracted := learnt.2 ++ room.2
      written := some written.1, frame := [] }
  else { b := saved.2.2, subtracted := learnt.2, written := none, frame := [] }

/-- The part of `pjmedia_delay_buf_get` that takes a frame from the buffer; one that is not there
leaves the caller's frame. -/
def takeFrame (b : DriftBuf W) (frame : List Sample) : DriftBuf W × List Sample :=
  let taken := read b.circBuf b.samplesPerFrame
  ({ b with circBuf := taken.2.2 }, if taken.1 = .success then taken.2.1 else frame)

/-- The part of `pjmedia_delay_buf_get` that generates a frame, where there is WSOLA. -/
def generateFrame (api : WsolaApi W) (b : DriftBuf W) : Option (List Sample) × DriftBuf W :=
  match b.wsola with
  | none => (none, b)
  | some w => ((api.generate w).1, { b with wsola := some (api.generate w).2 })

/-- `pjmedia_delay_buf_get`. -/
def getDrift (api : WsolaApi W) (b : DriftBuf W) : Called W :=
  let learnt := learn api b .get
  let b := learnt.1
  if b.circBuf.len < b.samplesPerFrame then
    let generated := generateFrame api b
    let b := generated.2
    match generated.1 with
    | some frame =>
      if b.circBuf.len = 0 then
        { b := b, subtracted := learnt.2, written := none, frame := frame }
      else
        let b := { b with circBuf := (write b.circBuf (frame.take b.samplesPerFrame)).2 }
        let taken := takeFrame b frame
        { b := taken.1, subtracted := learnt.2, written := none, frame := taken.2 }
    | none =>
      let drained := get b.toDelayBuf
      { b := { b with circBuf := drained.2.circBuf }
        subtracted := learnt.2 ++ [(b.samplesPerFrame, b.circBuf.len)]
        written := none, frame := drained.1 }
  else
    let taken := takeFrame b []
    { b := taken.1, subtracted := learnt.2, written := none, frame := taken.2 }

/-- A call on the delay buffer. -/
def execute (api : WsolaApi W) (b : DriftBuf W) : Op → Called W
  | .put frame => putDrift api b frame
  | .get => getDrift api b

/-- The buffer after a call. -/
def nextDrift (api : WsolaApi W) (b : DriftBuf W) (op : Op) : DriftBuf W := (execute api b op).b

/-! ## Without WSOLA -/

variable {b : DriftBuf W}

/-- The buffer without its drift correction. -/
def Creation.simple : Creation W → Option DelayBuf
  | .created b => some b.toDelayBuf
  | _ => none

theorem createDrift_simple (session : W) (clockRate samplesPerFrame channelCount maxDelay : Nat) :
    (createDrift session clockRate samplesPerFrame channelCount maxDelay true).simple =
      create clockRate samplesPerFrame channelCount maxDelay := by
  unfold createDrift create
  split
  · rfl
  · dsimp only
    split
    · rfl
    · rfl

section
variable (api : WsolaApi W) (simple : b.wsola = none)
include api simple

theorem learn_simple (op : BufOp) : learn api b op = (b, []) := by
  unfold learn
  rw [simple]
  rfl

theorem makeRoom_simple :
    (makeRoom api b).1 = { b with circBuf := dropEldest b.toDelayBuf } := by
  have absent : ¬b.wsola.isSome = true := by
    rw [simple]
    exact Bool.false_ne_true
  unfold makeRoom
  dsimp only
  split
  · rfl
  · next room =>
    have undropped : dropEldest b.toDelayBuf = b.circBuf := if_neg room
    rw [undropped]

theorem putDrift_simple (frame : List Sample) :
    (putDrift api b frame).b = { b with toDelayBuf := put b.toDelayBuf frame } := by
  have saved : saveFrame api b frame = (true, frame, b) := by
    unfold saveFrame
    rw [simple]
  unfold putDrift
  rw [learn_simple api simple]
  dsimp only
  rw [saved]
  rw [if_pos rfl, makeRoom_simple api simple]
  rfl

theorem getDrift_simple :
    (getDrift api b).b = { b with toDelayBuf := (get b.toDelayBuf).2 } ∧
      (getDrift api b).frame = (get b.toDelayBuf).1 := by
  have generated : generateFrame api b = (none, b) := by
    unfold generateFrame
    rw [simple]
  have drained : getDrift api b =
      if b.circBuf.len < b.samplesPerFrame then
        { b := { b with circBuf := (get b.toDelayBuf).2.circBuf }
          subtracted := [(b.samplesPerFrame, b.circBuf.len)]
          written := none, frame := (get b.toDelayBuf).1 }
      else
        { b := (takeFrame b []).1, subtracted := []
          written := none, frame := (takeFrame b []).2 } := by
    unfold getDrift
    rw [learn_simple api simple]
    dsimp only
    rw [generated]
    rfl
  rw [drained]
  by_cases short : b.circBuf.len < b.samplesPerFrame
  · rw [if_pos short]
    unfold get
    rw [if_pos short]
    exact ⟨rfl, rfl⟩
  · rw [if_neg short]
    unfold get takeFrame
    rw [if_neg short]
    exact ⟨rfl, if_pos (congrArg Prod.fst (if_neg short))⟩

/-- Without WSOLA the delay buffer is the simple queue. -/
theorem nextDrift_simple (op : Op) :
    (nextDrift api b op).toDelayBuf = next b.toDelayBuf op ∧ (nextDrift api b op).wsola = none := by
  cases op with
  | put frame =>
    have result : nextDrift api b (.put frame) = { b with toDelayBuf := put b.toDelayBuf frame } :=
      putDrift_simple api simple frame
    rw [result]
    exact ⟨rfl, simple⟩
  | get =>
    have result : nextDrift api b .get = { b with toDelayBuf := (get b.toDelayBuf).2 } :=
      (getDrift_simple api simple).1
    rw [result]
    exact ⟨rfl, simple⟩

theorem foldl_nextDrift_simple (ops : List Op) :
    (ops.foldl (nextDrift api) b).toDelayBuf = ops.foldl next b.toDelayBuf ∧
      (ops.foldl (nextDrift api) b).wsola = none := by
  induction ops generalizing b with
  | nil => exact ⟨rfl, simple⟩
  | cons op rest ih =>
    have ⟨same, still⟩ := nextDrift_simple api simple op
    rw [List.foldl_cons, List.foldl_cons, ← same]
    exact ih still

end

end Pjmedia.Delaybuf
