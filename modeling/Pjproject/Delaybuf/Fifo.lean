import Pjproject.Delaybuf.Buffer

/-!
# The delay buffer loses only what it must

Against a plain list of samples: a put appends its whole frame after dropping as many of the
eldest samples as the frame exceeds the room by, and a get takes a frame's worth from the
front, padded with zeros. Whatever was put in has left in order or is still there.
-/

namespace Pjmedia.Delaybuf

open List Pj Circbuf

/-- Samples that leave the queue in one call: taken by a get or dropped by a put. -/
inductive Chunk where
  | taken (samples : List Sample)
  | dropped (samples : List Sample)
  deriving DecidableEq, Repr

def Chunk.samples : Chunk → List Sample
  | .taken samples | .dropped samples => samples

/-- The frame that a get returns for what it took, padded with zeros. -/
def Chunk.frame (samplesPerFrame : Nat) : Chunk → Option (List Sample)
  | .taken samples => some (samples ++ List.replicate (samplesPerFrame - samples.length) 0)
  | .dropped _ => none

/-- The samples that leave a queue in a call: a put drops the eldest ones by which it would
exceed `maxCnt`, a get takes up to one frame. -/
def leave (maxCnt samplesPerFrame : Nat) (queue : List Sample) : Op → Chunk
  | .put frame => .dropped (queue.take (queue.length + frame.length - maxCnt))
  | .get => .taken (queue.take samplesPerFrame)

/-- The queue after a call. -/
def queueAfter (maxCnt samplesPerFrame : Nat) (queue : List Sample) (op : Op) : List Sample :=
  queue.drop (leave maxCnt samplesPerFrame queue op).samples.length ++ op.frame

/-- What leaves a queue in a run. -/
def leaving (maxCnt samplesPerFrame : Nat) : List Sample → List Op → List Chunk
  | _, [] => []
  | queue, op :: ops =>
    leave maxCnt samplesPerFrame queue op ::
      leaving maxCnt samplesPerFrame (queueAfter maxCnt samplesPerFrame queue op) ops

/-- The delay buffer behaves as the queue in a run: the samples that left, in order, and then
the buffered ones are the samples put in; the frames of the gets are what they took; no more
than `maxCnt` samples are buffered, and those are the queue's. -/
structure Follows (b : DelayBuf) (ops : List Op) : Prop where
  order : ((leaving b.maxCnt b.samplesPerFrame [] ops).flatMap Chunk.samples) ++
    contents (ops.foldl next b).circBuf = ops.flatMap Op.frame
  frames : returned b ops =
    (leaving b.maxCnt b.samplesPerFrame [] ops).filterMap (Chunk.frame b.samplesPerFrame)
  bounded : (ops.foldl next b).circBuf.len ≤ b.maxCnt
  queue : contents (ops.foldl next b).circBuf =
    ops.foldl (queueAfter b.maxCnt b.samplesPerFrame) []

/-- What leaves is the front of the queue. -/
theorem leave_prefix (maxCnt samplesPerFrame : Nat) (queue : List Sample) (op : Op) :
    (leave maxCnt samplesPerFrame queue op).samples ++
      queue.drop (leave maxCnt samplesPerFrame queue op).samples.length = queue := by
  have front : ∀ count, queue.take count ++ queue.drop (queue.take count).length = queue := by
    intro count
    rw [length_take, drop_eq_drop_iff.mpr, take_append_drop]
    omega
  cases op with
  | put frame => exact front _
  | get => exact front _

/-- Nothing is lost by the queue. -/
theorem leaving_order (maxCnt samplesPerFrame : Nat) (queue : List Sample) (ops : List Op) :
    ((leaving maxCnt samplesPerFrame queue ops).flatMap Chunk.samples) ++
      ops.foldl (queueAfter maxCnt samplesPerFrame) queue = queue ++ ops.flatMap Op.frame := by
  induction ops generalizing queue with
  | nil => simp [leaving]
  | cons op ops ih =>
    have rest := ih (queueAfter maxCnt samplesPerFrame queue op)
    simp only [leaving, flatMap_cons, foldl_cons, append_assoc, rest]
    rw [queueAfter, append_assoc, ← append_assoc, leave_prefix]

variable {b : DelayBuf}

/-- What the calls keep: the circular buffer is well formed and has `maxCnt` slots, and the
frames fit it. -/
structure Wf (b : DelayBuf) : Prop where
  circBuf : Circbuf.Wf b.circBuf
  slots : b.circBuf.capacity = b.maxCnt
  roomy : Roomy b

/-- Dropping before a put leaves room for the frame and drops no more than needed. -/
theorem dropEldest_spec (wf : Wf b) :
    Circbuf.Wf (dropEldest b) ∧ (dropEldest b).capacity = b.maxCnt ∧
      contents (dropEldest b) =
        (contents b.circBuf).drop (b.circBuf.len + b.samplesPerFrame - b.maxCnt) ∧
      (dropEldest b).len + b.samplesPerFrame ≤ b.maxCnt := by
  have ⟨fits, noWrap⟩ := wf.roomy
  have bounded := wf.circBuf.bounded
  have slots := wf.slots
  have sum : u32 ((b.circBuf.len : Int) + b.samplesPerFrame) =
      b.circBuf.len + b.samplesPerFrame := u32_add (by omega)
  unfold dropEldest
  rw [sum]
  by_cases exceeds : b.maxCnt < b.circBuf.len + b.samplesPerFrame
  · have excess : u32 ((b.circBuf.len : Int) + b.samplesPerFrame - b.maxCnt) =
        b.circBuf.len + b.samplesPerFrame - b.maxCnt := by
      rw [u32_eq]
      omega
    simp only [if_pos exceeds, excess]
    have dropped := contents_advReadPtr wf.circBuf
      (b.circBuf.len + b.samplesPerFrame - b.maxCnt)
    have left := congrArg List.length dropped
    simp only [length_contents, length_drop] at left
    refine ⟨wf_advReadPtr wf.circBuf _, ?_, dropped, by omega⟩
    rw [capacity_advReadPtr, slots]
  · simp only [if_neg exceeds]
    have none : b.circBuf.len + b.samplesPerFrame - b.maxCnt = 0 := by omega
    rw [none, drop_zero]
    exact ⟨wf.circBuf, slots, rfl, by omega⟩

/-- A put appends its whole frame behind the samples it leaves. -/
theorem put_spec (wf : Wf b) {frame : List Sample} (whole : frame.length = b.samplesPerFrame) :
    Wf (put b frame) ∧
      contents (put b frame).circBuf =
        queueAfter b.maxCnt b.samplesPerFrame (contents b.circBuf) (.put frame) := by
  have ⟨trimmedWf, slots, left, room⟩ := dropEldest_spec wf
  have ⟨small, noWrap⟩ := wf.roomy
  have fits : (dropEldest b).len + frame.length ≤ (dropEldest b).capacity := by omega
  have short' : frame.length < 2 ^ 31 := by omega
  have all : frame.take b.samplesPerFrame = frame := by
    rw [← whole, take_length]
  unfold put
  simp only [all]
  refine ⟨⟨wf_write trimmedWf fits short', ?_, wf.roomy⟩, ?_⟩
  · rw [write_eq trimmedWf fits short']
    exact slots
  · rw [contents_write trimmedWf fits short', left, queueAfter, leave, Chunk.samples,
      length_take, length_contents, whole]
    congr 1
    rw [drop_eq_drop_iff, length_contents]
    omega

/-- A get returns the front of the queue, padded with zeros, and drops it. -/
theorem get_spec (wf : Wf b) :
    Wf (get b).2 ∧
      contents (get b).2.circBuf =
        queueAfter b.maxCnt b.samplesPerFrame (contents b.circBuf) .get ∧
      (get b).1 = (contents b.circBuf).take b.samplesPerFrame ++
        List.replicate (b.samplesPerFrame - b.circBuf.len) 0 := by
  have ⟨small, noWrap⟩ := wf.roomy
  have bounded := wf.circBuf.bounded
  have after : queueAfter b.maxCnt b.samplesPerFrame (contents b.circBuf) .get =
      (contents b.circBuf).drop b.samplesPerFrame := by
    rw [queueAfter, leave, Chunk.samples, Op.frame, append_nil, drop_eq_drop_iff]
    simp
  rw [after]
  unfold get
  by_cases starved : b.circBuf.len < b.samplesPerFrame
  · have zeros : copiedCount (b.samplesPerFrame - b.circBuf.len) =
        b.samplesPerFrame - b.circBuf.len := copiedCount_eq (by omega)
    have taken := read_eq wf.circBuf (le_refl b.circBuf.len) (by omega)
    have resetWf := wf_reset (wf_advReadPtr wf.circBuf b.circBuf.len)
    simp only [if_pos starved, taken, zeros]
    refine ⟨⟨resetWf, ?_, wf.roomy⟩, ?_, ?_⟩
    · show (advReadPtr b.circBuf b.circBuf.len).capacity = b.maxCnt
      rw [capacity_advReadPtr, wf.slots]
    · rw [contents_reset, drop_of_length_le]
      rw [length_contents]
      omega
    · rw [take_of_length_le (by simp), take_of_length_le (by simp; omega)]
  · have taken := @read_eq b.circBuf wf.circBuf b.samplesPerFrame (by omega) (by omega)
    have none : b.samplesPerFrame - b.circBuf.len = 0 := by omega
    simp only [if_neg starved, taken, none, replicate_zero, append_nil]
    refine ⟨⟨wf_advReadPtr wf.circBuf _, ?_, wf.roomy⟩, contents_advReadPtr wf.circBuf _, trivial⟩
    rw [capacity_advReadPtr, wf.slots]

/-- The parameters of the buffer stay as they were. -/
theorem next_params (b : DelayBuf) (op : Op) :
    (next b op).maxCnt = b.maxCnt ∧ (next b op).samplesPerFrame = b.samplesPerFrame := by
  cases op with
  | put frame => exact ⟨rfl, rfl⟩
  | get =>
    show (get b).2.maxCnt = _ ∧ (get b).2.samplesPerFrame = _
    unfold get
    split <;> exact ⟨rfl, rfl⟩

/-- One call on a well-formed buffer. -/
theorem next_spec (wf : Wf b) {op : Op} (whole : Whole b op) :
    Wf (next b op) ∧
      contents (next b op).circBuf =
        queueAfter b.maxCnt b.samplesPerFrame (contents b.circBuf) op := by
  cases op with
  | put frame => exact put_spec wf whole
  | get => exact ⟨(get_spec wf).1, (get_spec wf).2.1⟩

/-- A run on a well-formed buffer follows the queue. -/
theorem run_spec (wf : Wf b) {ops : List Op} (whole : ∀ op ∈ ops, Whole b op) :
    Wf (ops.foldl next b) ∧
      contents (ops.foldl next b).circBuf =
        ops.foldl (queueAfter b.maxCnt b.samplesPerFrame) (contents b.circBuf) ∧
      returned b ops =
        (leaving b.maxCnt b.samplesPerFrame (contents b.circBuf) ops).filterMap
          (Chunk.frame b.samplesPerFrame) := by
  induction ops generalizing b with
  | nil => exact ⟨wf, rfl, rfl⟩
  | cons op ops ih =>
    have ⟨nextWf, left⟩ := next_spec wf (whole op mem_cons_self)
    have ⟨maxCnt, samplesPerFrame⟩ := next_params b op
    have wholeRest : ∀ later ∈ ops, Whole (next b op) later := by
      intro later hlater
      have wholeLater := whole later (mem_cons_of_mem op hlater)
      cases later with
      | put frame => exact wholeLater.trans samplesPerFrame.symm
      | get => trivial
    have ⟨lastWf, rest, frames⟩ := ih nextWf wholeRest
    rw [maxCnt, samplesPerFrame, left] at rest frames
    refine ⟨lastWf, rest, ?_⟩
    cases op with
    | put frame => exact frames
    | get =>
      have taken : (get b).1 = (contents b.circBuf).take b.samplesPerFrame ++
          List.replicate (b.samplesPerFrame -
            ((contents b.circBuf).take b.samplesPerFrame).length) 0 := by
        rw [(get_spec wf).2.2, length_take, length_contents]
        congr 2
        omega
      rw [leaving, leave, filterMap_cons, Chunk.frame, ← taken]
      exact congrArg _ frames

variable {samplesPerFrame : Nat}

section
variable {clockRate channelCount maxDelay : Nat}
  (created : create clockRate samplesPerFrame channelCount maxDelay = some b)
include created

/-- What a created buffer looks like. -/
theorem create_spec :
    0 < b.samplesPerFrame ∧ b.maxCnt < 2 ^ 32 ∧ b.circBuf = Circbuf.create b.maxCnt := by
  unfold create at created
  by_cases invalid : samplesPerFrame = 0 ∨ clockRate = 0 ∨ channelCount = 0
  · rw [if_pos invalid] at created
    exact absurd created nofun
  · rw [if_neg invalid] at created
    by_cases short : u32 (samplesPerFrame * 1000) / clockRate / channelCount = 0
    · simp only [if_pos short, reduceCtorEq] at created
    · simp only [if_neg short, Option.some.injEq] at created
      subst created
      have bound : ∀ value : Int, u32 value < 2 ^ 32 := fun value => (BitVec.ofInt 32 value).isLt
      have positive : 0 < samplesPerFrame := by omega
      refine ⟨positive, ?_, rfl⟩
      exact Nat.lt_of_le_of_lt (Nat.div_le_self _ _) (bound _)

/-- The buffer as it was created is well formed if it is roomy. -/
theorem wf_create (roomy : Roomy b) : Wf b := by
  have ⟨positive, small, empty⟩ := create_spec created
  have fits := roomy.1
  refine ⟨?_, ?_, roomy⟩
  · rw [empty]
    exact Circbuf.wf_create (by omega) small
  · rw [empty]
    rfl

end

/-- The functions keep the number of slots, whatever the state. -/
theorem capacity_next (b : DelayBuf) (op : Op) :
    (next b op).circBuf.capacity = b.circBuf.capacity := by
  cases op with
  | put frame =>
    show (write (dropEldest b) _).2.capacity = _
    rw [capacity_write, dropEldest]
    split
    · exact capacity_advReadPtr _ _
    · rfl
  | get =>
    show (get b).2.circBuf.capacity = _
    unfold get
    split
    · exact capacity_read _ _
    · exact capacity_read _ _

/-- Puts of whole frames fill the queue up to `maxCnt`. -/
theorem length_puts {maxCnt : Nat} (fits : samplesPerFrame ≤ maxCnt) {frame : List Sample}
    (whole : frame.length = samplesPerFrame) (count : Nat) :
    ((List.replicate count (Op.put frame)).foldl (queueAfter maxCnt samplesPerFrame) []).length =
      min maxCnt (count * samplesPerFrame) := by
  induction count with
  | zero => simp
  | succ count ih =>
    rw [replicate_succ', foldl_append, foldl_cons, foldl_nil, queueAfter,
      length_append, length_drop, leave, Chunk.samples, length_take, ih, Op.frame,
      whole, Nat.succ_mul]
    omega

/-- A full buffer whose overflow check wraps refuses the frame. -/
theorem put_wrapped {frame : List Sample} (whole : frame.length = b.samplesPerFrame)
    (positive : 0 < b.samplesPerFrame) (fits : b.samplesPerFrame ≤ b.maxCnt)
    (small : b.maxCnt < 2 ^ 32) (slots : b.circBuf.capacity = b.maxCnt)
    (full : b.circBuf.len = b.maxCnt) (wraps : 2 ^ 32 ≤ b.maxCnt + b.samplesPerFrame) :
    put b frame = b := by
  have sum : u32 ((b.circBuf.len : Int) + b.samplesPerFrame) =
      b.maxCnt + b.samplesPerFrame - 2 ^ 32 := by
    rw [full, u32_eq]
    omega
  have kept : dropEldest b = b.circBuf := by
    unfold dropEldest
    rw [sum, if_neg (by omega)]
  have room : u32 ((b.circBuf.capacity : Int) - b.circBuf.len) = 0 := by
    rw [slots, full, u32_eq]
    omega
  have refused : write b.circBuf frame = (.etoobig, b.circBuf) := by
    unfold write
    rw [room, if_pos (by omega)]
  have all : frame.take b.samplesPerFrame = frame := by
    rw [← whole, take_length]
  unfold put
  rw [kept, all, refused]

/-- Runs keep the parameters and the number of slots. -/
theorem run_params (b : DelayBuf) (ops : List Op) :
    (ops.foldl next b).maxCnt = b.maxCnt ∧
      (ops.foldl next b).samplesPerFrame = b.samplesPerFrame ∧
      (ops.foldl next b).circBuf.capacity = b.circBuf.capacity := by
  induction ops generalizing b with
  | nil => exact ⟨rfl, rfl, rfl⟩
  | cons op ops ih =>
    have ⟨maxCnt, samplesPerFrame⟩ := next_params b op
    have ⟨lastMax, lastSamples, lastSlots⟩ := ih (next b op)
    exact ⟨lastMax.trans maxCnt, lastSamples.trans samplesPerFrame,
      lastSlots.trans (capacity_next b op)⟩

/-- The samples still buffered were put in. -/
theorem Follows.put_in {ops : List Op} (follows : Follows b ops) {sample : Sample}
    (member : sample ∈ contents (ops.foldl next b).circBuf) : ∃ op ∈ ops, sample ∈ op.frame := by
  have put := mem_append_right
    ((leaving b.maxCnt b.samplesPerFrame [] ops).flatMap Chunk.samples) member
  rw [follows.order] at put
  exact mem_flatMap.mp put

/-- A buffer that follows the queue in every run is roomy. -/
theorem roomy_of_follows (positive : 0 < b.samplesPerFrame) (small : b.maxCnt < 2 ^ 32)
    (slots : b.circBuf.capacity = b.maxCnt)
    (follows : ∀ ops : List Op, (∀ op ∈ ops, Whole b op) → Follows b ops) : Roomy b := by
  have puts : ∀ (sample : Sample) (count : Nat),
      ∀ op ∈ List.replicate count (Op.put (List.replicate b.samplesPerFrame sample)),
        Whole b op := by
    intro sample count op member
    rw [eq_of_mem_replicate member]
    exact length_replicate
  have fits : b.samplesPerFrame ≤ b.maxCnt := by
    -- a single frame is stored whole and within the bound
    have one := follows _ (puts 0 1)
    have stored := congrArg List.length one.queue
    have bounded := one.bounded
    rw [length_contents] at stored
    simp only [replicate_one, foldl_cons, foldl_nil, queueAfter,
      length_append, drop_nil, length_nil, Op.frame,
      length_replicate] at stored bounded
    omega
  refine ⟨fits, ?_⟩
  by_contra wraps
  -- a buffer filled with zeros refuses a frame of ones
  let fill := List.replicate b.maxCnt (Op.put (List.replicate b.samplesPerFrame 0))
  let loud := List.replicate b.samplesPerFrame (1 : Sample)
  have filled := follows fill (puts 0 b.maxCnt)
  have ⟨maxCnt, samplesPerFrame, capacity⟩ := run_params b fill
  have full : (fill.foldl next b).circBuf.len = b.maxCnt := by
    have stored := congrArg List.length filled.queue
    rw [length_contents, length_puts fits length_replicate] at stored
    have enough : b.maxCnt ≤ b.maxCnt * b.samplesPerFrame := Nat.le_mul_of_pos_right _ positive
    omega
  have refused : put (fill.foldl next b) loud = fill.foldl next b := by
    apply put_wrapped
    · rw [samplesPerFrame, length_replicate]
    · omega
    · omega
    · omega
    · omega
    · omega
    · omega
  have whole : ∀ op ∈ fill ++ [.put loud], Whole b op := by
    intro op member
    rcases mem_append.mp member with before | last
    · exact puts 0 b.maxCnt op before
    · rw [mem_singleton.mp last]
      exact length_replicate
  have after := (follows (fill ++ [.put loud]) whole).queue
  rw [foldl_append, foldl_append, foldl_cons, foldl_nil] at after
  have stored : (1 : Sample) ∈ contents (fill.foldl next b).circBuf := by
    have same : next (fill.foldl next b) (.put loud) = fill.foldl next b := refused
    rw [← same, after]
    exact mem_append_right _ (mem_replicate.mpr ⟨by omega, rfl⟩)
  have ⟨op, hop, hsample⟩ := filled.put_in stored
  rw [eq_of_mem_replicate hop] at hsample
  exact absurd (eq_of_mem_replicate hsample) (by decide)

/-- The simple delay buffer follows the bounded queue in every run of whole frames exactly
when a frame fits it and the sum of the overflow check does not wrap. -/
theorem delayBuf_follows_iff {clockRate samplesPerFrame channelCount maxDelay : Nat}
    {b : DelayBuf}
    (created : create clockRate samplesPerFrame channelCount maxDelay = some b) :
    (∀ ops : List Op, (∀ op ∈ ops, Whole b op) → Follows b ops) ↔ Roomy b := by
  have ⟨positive, small, empty⟩ := create_spec created
  constructor
  · have slots : b.circBuf.capacity = b.maxCnt := by
      rw [empty]
      rfl
    exact roomy_of_follows positive small slots
  · intro roomy ops whole
    have ⟨lastWf, queue, frames⟩ := run_spec (wf_create created roomy) whole
    have ⟨maxCnt, _, _⟩ := run_params b ops
    have start : contents b.circBuf = [] := by
      rw [empty]
      rfl
    rw [start] at queue frames
    refine ⟨?_, frames, ?_, queue⟩
    · rw [queue]
      exact leaving_order b.maxCnt b.samplesPerFrame [] ops
    · have bounded := lastWf.circBuf.bounded
      rw [lastWf.slots, maxCnt] at bounded
      exact bounded

/-- The buffer of a 20 ms frame at 8 kHz with the default delay. -/
theorem delayBuf_follows_iff_telephone :
    (∀ ops : List Op, (∀ op ∈ ops, Whole ⟨160, 20, 1, 3200, Circbuf.create 3200⟩ op) →
        Follows ⟨160, 20, 1, 3200, Circbuf.create 3200⟩ ops) ↔
      Roomy ⟨160, 20, 1, 3200, Circbuf.create 3200⟩ :=
  delayBuf_follows_iff (show create 8000 160 1 0 = some _ from rfl)

/-- With a delay of 2^29 ms the product with the frame size wraps to 0, and the buffer has no
room for the frame it is given. -/
theorem delayBuf_loses_frame :
    ∃ b, create 8000 8 1 (2 ^ 29) = some b ∧ b.ptime = 1 ∧ Whole b (.put (List.replicate 8 1)) ∧
      ¬Follows b [.put (List.replicate 8 1)] := by
  refine ⟨⟨8, 1, 1, 0, Circbuf.create 0⟩, rfl, rfl, rfl, ?_⟩
  intro follows
  exact absurd follows.order (by decide)

end Pjmedia.Delaybuf
