import Pjproject.Delaybuf.Drift
import Pjproject.Delaybuf.Fifo

/-!
# The bookkeeping of the delay buffer

The lengths of a delay buffer add up in every run of puts and gets, whatever WSOLA erases, exactly
when the creation does not divide by zero, a frame fits the buffer and the sum of the overflow check
does not wrap.
-/

namespace Pjmedia.Delaybuf
open List Pj Circbuf Memory

variable {W : Type}

/-! ## Lengths of the circular buffer -/

/-- The regions hold the buffered samples. -/
theorem regions_length (circbuf : CircBuf) :
    (getReadRegions circbuf).reg1Len + (getReadRegions circbuf).reg2Len = circbuf.len := by
  unfold getReadRegions
  split
  · dsimp only
    omega
  · rfl

theorem len_advReadPtr (circbuf : CircBuf) (count : Nat) :
    (advReadPtr circbuf count).len = circbuf.len - count := by
  unfold advReadPtr
  split
  · show 0 = circbuf.len - count
    omega
  · rfl

/-- A read leaves no more samples than there were. -/
theorem len_read_le (circbuf : CircBuf) (count : Nat) :
    (read circbuf count).2.2.len ≤ circbuf.len := by
  unfold Circbuf.read
  split
  · exact le_rfl
  · rw [len_advReadPtr]
    exact Nat.sub_le _ _

/-- A write of samples that there is room for. -/
theorem write_fits {circbuf : CircBuf} {data : List Sample}
    (fits : circbuf.len + data.length ≤ circbuf.capacity) (small : circbuf.capacity < 2 ^ 32) :
    (write circbuf data).1 = .success ∧
      (write circbuf data).2.len = circbuf.len + data.length := by
  have room : u32 ((circbuf.capacity : Int) - circbuf.len) = circbuf.capacity - circbuf.len :=
    u32_sub (by omega) small
  have sum : u32 ((data.length : Int) + circbuf.len) = data.length + circbuf.len :=
    u32_add (by omega)
  have sum' : u32 ((circbuf.len : Int) + data.length) = circbuf.len + data.length :=
    u32_add (by omega)
  unfold write advWritePtr
  dsimp only
  rw [if_neg (by omega), sum, sum', if_neg (by omega)]
  exact ⟨rfl, rfl⟩

/-- A write of samples that there is no room for. -/
theorem write_refused {circbuf : CircBuf} {data : List Sample}
    (bounded : circbuf.len ≤ circbuf.capacity) (small : circbuf.capacity < 2 ^ 32)
    (full : circbuf.capacity < circbuf.len + data.length) :
    write circbuf data = (.etoobig, circbuf) := by
  have room : u32 ((circbuf.capacity : Int) - circbuf.len) = circbuf.capacity - circbuf.len :=
    u32_sub bounded small
  unfold write
  rw [if_pos (by omega)]

/-- No write exceeds the capacity. -/
theorem len_write_le {circbuf : CircBuf} (data : List Sample)
    (bounded : circbuf.len ≤ circbuf.capacity) (small : circbuf.capacity < 2 ^ 32) :
    (write circbuf data).2.len ≤ circbuf.capacity := by
  by_cases fits : circbuf.len + data.length ≤ circbuf.capacity
  · rw [(write_fits fits small).2]
    exact fits
  · rw [write_refused bounded small (Nat.lt_of_not_le fits)]
    exact bounded

/-! ## What the steps keep -/

/-- The settings of a buffer stay, and its length is at most its capacity. -/
structure Kept (samplesPerFrame maxCnt : Nat) (b : DriftBuf W) : Prop where
  frame : b.samplesPerFrame = samplesPerFrame
  count : b.maxCnt = maxCnt
  capacity : b.circBuf.capacity = maxCnt
  bounded : b.circBuf.len ≤ maxCnt

/-- No subtraction underflows. -/
def Exact (subtracted : List (Nat × Nat)) : Prop := ∀ pair ∈ subtracted, pair.2 ≤ pair.1

theorem Exact.append {left right : List (Nat × Nat)} (h : Exact left) (h' : Exact right) :
    Exact (left ++ right) := by
  intro pair member
  rcases mem_append.mp member with member | member
  · exact h pair member
  · exact h' pair member

section Steps
variable {api : WsolaApi W} {samplesPerFrame maxCnt : Nat} {b : DriftBuf W}

/-- Shrinking makes a buffer shorter, by what there is at most. -/
theorem shrinkBuffer_kept (contract : api.Contract samplesPerFrame) (small : maxCnt < 2 ^ 32)
    (h : Kept samplesPerFrame maxCnt b) (eraseCnt : Nat) :
    Kept samplesPerFrame maxCnt (shrinkBuffer api b eraseCnt).1 ∧
      (shrinkBuffer api b eraseCnt).1.circBuf.len ≤ b.circBuf.len ∧
      Exact (shrinkBuffer api b eraseCnt).2 := by
  have bounded := h.bounded
  unfold shrinkBuffer
  cases b.wsola with
  | none => exact ⟨h, le_rfl, nofun⟩
  | some w =>
    dsimp only
    have regions := regions_length b.circBuf
    obtain ⟨buf1, first⟩ : ∃ buf1, span b.circBuf.buf (getReadRegions b.circBuf).reg1
        (getReadRegions b.circBuf).reg1Len = buf1 := ⟨_, rfl⟩
    obtain ⟨buf2, second⟩ : ∃ buf2, span b.circBuf.buf ((getReadRegions b.circBuf).reg2.getD 0)
        (getReadRegions b.circBuf).reg2Len = buf2 := ⟨_, rfl⟩
    have length1 := congrArg List.length first
    have length2 := congrArg List.length second
    rw [length_span] at length1 length2
    rw [first, second]
    have erased := contract.erased w buf1 buf2 eraseCnt
    generalize api.discard w buf1 buf2 eraseCnt = discarded at erased ⊢
    split
    · next success =>
      have count : discarded.1.delCnt ≤ b.circBuf.len := by
        have most := erased success.1
        omega
      have left : u32 ((b.circBuf.len : Int) - discarded.1.delCnt) =
          b.circBuf.len - discarded.1.delCnt := u32_sub count (by omega)
      rw [left]
      refine ⟨⟨h.frame, h.count, h.capacity, ?_⟩, ?_, ?_⟩
      · show b.circBuf.len - discarded.1.delCnt ≤ maxCnt
        omega
      · exact Nat.sub_le _ _
      · intro pair member
        rw [mem_singleton.mp member]
        exact count
    · exact ⟨⟨h.frame, h.count, h.capacity, h.bounded⟩, le_rfl, nofun⟩

/-- The settings and the samples are those of another buffer. -/
theorem Kept.same {b' : DriftBuf W} (h : Kept samplesPerFrame maxCnt b)
    (same : b'.toDelayBuf = b.toDelayBuf) : Kept samplesPerFrame maxCnt b' := by
  constructor
  · rw [same]
    exact h.frame
  · rw [same]
    exact h.count
  · rw [same]
    exact h.capacity
  · rw [same]
    exact h.bounded

/-- Learning changes nothing about settings and samples. -/
theorem switchOp_same (b : DriftBuf W) (op : BufOp) :
    (switchOp b op).toDelayBuf = b.toDelayBuf := by
  have recalculated : ∀ b : DriftBuf W, (recalculate b).toDelayBuf = b.toDelayBuf := by
    intro b
    unfold recalculate
    split <;> rfl
  exact recalculated _

theorem saveFrame_same (api : WsolaApi W) (b : DriftBuf W) (frame : List Sample) :
    (saveFrame api b frame).2.2.toDelayBuf = b.toDelayBuf := by
  unfold saveFrame
  split <;> rfl

theorem generateFrame_same (api : WsolaApi W) (b : DriftBuf W) :
    (generateFrame api b).2.toDelayBuf = b.toDelayBuf := by
  unfold generateFrame
  split <;> rfl

section
variable (contract : api.Contract samplesPerFrame)
include contract

/-- A saved frame keeps its length. -/
theorem length_saveFrame (frame : List Sample) :
    (saveFrame api b frame).2.1.length = frame.length := by
  unfold saveFrame
  split
  · rfl
  · exact contract.save _ frame

theorem learn_kept (small : maxCnt < 2 ^ 32) (h : Kept samplesPerFrame maxCnt b) (op : BufOp) :
    Kept samplesPerFrame maxCnt (learn api b op).1 ∧ Exact (learn api b op).2 := by
  unfold learn
  split
  · unfold update
    split
    · exact ⟨h.same rfl, nofun⟩
    · have switched := h.same (switchOp_same b op)
      dsimp only
      split
      · have ⟨kept, _, exact⟩ := shrinkBuffer_kept contract small switched
          ((switchOp b op).samplesPerFrame / 2)
        exact ⟨kept, exact⟩
      · exact ⟨switched, nofun⟩
  · exact ⟨h, nofun⟩

/-- The overflow check leaves room for a frame. -/
theorem makeRoom_kept (fits : samplesPerFrame ≤ maxCnt)
    (noWrap : maxCnt + samplesPerFrame < 2 ^ 32) (h : Kept samplesPerFrame maxCnt b) :
    Kept samplesPerFrame maxCnt (makeRoom api b).1 ∧
      (makeRoom api b).1.circBuf.len + samplesPerFrame ≤ maxCnt ∧ Exact (makeRoom api b).2 := by
  have sums : ∀ b : DriftBuf W, Kept samplesPerFrame maxCnt b →
      u32 ((b.circBuf.len : Int) + b.samplesPerFrame) = b.circBuf.len + samplesPerFrame := by
    intro b h
    have bounded := h.bounded
    rw [h.frame]
    exact u32_add (by omega)
  unfold makeRoom
  dsimp only
  rw [sums b h, h.count]
  split
  · next exceeds =>
    obtain ⟨shrunk, result⟩ : ∃ shrunk : Counted W, (if b.wsola.isSome then
        shrinkBuffer api b (u32 ((b.circBuf.len : Int) + b.samplesPerFrame - maxCnt))
      else (b, [])) = shrunk := ⟨_, rfl⟩
    have shrunkKept : Kept samplesPerFrame maxCnt shrunk.1 ∧ Exact shrunk.2 := by
      rw [← result]
      split
      · have ⟨kept, _, exact⟩ := shrinkBuffer_kept contract (by omega) h
          (u32 ((b.circBuf.len : Int) + b.samplesPerFrame - maxCnt))
        exact ⟨kept, exact⟩
      · exact ⟨h, nofun⟩
    rw [result]
    have ⟨kept, exact⟩ := shrunkKept
    have bounded := kept.bounded
    have sum := sums shrunk.1 kept
    have first : Exact [(b.circBuf.len + samplesPerFrame, maxCnt)] := by
      intro pair member
      rw [mem_singleton.mp member]
      exact Nat.le_of_lt exceeds
    unfold dropEldest
    rw [kept.count, sum]
    by_cases left : maxCnt < shrunk.1.circBuf.len + samplesPerFrame
    · have excess : u32 ((shrunk.1.circBuf.len : Int) + shrunk.1.samplesPerFrame - maxCnt) =
          shrunk.1.circBuf.len + samplesPerFrame - maxCnt := by
        rw [kept.frame, u32_eq]
        omega
      have length := len_advReadPtr shrunk.1.circBuf
        (shrunk.1.circBuf.len + samplesPerFrame - maxCnt)
      have last : Exact [(shrunk.1.circBuf.len + samplesPerFrame, maxCnt)] := by
        intro pair member
        rw [mem_singleton.mp member]
        exact Nat.le_of_lt left
      rw [if_pos left, if_pos left, excess]
      have trimmed : (advReadPtr shrunk.1.circBuf
          (shrunk.1.circBuf.len + samplesPerFrame - maxCnt)).len + samplesPerFrame = maxCnt := by
        omega
      refine ⟨⟨kept.frame, rfl, ?_, ?_⟩, Nat.le_of_eq trimmed, (first.append exact).append last⟩
      · exact (capacity_advReadPtr _ _).trans kept.capacity
      · exact Nat.le_of_add_right_le (Nat.le_of_eq trimmed)
    · rw [if_neg left, if_neg left]
      exact ⟨⟨kept.frame, rfl, kept.capacity, kept.bounded⟩, Nat.le_of_not_lt left,
        (first.append exact).append nofun⟩
  · next room => exact ⟨h, Nat.le_of_not_lt room, nofun⟩

end

/-! ## The calls -/

/-- The lengths of a call add up: no more than the capacity is buffered, no subtraction underflows,
and the final write of a put succeeds. -/
structure Sound (api : WsolaApi W) (b : DriftBuf W) (op : Op) : Prop where
  bounded : (execute api b op).b.circBuf.len ≤ b.maxCnt
  exact : Exact (execute api b op).subtracted
  written : ∀ status, (execute api b op).written = some status → status = .success

/-- A frame that there is room for is written. -/
theorem writeFrame_kept (noWrap : maxCnt + samplesPerFrame < 2 ^ 32)
    (h : Kept samplesPerFrame maxCnt b) (room : b.circBuf.len + samplesPerFrame ≤ maxCnt)
    {frame : List Sample} (whole : frame.length = samplesPerFrame) :
    (write b.circBuf (frame.take b.samplesPerFrame)).1 = .success ∧
      Kept samplesPerFrame maxCnt
        { b with circBuf := (write b.circBuf (frame.take b.samplesPerFrame)).2 } := by
  have all : frame.take b.samplesPerFrame = frame := by
    rw [h.frame, ← whole, take_length]
  have capacity := h.capacity
  rw [all]
  have ⟨status, length⟩ := @write_fits b.circBuf frame (by omega) (by omega)
  refine ⟨status, h.frame, h.count, (capacity_write _ _).trans capacity, ?_⟩
  show (write b.circBuf frame).2.len ≤ maxCnt
  omega

theorem putDrift_sound (contract : api.Contract samplesPerFrame) (fits : samplesPerFrame ≤ maxCnt)
    (noWrap : maxCnt + samplesPerFrame < 2 ^ 32) (h : Kept samplesPerFrame maxCnt b)
    {frame : List Sample} (whole : frame.length = samplesPerFrame) :
    Kept samplesPerFrame maxCnt (putDrift api b frame).b ∧ Sound api b (.put frame) := by
  have ⟨learnt, exact⟩ := learn_kept contract (by omega) h .put
  have saved := learnt.same (saveFrame_same api (learn api b .put).1 frame)
  suffices call : Kept samplesPerFrame maxCnt (putDrift api b frame).b ∧
      Exact (putDrift api b frame).subtracted ∧
      ∀ status, (putDrift api b frame).written = some status → status = .success from
    ⟨call.1, by rw [h.count]; exact call.1.bounded, call.2.1, call.2.2⟩
  unfold putDrift
  dsimp only
  split
  · have ⟨room, left, exact'⟩ := makeRoom_kept contract fits noWrap saved
    have length : (saveFrame api (learn api b .put).1 frame).2.1.length = samplesPerFrame :=
      (length_saveFrame contract frame).trans whole
    have ⟨status, kept⟩ := writeFrame_kept noWrap room left length
    refine ⟨kept, exact.append exact', ?_⟩
    rintro _ ⟨⟩
    exact status
  · exact ⟨saved, exact, nofun⟩

/-- Taking a frame leaves no more samples than there were. -/
theorem takeFrame_kept (h : Kept samplesPerFrame maxCnt b) (frame : List Sample) :
    Kept samplesPerFrame maxCnt (takeFrame b frame).1 where
  frame := h.frame
  count := h.count
  capacity := (capacity_read _ _).trans h.capacity
  bounded := Nat.le_trans (len_read_le _ _) h.bounded

theorem getDrift_sound (contract : api.Contract samplesPerFrame)
    (noWrap : maxCnt + samplesPerFrame < 2 ^ 32) (h : Kept samplesPerFrame maxCnt b) :
    Kept samplesPerFrame maxCnt (getDrift api b).b ∧ Sound api b .get := by
  have ⟨learnt, exact⟩ := learn_kept contract (by omega) h .get
  have generated := learnt.same (generateFrame_same api (learn api b .get).1)
  suffices call : Kept samplesPerFrame maxCnt (getDrift api b).b ∧
      Exact (getDrift api b).subtracted ∧ (getDrift api b).written = none by
    refine ⟨call.1, by rw [h.count]; exact call.1.bounded, call.2.1, ?_⟩
    intro status written
    rw [show (execute api b .get).written = none from call.2.2] at written
    contradiction
  unfold getDrift
  dsimp only
  split
  · next starved =>
    have same := generateFrame_same api (learn api b .get).1
    generalize generateFrame api (learn api b .get).1 = result at generated same ⊢
    cases result.1 with
    | some frame =>
      dsimp only
      split
      · exact ⟨generated, exact, rfl⟩
      · have capacity := generated.capacity
        have bounded := generated.bounded
        have length := @len_write_le result.2.circBuf (frame.take result.2.samplesPerFrame)
          (by omega) (by omega)
        have written : Kept samplesPerFrame maxCnt
            { result.2 with
              circBuf := (write result.2.circBuf (frame.take result.2.samplesPerFrame)).2 } :=
          ⟨generated.frame, generated.count, (capacity_write _ _).trans capacity,
            Nat.le_trans length (Nat.le_of_eq capacity)⟩
        exact ⟨takeFrame_kept written frame, exact, rfl⟩
    | none =>
      have short : result.2.circBuf.len < result.2.samplesPerFrame := by
        rw [same]
        exact starved
      have drained : (get result.2.toDelayBuf).2.circBuf =
          reset (Circbuf.read result.2.circBuf result.2.circBuf.len).2.2 := by
        unfold get
        rw [if_pos short]
      rw [drained]
      have padded : Exact [(result.2.samplesPerFrame, result.2.circBuf.len)] := by
        intro pair member
        rw [mem_singleton.mp member]
        exact Nat.le_of_lt short
      refine ⟨⟨generated.frame, generated.count, ?_, Nat.zero_le _⟩, exact.append padded, rfl⟩
      exact (capacity_read _ _).trans generated.capacity
  · exact ⟨takeFrame_kept learnt [], exact, rfl⟩

section
variable (contract : api.Contract samplesPerFrame) (fits : samplesPerFrame ≤ maxCnt)
  (noWrap : maxCnt + samplesPerFrame < 2 ^ 32) (h : Kept samplesPerFrame maxCnt b)
include contract fits noWrap h

/-- A call on a buffer whose lengths add up. -/
theorem execute_sound {op : Op} (whole : Whole b.toDelayBuf op) :
    Kept samplesPerFrame maxCnt (nextDrift api b op) ∧ Sound api b op := by
  cases op with
  | put frame => exact putDrift_sound contract fits noWrap h (whole.trans h.frame)
  | get => exact getDrift_sound contract noWrap h

/-- The lengths add up in every call of a run. -/
theorem run_sound {ops : List Op} (whole : ∀ op ∈ ops, Whole b.toDelayBuf op) :
    Run.Meets (nextDrift api) (Sound api) b ops := by
  induction ops generalizing b with
  | nil => exact trivial
  | cons op ops ih =>
    have ⟨kept, sound⟩ := execute_sound contract fits noWrap h (whole op mem_cons_self)
    refine ⟨sound, ih kept ?_⟩
    intro later member
    have wholeLater := whole later (mem_cons_of_mem op member)
    cases later with
    | put frame => exact (wholeLater.trans h.frame).trans kept.frame.symm
    | get => exact trivial

end

end Steps

/-! ## A WSOLA that erases nothing -/

/-- WSOLA functions that never erase a sample. -/
def lazyApi : WsolaApi Unit where
  save _ frame := (true, frame, ())
  generate _ := (none, ())
  discard _ buf1 buf2 _ := ({ status := .etoosmall, buf1 := buf1, buf2 := buf2, delCnt := 0 }, ())

theorem lazyApi_contract (samplesPerFrame : Nat) : lazyApi.Contract samplesPerFrame where
  save _ _ := rfl
  generate _ _ := nofun
  regions _ _ _ _ := ⟨rfl, rfl⟩
  erased _ _ _ _ := nofun

/-- Everything but the samples, the level and the session. -/
structure SameLengths (b b' : DriftBuf Unit) : Prop where
  frame : b'.samplesPerFrame = b.samplesPerFrame
  count : b'.maxCnt = b.maxCnt
  capacity : b'.circBuf.capacity = b.circBuf.capacity
  length : b'.circBuf.len = b.circBuf.len
  lastOp : b'.lastOp = b.lastOp

theorem SameLengths.trans {b b' b'' : DriftBuf Unit} (h : SameLengths b b')
    (h' : SameLengths b' b'') : SameLengths b b'' :=
  ⟨h'.frame.trans h.frame, h'.count.trans h.count, h'.capacity.trans h.capacity,
    h'.length.trans h.length, h'.lastOp.trans h.lastOp⟩

theorem shrinkBuffer_lazy (b : DriftBuf Unit) (eraseCnt : Nat) :
    SameLengths b (shrinkBuffer lazyApi b eraseCnt).1 := by
  unfold shrinkBuffer
  split
  · exact ⟨rfl, rfl, rfl, rfl, rfl⟩
  · exact ⟨rfl, rfl, rfl, rfl, rfl⟩

/-- A put after a put learns no more than the level. -/
theorem learn_lazy {b : DriftBuf Unit} (last : b.lastOp = .put) :
    SameLengths b (learn lazyApi b .put).1 := by
  unfold learn update
  split
  · rw [if_pos last.symm]
    exact ⟨rfl, rfl, rfl, rfl, rfl⟩
  · exact ⟨rfl, rfl, rfl, rfl, rfl⟩

theorem saveFrame_lazy (b : DriftBuf Unit) (frame : List Sample) :
    (saveFrame lazyApi b frame).1 = true ∧ (saveFrame lazyApi b frame).2.1 = frame ∧
      SameLengths b (saveFrame lazyApi b frame).2.2 := by
  unfold saveFrame
  split
  · exact ⟨rfl, rfl, rfl, rfl, rfl, rfl, rfl⟩
  · exact ⟨rfl, rfl, rfl, rfl, rfl, rfl, rfl⟩

/-- The overflow check drops what the sum exceeds the capacity by, if the sum does not wrap. -/
theorem makeRoom_lazy {b : DriftBuf Unit} (small : b.maxCnt < 2 ^ 32)
    (frame : b.samplesPerFrame < 2 ^ 32) (bounded : b.circBuf.len ≤ b.maxCnt) :
    (makeRoom lazyApi b).1.samplesPerFrame = b.samplesPerFrame ∧
      (makeRoom lazyApi b).1.maxCnt = b.maxCnt ∧
      (makeRoom lazyApi b).1.circBuf.capacity = b.circBuf.capacity ∧
      (makeRoom lazyApi b).1.lastOp = b.lastOp ∧
      (makeRoom lazyApi b).1.circBuf.len =
        if b.circBuf.len + b.samplesPerFrame < 2 ^ 32 then
          b.circBuf.len - (b.circBuf.len + b.samplesPerFrame - b.maxCnt)
        else b.circBuf.len := by
  obtain ⟨sum, number⟩ : ∃ sum, u32 ((b.circBuf.len : Int) + b.samplesPerFrame) = sum := ⟨_, rfl⟩
  have wrapped : sum = if b.circBuf.len + b.samplesPerFrame < 2 ^ 32 then
      b.circBuf.len + b.samplesPerFrame else b.circBuf.len + b.samplesPerFrame - 2 ^ 32 := by
    rw [← number, u32_eq]
    split <;> omega
  unfold makeRoom
  rw [number]
  by_cases exceeds : b.maxCnt < sum
  · rw [if_pos exceeds]
    have noWrap : b.circBuf.len + b.samplesPerFrame < 2 ^ 32 := by
      by_contra wraps
      rw [if_neg wraps] at wrapped
      omega
    rw [if_pos noWrap] at wrapped ⊢
    have shrunk : SameLengths b (if b.wsola.isSome then
        shrinkBuffer lazyApi b (u32 ((b.circBuf.len : Int) + b.samplesPerFrame - b.maxCnt))
      else (b, [])).1 := by
      split
      · exact shrinkBuffer_lazy b _
      · exact ⟨rfl, rfl, rfl, rfl, rfl⟩
    generalize (if b.wsola.isSome then
        shrinkBuffer lazyApi b (u32 ((b.circBuf.len : Int) + b.samplesPerFrame - b.maxCnt))
      else (b, [])) = result at shrunk ⊢
    have excess : u32 ((b.circBuf.len : Int) + b.samplesPerFrame - b.maxCnt) =
        b.circBuf.len + b.samplesPerFrame - b.maxCnt := by
      rw [u32_eq]
      omega
    have dropped : dropEldest result.1.toDelayBuf =
        advReadPtr result.1.circBuf (b.circBuf.len + b.samplesPerFrame - b.maxCnt) := by
      unfold dropEldest
      rw [shrunk.count, shrunk.length, shrunk.frame, number, if_pos exceeds, excess]
    dsimp only
    rw [dropped]
    refine ⟨shrunk.frame, shrunk.count, ?_, shrunk.lastOp, ?_⟩
    · exact (capacity_advReadPtr _ _).trans shrunk.capacity
    · rw [len_advReadPtr, shrunk.length]
  · rw [if_neg exceeds]
    refine ⟨rfl, rfl, rfl, rfl, ?_⟩
    split
    · next noWrap =>
      rw [if_pos noWrap] at wrapped
      dsimp only
      omega
    · rfl

section
variable {samplesPerFrame maxCnt : Nat} {b : DriftBuf Unit} {frame : List Sample}
  (h : Kept samplesPerFrame maxCnt b) (last : b.lastOp = .put) (small : maxCnt < 2 ^ 32)
  (short : samplesPerFrame < 2 ^ 32) (whole : frame.length = samplesPerFrame)
include h last small short whole

/-- A put that is written fits the buffer, and makes it longer by the frame, up to the capacity. -/
theorem putDrift_lazy (sound : Sound lazyApi b (.put frame)) :
    let next := nextDrift lazyApi b (.put frame)
    samplesPerFrame ≤ maxCnt ∧ b.circBuf.len + samplesPerFrame < 2 ^ 32 ∧
      Kept samplesPerFrame maxCnt next ∧ next.lastOp = .put ∧
      next.circBuf.len = min (b.circBuf.len + samplesPerFrame) maxCnt := by
  intro next
  have learnt := learn_lazy last
  have ⟨saves, same, saved⟩ := saveFrame_lazy (learn lazyApi b .put).1 frame
  have before := learnt.trans saved
  have bounded := h.bounded
  obtain ⟨frames, count, capacity, lastOp, length⟩ := makeRoom_lazy
    (by rw [before.count, h.count]; exact small) (by rw [before.frame, h.frame]; exact short)
    (by rw [before.length, before.count, h.count]; exact bounded)
  rw [before.length, before.frame, before.count, h.frame, h.count] at length
  rw [before.frame, h.frame] at frames
  rw [before.count, h.count] at count
  rw [before.capacity, h.capacity] at capacity
  rw [before.lastOp, last] at lastOp
  have written := sound.written
  have called : execute lazyApi b (.put frame) = putDrift lazyApi b frame := rfl
  have result : putDrift lazyApi b frame =
      let room := makeRoom lazyApi (saveFrame lazyApi (learn lazyApi b .put).1 frame).2.2
      let written := write room.1.circBuf frame
      { b := { room.1 with circBuf := written.2 }, subtracted := (learn lazyApi b .put).2 ++ room.2
        written := some written.1, frame := [] } := by
    unfold putDrift
    dsimp only
    rw [if_pos saves, same, frames, ← whole, take_length]
  rw [called, result] at written
  generalize makeRoom lazyApi (saveFrame lazyApi (learn lazyApi b .put).1 frame).2.2 = room at *
  have status : (write room.1.circBuf frame).1 = .success := written _ rfl
  have fits : room.1.circBuf.len + samplesPerFrame ≤ maxCnt := by
    by_contra full
    have refused := @write_refused room.1.circBuf frame (by split at length <;> omega) (by omega)
      (by omega)
    rw [refused] at status
    contradiction
  have ⟨_, stored⟩ := @write_fits room.1.circBuf frame (by omega) (by omega)
  have noWrap : b.circBuf.len + samplesPerFrame < 2 ^ 32 := by
    by_contra wraps
    rw [if_neg wraps] at length
    omega
  rw [if_pos noWrap] at length
  have after : next = { room.1 with circBuf := (write room.1.circBuf frame).2 } := by
    show (execute lazyApi b (.put frame)).b = _
    rw [called, result]
  rw [after]
  refine ⟨by omega, noWrap, ⟨frames, count, ?_, ?_⟩, lastOp, ?_⟩
  · exact (capacity_write _ _).trans capacity
  · show (write room.1.circBuf frame).2.len ≤ maxCnt
    omega
  · show (write room.1.circBuf frame).2.len = _
    omega

/-- The lengths add up in a run of puts that fills the buffer only if a frame fits and the sum of
the overflow check does not wrap. -/
theorem run_lazy {count : Nat} (fills : maxCnt ≤ b.circBuf.len + count * samplesPerFrame)
    (sound : Run.Meets (nextDrift lazyApi) (Sound lazyApi) b
      (List.replicate (count + 1) (.put frame))) :
    samplesPerFrame ≤ maxCnt ∧ maxCnt + samplesPerFrame < 2 ^ 32 := by
  induction count generalizing b with
  | zero =>
    have ⟨fits, noWrap, _⟩ := putDrift_lazy h last small short whole sound.1
    have bounded := h.bounded
    exact ⟨fits, by omega⟩
  | succ count ih =>
    have ⟨_, _, kept, lastOp, length⟩ := putDrift_lazy h last small short whole sound.1
    refine ih kept lastOp ?_ sound.2
    rw [Nat.succ_mul] at fills
    omega

end

/-! ## Creation -/

variable {clockRate channelCount : Nat} {simpleFifo : Bool}

/-- The duration of a frame in milliseconds, as it is calculated from the parameters. -/
def frameTime (clockRate samplesPerFrame channelCount : Nat) : Nat :=
  u32 (samplesPerFrame * 1000) / clockRate / channelCount

/-- The samples that a buffer created with the parameters holds. -/
def bufferCnt (clockRate samplesPerFrame channelCount maxDelay : Nat) : Nat :=
  let ptime := frameTime clockRate samplesPerFrame channelCount
  let maxDelay := if maxDelay < ptime then max defaultMaxDelay ptime else maxDelay
  u32 (samplesPerFrame * maxDelay) / ptime

/-- The parameters are refused, or a frame lasts a millisecond and fits the buffer, and the sum of
the overflow check does not wrap. -/
def Accountable (clockRate samplesPerFrame channelCount maxDelay : Nat) (simpleFifo : Bool) :
    Prop :=
  (samplesPerFrame = 0 ∨ clockRate = 0 ∨ channelCount = 0) ∨
    frameTime clockRate samplesPerFrame channelCount ≠ 0 ∧
      (simpleFifo = false ∧ (65535 < clockRate ∨ clockRate ≤ samplesPerFrame) ∨
        samplesPerFrame ≤ bufferCnt clockRate samplesPerFrame channelCount maxDelay ∧
          bufferCnt clockRate samplesPerFrame channelCount maxDelay + samplesPerFrame < 2 ^ 32)

instance (clockRate samplesPerFrame channelCount maxDelay : Nat) (simpleFifo : Bool) :
    Decidable (Accountable clockRate samplesPerFrame channelCount maxDelay simpleFifo) :=
  inferInstanceAs (Decidable (_ ∨ _))

/-- The creation does not divide by zero, and the lengths of the buffer it gives add up in every run
of puts of whole frames and gets, with any WSOLA that keeps to its contract. -/
structure KeepsBooks (clockRate samplesPerFrame channelCount maxDelay : Nat) (simpleFifo : Bool) :
    Prop where
  divides : ∀ (W : Type) (session : W),
    createDrift session clockRate samplesPerFrame channelCount maxDelay simpleFifo ≠ .divisionByZero
  runs : ∀ (W : Type) (session : W) (api : WsolaApi W) (b : DriftBuf W),
    api.Contract samplesPerFrame →
    createDrift session clockRate samplesPerFrame channelCount maxDelay simpleFifo = .created b →
    ∀ ops : List Op, (∀ op ∈ ops, Whole b.toDelayBuf op) →
      Run.Meets (nextDrift api) (Sound api) b ops

/-- WSOLA with one channel is refused by its clock rate and frame. -/
theorem wsolaCreate_isNone {samplesPerFrame : Nat}
    (positive : ¬(clockRate = 0 ∨ samplesPerFrame = 0)) (options : Wsola.Options) :
    (Wsola.create clockRate samplesPerFrame 1 options).isNone = true ↔
      65535 < clockRate ∨ clockRate ≤ samplesPerFrame := by
  unfold Wsola.create
  rw [if_neg positive]
  by_cases fast : 65535 < clockRate
  · rw [if_pos fast]
    exact iff_of_true rfl (.inl fast)
  · rw [if_neg fast]
    by_cases long : clockRate ≤ samplesPerFrame
    · rw [if_pos long]
      exact iff_of_true rfl (.inr long)
    · rw [if_neg long, if_neg (by decide)]
      exact iff_of_false nofun (by omega)

/-- A created buffer is empty, its last operation counts as a put, and its settings are those of the
parameters. -/
theorem createDrift_created {session : W} {samplesPerFrame maxDelay : Nat} {b : DriftBuf W}
    (created : createDrift session clockRate samplesPerFrame channelCount maxDelay simpleFifo =
      .created b) :
    Kept samplesPerFrame (bufferCnt clockRate samplesPerFrame channelCount maxDelay) b ∧
      b.lastOp = .put ∧ b.circBuf.len = 0 ∧
      ¬(samplesPerFrame = 0 ∨ clockRate = 0 ∨ channelCount = 0) ∧
      ¬(simpleFifo = false ∧ (65535 < clockRate ∨ clockRate ≤ samplesPerFrame)) := by
  unfold createDrift at created
  by_cases invalid : samplesPerFrame = 0 ∨ clockRate = 0 ∨ channelCount = 0
  · rw [if_pos invalid] at created
    contradiction
  rw [if_neg invalid] at created
  by_cases short : u32 (samplesPerFrame * 1000) / clockRate / channelCount = 0
  · rw [if_pos short] at created
    contradiction
  rw [if_neg short] at created
  cases simpleFifo with
  | true =>
    cases created
    exact ⟨⟨rfl, rfl, rfl, Nat.zero_le _⟩, rfl, rfl, invalid, nofun⟩
  | false =>
    rw [if_neg Bool.false_ne_true] at created
    by_cases refused : 65535 < clockRate ∨ clockRate ≤ samplesPerFrame
    · rw [if_pos ((wsolaCreate_isNone (by omega) wsolaOptions).mpr refused)] at created
      contradiction
    · rw [if_neg (mt (wsolaCreate_isNone (by omega) wsolaOptions).mp refused)] at created
      cases created
      exact ⟨⟨rfl, rfl, rfl, Nat.zero_le _⟩, rfl, rfl, invalid, fun wsola => refused wsola.2⟩

/-- Parameters that are not refused create a buffer, where a frame lasts a millisecond. -/
theorem createDrift_exists (session : W)
    {clockRate samplesPerFrame channelCount maxDelay : Nat} {simpleFifo : Bool}
    (valid : ¬(samplesPerFrame = 0 ∨ clockRate = 0 ∨ channelCount = 0))
    (time : frameTime clockRate samplesPerFrame channelCount ≠ 0)
    (accepted : ¬(simpleFifo = false ∧ (65535 < clockRate ∨ clockRate ≤ samplesPerFrame))) :
    ∃ b, createDrift session clockRate samplesPerFrame channelCount maxDelay simpleFifo =
      .created b := by
  have lasts : ¬u32 (samplesPerFrame * 1000) / clockRate / channelCount = 0 := time
  unfold createDrift
  rw [if_neg valid]
  rw [if_neg lasts]
  cases simpleFifo with
  | true => exact ⟨_, if_pos rfl⟩
  | false =>
    have refused : ¬(65535 < clockRate ∨ clockRate ≤ samplesPerFrame) :=
      fun refused => accepted ⟨rfl, refused⟩
    rw [if_neg Bool.false_ne_true,
      if_neg (mt (wsolaCreate_isNone (by omega) wsolaOptions).mp refused)]
    exact ⟨_, rfl⟩

/-- The creation divides by zero exactly if it does not refuse the parameters and a frame lasts less
than a millisecond. -/
theorem createDrift_divisionByZero {session : W} {samplesPerFrame maxDelay : Nat} :
    createDrift session clockRate samplesPerFrame channelCount maxDelay simpleFifo =
        .divisionByZero ↔
      ¬(samplesPerFrame = 0 ∨ clockRate = 0 ∨ channelCount = 0) ∧
        frameTime clockRate samplesPerFrame channelCount = 0 := by
  unfold createDrift
  by_cases invalid : samplesPerFrame = 0 ∨ clockRate = 0 ∨ channelCount = 0
  · rw [if_pos invalid]
    exact iff_of_false nofun fun both => both.1 invalid
  rw [if_neg invalid]
  dsimp only
  by_cases short : u32 (samplesPerFrame * 1000) / clockRate / channelCount = 0
  · rw [if_pos short]
    exact iff_of_true rfl ⟨invalid, short⟩
  · rw [if_neg short]
    refine iff_of_false ?_ fun both => short both.2
    split
    · exact nofun
    · split
      · exact nofun
      · exact nofun

theorem bufferCnt_lt (clockRate samplesPerFrame channelCount maxDelay : Nat) :
    bufferCnt clockRate samplesPerFrame channelCount maxDelay < 2 ^ 32 :=
  Nat.lt_of_le_of_lt (Nat.div_le_self _ _) (u32_lt _)

/-- For all parameters, the books of the delay buffer are kept if and only if the parameters are
accountable. -/
theorem delayBuf_keepsBooks_iff (clockRate samplesPerFrame channelCount maxDelay : Nat)
    (simpleFifo : Bool) (short : samplesPerFrame < 2 ^ 32) :
    KeepsBooks clockRate samplesPerFrame channelCount maxDelay simpleFifo ↔
      Accountable clockRate samplesPerFrame channelCount maxDelay simpleFifo := by
  have small := bufferCnt_lt clockRate samplesPerFrame channelCount maxDelay
  constructor
  · intro books
    by_cases invalid : samplesPerFrame = 0 ∨ clockRate = 0 ∨ channelCount = 0
    · exact .inl invalid
    have time : frameTime clockRate samplesPerFrame channelCount ≠ 0 :=
      fun zero => books.divides Unit () (createDrift_divisionByZero.mpr ⟨invalid, zero⟩)
    refine .inr ⟨time, ?_⟩
    by_cases refused : simpleFifo = false ∧ (65535 < clockRate ∨ clockRate ≤ samplesPerFrame)
    · exact .inl refused
    -- A WSOLA that erases nothing, and puts until the buffer is full and one more.
    have ⟨b, created⟩ := @createDrift_exists Unit () clockRate samplesPerFrame channelCount
      maxDelay simpleFifo invalid time refused
    have ⟨kept, last, empty, _⟩ := createDrift_created created
    have fills := Nat.le_mul_of_pos_right
      (bufferCnt clockRate samplesPerFrame channelCount maxDelay)
      (show 0 < samplesPerFrame by omega)
    have frames : (List.replicate samplesPerFrame (0 : Sample)).length = samplesPerFrame :=
      length_replicate
    refine .inr (run_lazy kept last small short frames (by omega : _ ≤ _ + _ * _)
      (books.runs Unit () lazyApi b (lazyApi_contract _) created (List.replicate
        (bufferCnt clockRate samplesPerFrame channelCount maxDelay + 1) (.put _)) ?_))
    intro op member
    rw [eq_of_mem_replicate member]
    exact frames.trans kept.frame.symm
  · intro accountable
    constructor
    · intro W session zero
      have ⟨valid, time⟩ := createDrift_divisionByZero.mp zero
      exact (accountable.resolve_left valid).1 time
    · intro W session api b contract created ops whole
      have ⟨kept, _, _, valid, accepted⟩ := createDrift_created created
      have ⟨fits, noWrap⟩ := (accountable.resolve_left valid).2.resolve_left accepted
      exact run_sound contract fits noWrap kept whole

/-- Frames of 20 ms at 8 kHz are accountable. -/
theorem delayBuf_keepsBooks_narrowband : KeepsBooks 8000 160 1 0 false :=
  (delayBuf_keepsBooks_iff 8000 160 1 0 false (by decide)).mpr (by decide)

/-- Frames of half a millisecond are accepted, and divided by their duration of 0 ms. -/
theorem createDrift_halfMillisecond :
    createDrift () 16000 8 1 0 true = .divisionByZero ∧ ¬KeepsBooks 16000 8 1 0 true := by
  have zero : createDrift () 16000 8 1 0 true = .divisionByZero := by rfl
  exact ⟨zero, fun books => books.divides Unit () zero⟩

end Pjmedia.Delaybuf
