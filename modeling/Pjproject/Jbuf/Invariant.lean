import Pjproject.Lib.Run
import Pjproject.Jbuf.Window
import Pjproject.Jbuf.Buffer

/-!
# The ring invariant of the jitter buffer

The head is inside the arrays, the window is at most one revolution, the slots outside it are
vacant, and the discard count is the number of marked slots. Every operation keeps this but
one: the progressive algorithm can mark a slot that is marked already, which counts it twice.
-/

namespace Pjmedia.JitterBuffer
open List Pj

/-- The ring invariant of the frame list. -/
structure RingInvariant (fl : JbFramelist) : Prop extends JbFramelist.Shape fl where
  /-- The discard count is the number of marked slots of the window. -/
  discarded : fl.discardedNum = fl.window.countP Slot.isDiscarded

/-- The ring invariant for a capacity that is an `unsigned`. -/
structure BoundedRing (fl : JbFramelist) : Prop extends RingInvariant fl where
  /-- The capacity is below 2³². -/
  bound : fl.maxCount < 2 ^ 32

variable {fl : JbFramelist}

/-- No more slots are marked than there are. -/
theorem RingInvariant.discardedNum_le (h : RingInvariant fl) :
    fl.discardedNum ≤ fl.size := by
  rw [h.discarded, ← fl.length_window]
  exact countP_le_length

/-- The effective size does not wrap. -/
theorem BoundedRing.effSize_eq (h : BoundedRing fl) :
    jbFramelistEffSize fl = fl.size - fl.discardedNum := by
  have fits := h.size_le
  have bound := h.bound
  exact u32_sub h.discardedNum_le (by omega)

/-! ## The operations of the frame list -/

variable {fl' : JbFramelist}

/-- Frames leaving the head take their marks with them. -/
theorem BoundedRing.advanced {count : Nat} (h : BoundedRing fl) (moved : Advanced fl fl' count) :
    BoundedRing fl' where
  toShape := moved.shape
  bound := by
    rw [moved.maxCount]
    exact h.bound
  discarded := by
    have parts : fl.window.countP Slot.isDiscarded =
        (fl.window.take count).countP Slot.isDiscarded +
          (fl.window.drop count).countP Slot.isDiscarded := by
      rw [← countP_append, take_append_drop]
    have covered := h.discardedNum_le
    have fits := h.size_le
    have bound := h.bound
    have total := h.discarded
    rw [moved.discardedNum, moved.window, dropDiscarded_eq (by omega) (by omega)]
    omega

/-- A reset leaves an empty ring. -/
theorem BoundedRing.reset (positive : 0 < fl.maxCount) (bound : fl.maxCount < 2 ^ 32)
    (origin : Int) :
    BoundedRing { jbFramelistReset fl with origin := origin } :=
  { (jbFramelistReset_shape positive).renumber origin with
    discarded := rfl
    bound := bound }

section
variable (h : BoundedRing fl)
include h

/-- A ring has room for a frame. -/
theorem BoundedRing.positive : 0 < fl.maxCount := by
  have := h.head_lt
  omega

theorem BoundedRing.removeHead (count : Nat) : BoundedRing (jbFramelistRemoveHead fl count).1 :=
  h.advanced (jbFramelistRemoveHead_spec h.toShape count).2

theorem BoundedRing.get (size : Option Nat) : BoundedRing (jbFramelistGet fl size).1 := by
  have spec := jbFramelistGet_spec h.toShape size
  cases hslot : fl.window[leadingDiscarded fl.window]? with
  | none =>
    rw [hslot] at spec
    exact h.advanced spec.2
  | some slot =>
    rw [hslot] at spec
    exact h.advanced spec.2

/-- A rebased ring is a ring. -/
theorem BoundedRing.rebased {index distance : Int} (rebased : Rebased fl index (fl', distance)) :
    BoundedRing fl' := by
  have ⟨shape, _, _, maxCount, _, content⟩ := rebased.proper h.toShape
  refine { shape with discarded := ?_, bound := by rw [maxCount]; exact h.bound }
  rcases content with ⟨window, num⟩ | ⟨window, num⟩
  · rw [window, num]
    exact h.discarded
  · rw [window, num]
    rfl

end

/-- A frame of the source is not marked, nor is one that it replaces. -/
theorem Stored.countP {window window' : List Slot} {distance : Nat} {slot : Slot}
    (unmarked : slot.isDiscarded = false) (h : Stored window distance slot window') :
    window'.countP Slot.isDiscarded = window.countP Slot.isDiscarded := by
  cases h with
  | filled free =>
    have ⟨old, hold, missing⟩ := free
    have ⟨within, hold⟩ := List.getElem?_eq_some_iff.mp hold
    have before : old.isDiscarded = false := by simp [Slot.isDiscarded, missing]
    rw [countP_set within, hold, before, unmarked]
    rfl
  | appended gap vacant reach =>
    have none : gap.countP Slot.isDiscarded = 0 :=
      countP_eq_zero.mpr fun other member => by simp [(vacant other member).not_discarded]
    rw [countP_append, countP_append, none, countP_singleton, unmarked]
    rfl

/-- Storing an unmarked slot in a ring. -/
theorem BoundedRing.put {distance : Nat} {slot : Slot} (h : BoundedRing fl)
    (unmarked : slot.isDiscarded = false) (put : Put fl fl' distance slot) :
    BoundedRing fl' where
  toShape := put.shape
  bound := by
    rw [put.maxCount]
    exact h.bound
  discarded := by
    rw [put.discardedNum, put.stored.countP unmarked]
    exact h.discarded

/-- A put of a normal frame keeps the ring, whatever branch it takes. -/
theorem BoundedRing.putAt (h : BoundedRing fl) (index : Int) (frame : List UInt8)
    (frameSize : Nat) (bitInfo ts : UInt32) :
    BoundedRing (jbFramelistPutAt fl index frame frameSize bitInfo ts .normal).1 := by
  have outcome := jbFramelistPutAt_spec h.toShape index frame frameSize bitInfo ts
  generalize jbFramelistPutAt fl index frame frameSize bitInfo ts .normal = result at outcome ⊢
  cases outcome with
  | tooLong => exact h
  | tooLate => exact h
  | full rebased => exact h.rebased rebased
  | taken rebased => exact h.rebased rebased
  | stored rebased _ put => exact (h.rebased rebased).put rfl put
  | storedFar rebased _ _ put =>
    have ring := h.rebased rebased
    exact (BoundedRing.reset ring.positive ring.bound index).put rfl put

/-- The slot that `jb_framelist_discard` writes to for a sequence number of the window. -/
def discardSlot (fl : JbFramelist) (index : Int) : Slot :=
  fl.slots ((fl.head + (index - fl.origin).toNat) % fl.maxCount)

/-- Marking a slot keeps the ring exactly when the slot is not marked yet. -/
theorem BoundedRing.discard_iff (h : BoundedRing fl) {index : Int}
    (inside : fl.origin ≤ index ∧ index < fl.origin + fl.size) :
    RingInvariant (jbFramelistDiscard fl index).1 ↔ (discardSlot fl index).isDiscarded = false := by
  rcases jbFramelistDiscard_spec h.toShape index with
    ⟨_, outside⟩ | ⟨distance, old, hindex, hold, _, shape, _, _, _, num, window⟩
  · exact absurd inside outside
  · have within : distance < fl.size := by omega
    have slot : discardSlot fl index = old := by
      rw [JbFramelist.window, Circular.getElem?_window _ _ within] at hold
      rw [← Option.some.inj hold, discardSlot, hindex, Circular.slot]
      congr 3
      omega
    obtain ⟨inRange, hold⟩ := List.getElem?_eq_some_iff.mp hold
    have counted : (fl.window.set distance { old with frameType := .discarded }).countP
        Slot.isDiscarded =
          fl.discardedNum - (if old.isDiscarded then 1 else 0) + 1 := by
      rw [countP_set inRange, hold, h.discarded]
      rfl
    have covered := h.discardedNum_le
    have fits := h.size_le
    have bound := h.bound
    have positive : old.isDiscarded = true → 0 < fl.discardedNum := by
      intro mark
      rw [h.discarded, countP_pos_iff]
      exact ⟨old, hold ▸ getElem_mem inRange, mark⟩
    rw [slot]
    constructor
    · intro ring
      have equal := ring.discarded
      rw [num, window, counted] at equal
      have covered' := ring.discardedNum_le
      by_contra mark
      rw [Bool.not_eq_false] at mark
      have some := positive mark
      rw [mark, if_pos rfl] at equal
      rw [u32_eq] at equal
      omega
    · intro unmarked
      refine { shape with discarded := ?_ }
      have free : fl.discardedNum < 2 ^ 32 - 1 := by
        by_contra full
        -- All slots would be marked, the one at `distance` included.
        have all : fl.window.countP Slot.isDiscarded = fl.window.length := by
          have := h.discarded
          rw [fl.length_window]
          omega
        have mark := countP_eq_length.mp all old (hold ▸ getElem_mem inRange)
        rw [unmarked] at mark
        contradiction
      rw [num, window, counted, unmarked]
      have small : u32 ((fl.discardedNum : Int) + 1) = fl.discardedNum + 1 := by
        rw [u32_eq]
        omega
      simp [small]

/-! ## The operations of the buffer -/

variable {jb : Jbuf}

theorem BoundedRing.makeRoom (h : BoundedRing jb.jbFramelist) (frame : Frame) :
    BoundedRing (makeRoom jb frame).jbFramelist :=
  h.removeHead _

/-- The loop over a full buffer keeps the ring. -/
theorem BoundedRing.putWhileFull {frame : Frame} {fuel : Nat} {put : Jbuf × Status}
    (h : BoundedRing put.1.jbFramelist) :
    BoundedRing (putWhileFull frame fuel put).1.jbFramelist := by
  induction fuel generalizing put with
  | zero => exact h
  | succ fuel ih =>
    simp only [JitterBuffer.putWhileFull]
    split
    · exact ih ((h.makeRoom frame).putAt _ _ _ _ _)
    · exact h

theorem BoundedRing.store (h : BoundedRing jb.jbFramelist) (frame : Frame) :
    BoundedRing (jbufStore jb frame).1.jbFramelist :=
  BoundedRing.putWhileFull (h.putAt _ _ _ _ _)

theorem BoundedRing.removeMore {fuel : Nat} {lastDiscardNum count : Nat} (h : BoundedRing fl) :
    BoundedRing (removeMore fuel fl lastDiscardNum count).1 := by
  induction fuel generalizing fl lastDiscardNum count with
  | zero => exact h
  | succ fuel ih =>
    simp only [JitterBuffer.removeMore]
    split
    · exact ih (h.removeHead _)
    · exact h

section
variable (h : BoundedRing jb.jbFramelist)
include h

theorem BoundedRing.discardStatic : BoundedRing (jbufDiscardStatic jb).jbFramelist := by
  simp only [jbufDiscardStatic]
  split
  · split
    · split
      · exact h.removeHead 1
      · exact h
    · split
      · exact h.removeHead 1
      · exact h
  · exact h

/-- After a get the progressive algorithm does nothing, so every update keeps the ring. -/
theorem BoundedRing.updateGet : BoundedRing (jbufUpdate jb .get).jbFramelist := by
  have switched : BoundedRing (jbufSwitchOp jb .get).jbFramelist := by
    rw [(Retimed.switchOp jb .get).framelist]
    exact h
  simp only [jbufUpdate]
  split
  · cases (jbufSwitchOp jb .get).jbDiscardAlgo with
    | none => exact switched
    | static => exact switched.discardStatic
    | progressive =>
      rw [jbufDiscardProgressive, if_pos (by rw [jbufSwitchOp_lastOp]; decide)]
      exact switched
  · exact switched

theorem BoundedRing.take (size : Option Nat) : BoundedRing (jbufTake jb size).1.jbFramelist := by
  simp only [jbufTake]
  split
  · exact h
  · split <;> exact h.get size

theorem BoundedRing.getFrame3 (size : Option Nat) :
    BoundedRing (jbufGetFrame3 jb size).1.jbFramelist :=
  @BoundedRing.updateGet (jbufCountGet (jbufTake jb size).1) (h.take size)

end

/-! ## Marking twice -/

/-- `jbuf_discard_progressive` discards a frame. -/
def ProgressiveDue (jb : Jbuf) : Prop :=
  jb.jbLastOp = .put ∧ progressiveBurstLevel jb < jbFramelistEffSize jb.jbFramelist ∧
    (progressivePlan jb).jbDiscardRef + (progressivePlan jb).jbDiscardDist ≤ lastSeq jb

instance (jb : Jbuf) : Decidable (ProgressiveDue jb) := by
  unfold ProgressiveDue
  infer_instance

/-- What `jbuf_discard_progressive` does to the frames. -/
theorem jbufDiscardProgressive_framelist (jb : Jbuf) :
    (jbufDiscardProgressive jb).jbFramelist =
      if ProgressiveDue jb then
        (jbFramelistDiscard jb.jbFramelist (discardSeq (progressivePlan jb))).1
      else jb.jbFramelist := by
  have planned : lastSeq (progressivePlan jb) = lastSeq jb := rfl
  by_cases last : jb.jbLastOp = .put
  · by_cases above : progressiveBurstLevel jb < jbFramelistEffSize jb.jbFramelist
    · rw [jbufDiscardProgressive, if_neg (by simp [last]), if_neg (by omega)]
      simp only [ProgressiveDue, last, above, true_and, planned]
      split <;> rfl
    · rw [jbufDiscardProgressive, if_neg (by simp [last]), if_pos (by omega),
        if_neg fun due => above due.2.1]
  · rw [jbufDiscardProgressive, if_pos (by simp [last]), if_neg fun due => last due.1]

/-- The frame that is due is one of the window. -/
theorem BoundedRing.due_inside (h : BoundedRing jb.jbFramelist) (due : ProgressiveDue jb) :
    jb.jbFramelist.origin ≤ discardSeq (progressivePlan jb) ∧
      discardSeq (progressivePlan jb) < jb.jbFramelist.origin + jb.jbFramelist.size := by
  have ⟨_, above, reach⟩ := due
  have nonempty : 0 < jb.jbFramelist.size := by
    rw [h.effSize_eq] at above
    omega
  have same : (progressivePlan jb).jbFramelist = jb.jbFramelist := rfl
  simp only [discardSeq, lastSeq, jbFramelistOrigin, jbFramelistSize, same] at reach ⊢
  omega

/-- `jbuf_discard_progressive` gives a slot to `jb_framelist_discard` that is marked. -/
def MarksTwice (jb : Jbuf) : Prop :=
  ProgressiveDue jb ∧
    (discardSlot jb.jbFramelist (discardSeq (progressivePlan jb))).isDiscarded = true

instance (jb : Jbuf) : Decidable (MarksTwice jb) := by
  unfold MarksTwice
  infer_instance

/-- The progressive algorithm keeps the ring exactly when the slot it marks is not marked. -/
theorem BoundedRing.discardProgressive_iff (h : BoundedRing jb.jbFramelist) :
    RingInvariant (jbufDiscardProgressive jb).jbFramelist ↔ ¬MarksTwice jb := by
  rw [jbufDiscardProgressive_framelist]
  by_cases due : ProgressiveDue jb
  · rw [if_pos due, h.discard_iff (h.due_inside due)]
    simp [MarksTwice, due]
  · simp [MarksTwice, due, h.toRingInvariant]

/-- The buffer with which `pjmedia_jbuf_put_frame3` reaches the discard algorithm, once the
frame is stored. -/
def putUpdated (jb : Jbuf) (frame : Frame) : Jbuf :=
  jbufSwitchOp
    (jbufCountPut (jbufStore jb frame).1 (i32 (jbFramelistEffSize jb.jbFramelist))) .put

/-- The put of a frame makes the progressive algorithm mark a slot that is marked. -/
def PutMarksTwice (jb : Jbuf) (frame : Frame) : Prop :=
  (jbufStore jb frame).2 = .success ∧ (putUpdated jb frame).jbStatus = .processing ∧
    (putUpdated jb frame).jbDiscardAlgo = .progressive ∧ MarksTwice (putUpdated jb frame)

instance (jb : Jbuf) (frame : Frame) : Decidable (PutMarksTwice jb frame) := by
  unfold PutMarksTwice
  infer_instance

/-- A put keeps the ring exactly when it marks no slot twice. -/
theorem BoundedRing.putFrame3_iff (h : BoundedRing jb.jbFramelist) (frame : Frame) :
    RingInvariant (jbufPutFrame3 jb frame).1.jbFramelist ↔ ¬PutMarksTwice jb frame := by
  have updated : BoundedRing (putUpdated jb frame).jbFramelist := by
    rw [putUpdated, (Retimed.switchOp _ _).framelist]
    exact h.store frame
  by_cases stored : (jbufStore jb frame).2 = .success
  · simp only [jbufPutFrame3, stored, if_true, PutMarksTwice, true_and, jbufUpdate]
    rw [show jbufSwitchOp (jbufCountPut (jbufStore jb frame).1
      (i32 (jbFramelistEffSize jb.jbFramelist))) .put = putUpdated jb frame from rfl]
    by_cases status : (putUpdated jb frame).jbStatus = .processing
    · rw [if_pos status]
      cases algo : (putUpdated jb frame).jbDiscardAlgo with
      | none => simp [updated.toRingInvariant]
      | static => simp [updated.discardStatic.toRingInvariant]
      | progressive => simp [status, updated.discardProgressive_iff]
    · simp [status, updated.toRingInvariant]
  · simp [jbufPutFrame3, stored, PutMarksTwice, (h.store frame).toRingInvariant]

theorem jbufDiscardProgressive_maxCount (jb : Jbuf) :
    (jbufDiscardProgressive jb).jbFramelist.maxCount = jb.jbFramelist.maxCount := by
  rw [jbufDiscardProgressive_framelist]
  split
  · unfold jbFramelistDiscard
    split <;> rfl
  · rfl

/-- A put that marks no slot twice keeps the ring. -/
theorem BoundedRing.putFrame3 (h : BoundedRing jb.jbFramelist) {frame : Frame}
    (once : ¬PutMarksTwice jb frame) : BoundedRing (jbufPutFrame3 jb frame).1.jbFramelist where
  toRingInvariant := (h.putFrame3_iff frame).mpr once
  bound := by
    have updated : BoundedRing (putUpdated jb frame).jbFramelist := by
      rw [putUpdated, (Retimed.switchOp _ _).framelist]
      exact h.store frame
    simp only [jbufPutFrame3]
    split
    · simp only [jbufUpdate]
      rw [show jbufSwitchOp (jbufCountPut (jbufStore jb frame).1
        (i32 (jbFramelistEffSize jb.jbFramelist))) .put = putUpdated jb frame from rfl]
      split
      · cases (putUpdated jb frame).jbDiscardAlgo with
        | none => exact updated.bound
        | static => exact updated.discardStatic.bound
        | progressive =>
          simp only [jbufDiscardProgressive_maxCount]
          exact updated.bound
      · exact updated.bound
    · exact (h.store frame).bound

/-! ## Runs -/

/-- The call does not mark a slot twice. -/
def MarksOnce (jb : Jbuf) : Call → Prop
  | .putFrame3 frame => ¬PutMarksTwice jb frame
  | _ => True

instance (jb : Jbuf) (c : Call) : Decidable (MarksOnce jb c) := by
  unfold MarksOnce
  cases c <;> infer_instance

/-- Every call that marks no slot twice keeps the ring. -/
theorem BoundedRing.call (h : BoundedRing jb.jbFramelist) {c : Call} (once : MarksOnce jb c) :
    BoundedRing (call jb c).jbFramelist := by
  cases c with
  | putFrame3 frame => exact h.putFrame3 once
  | getFrame3 size => exact h.getFrame3 size
  | peekFrame offset => exact h
  | removeFrame frameCnt => exact (h.removeHead frameCnt).removeMore
  | reset => exact BoundedRing.reset h.positive h.bound invalidOffset
  | setPtime ptime => exact h
  | setFixed prefetch =>
    rw [JitterBuffer.call, jbufSetFixed_framelist]
    exact h
  | setAdaptive prefetch minPrefetch maxPrefetch =>
    rw [JitterBuffer.call, jbufSetAdaptive_framelist]
    exact h
  | setDiscard algo => exact h

/-- A call that marks a slot twice breaks the ring. -/
theorem BoundedRing.call_broken (h : BoundedRing jb.jbFramelist) {c : Call}
    (twice : ¬MarksOnce jb c) : ¬RingInvariant (JitterBuffer.call jb c).jbFramelist := by
  cases c with
  | putFrame3 frame => exact fun ring => twice ((h.putFrame3_iff frame).mp ring)
  | _ => exact absurd trivial twice

/-- A created buffer has an empty ring. -/
theorem jbufCreate_ring (memory : Nat → Slot) (frameSize ptime : Nat) {maxCount : Nat}
    (positive : 1 ≤ maxCount) (bound : maxCount < 2 ^ 32) :
    BoundedRing (jbufCreate memory frameSize ptime maxCount).jbFramelist :=
  @BoundedRing.reset (jbFramelistInit memory frameSize maxCount) positive bound invalidOffset

/-- Along a run from a created buffer the ring invariant holds exactly when no put makes the
progressive algorithm mark a slot that is marked already. -/
theorem ringInvariant_iff_marksOnce (memory : Nat → Slot) (frameSize ptime maxCount : Nat)
    (positive : 1 ≤ maxCount) (bound : maxCount < 2 ^ 32) (calls : List Call) :
    Run.Always call (fun jb : Jbuf => RingInvariant jb.jbFramelist)
        (jbufCreate memory frameSize ptime maxCount) calls ↔
      Run.Meets call MarksOnce (jbufCreate memory frameSize ptime maxCount) calls :=
  Run.always_iff (fun _ _ (ring : BoundedRing _) once => ring.call once)
    (fun _ ring => ring.toRingInvariant) (fun _ _ ring twice => ring.call_broken twice)
    (jbufCreate_ring memory frameSize ptime positive bound)

/-- A frame of one byte with the given sequence number. -/
def byteFrame (seq : Int) : Frame := { payload := [0], bitInfo := 0, seq := seq, ts := 0 }

/-- Five frames, each followed by a get, end the initialization. A frame after a gap is then
discarded at once, and again when a frame of the gap is put. -/
def doubleMarkCalls : List Call :=
  ((List.range 5).flatMap fun seq => [.putFrame3 (byteFrame seq), .getFrame3 none]) ++
    [.putFrame3 (byteFrame 10), .putFrame3 (byteFrame 9)]

/-- The ring invariant fails after these calls: two discards are counted for one slot. -/
theorem ringInvariant_doubleMark :
    ¬Run.Always call (fun jb : Jbuf => RingInvariant jb.jbFramelist)
      (jbufCreate (fun _ => ⟨[], .missing, 0, 0, 0⟩) 1 1000 20) doubleMarkCalls := by
  intro always
  have counted := always.last.discarded
  revert counted
  decide +kernel

/-- The equivalence at the run above, whose last put marks a slot twice. -/
theorem ringInvariant_iff_marksOnce_doubleMark :
    ¬Run.Meets call MarksOnce (jbufCreate (fun _ => ⟨[], .missing, 0, 0, 0⟩) 1 1000 20)
      doubleMarkCalls := by
  intro once
  have always := (ringInvariant_iff_marksOnce (fun _ => ⟨[], .missing, 0, 0, 0⟩) 1 1000 20
    (by decide) (by decide) doubleMarkCalls).mpr once
  have counted := always.last.discarded
  revert counted
  decide +kernel

end Pjmedia.JitterBuffer
