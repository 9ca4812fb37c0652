import Pjproject.Jbuf.Peek
import Pjproject.Jbuf.Delivery

/-!
# Making room

In a full buffer `pjmedia_jbuf_put_frame3` removes old frames until the new one fits. One round does,
and it removes the frames that the new one is too far ahead of. The frames are looked at together
with their sequence numbers here.
-/

namespace Pjmedia.JitterBuffer
open List Pj

/-- Frames with their sequence numbers, of which `origin` is the first. -/
def numberFrom (origin : Int) : List Slot → List (Int × Slot)
  | [] => []
  | slot :: rest => (origin, slot) :: numberFrom (origin + 1) rest

/-- The frames of a list with their sequence numbers. -/
def JbFramelist.numbered (fl : JbFramelist) : List (Int × Slot) := numberFrom fl.origin fl.window

theorem numberFrom_append (origin : Int) (left right : List Slot) :
    numberFrom origin (left ++ right) =
      numberFrom origin left ++ numberFrom (origin + left.length) right := by
  induction left generalizing origin with
  | nil => simp [numberFrom]
  | cons slot rest ih =>
    have next : origin + 1 + rest.length = origin + ((rest.length + 1 : Nat) : Int) := by omega
    rw [cons_append, numberFrom, numberFrom, ih, next]
    rfl

@[simp] theorem length_numberFrom (origin : Int) (slots : List Slot) :
    (numberFrom origin slots).length = slots.length := by
  induction slots generalizing origin with
  | nil => rfl
  | cons slot rest ih => rw [numberFrom, length_cons, ih, length_cons]

/-- The frames after the first ones keep their numbers. -/
theorem numberFrom_drop (origin : Int) (slots : List Slot) (count : Nat) :
    numberFrom (origin + count) (slots.drop count) = (numberFrom origin slots).drop count := by
  induction slots generalizing origin count with
  | nil => simp [numberFrom]
  | cons slot rest ih =>
    cases count with
    | zero => simp
    | succ count =>
      have next : origin + ((count + 1 : Nat) : Int) = origin + 1 + count := by omega
      rw [drop_succ_cons, next, ih]
      rfl

variable {slots : List Slot}

/-- No frame has a number in front of the first one. -/
theorem le_of_mem_numberFrom {origin : Int} {frame : Int × Slot}
    (member : frame ∈ numberFrom origin slots) : origin ≤ frame.1 := by
  induction slots generalizing origin with
  | nil => contradiction
  | cons slot rest ih =>
    rcases mem_cons.mp member with rfl | later
    · exact Int.le_refl _
    · have := ih later
      omega

/-- The frames from a number on are the ones after the first, as many as are in front of it. -/
theorem filter_numberFrom (number origin : Int) (slots : List Slot) :
    (numberFrom origin slots).filter (fun frame => decide (number ≤ frame.1)) =
      (numberFrom origin slots).drop (number - origin).toNat := by
  induction slots generalizing origin with
  | nil => simp [numberFrom]
  | cons slot rest ih =>
    by_cases kept : number ≤ origin
    · have none : (number - origin).toNat = 0 := by omega
      rw [none, drop_zero, filter_eq_self]
      intro frame member
      have := le_of_mem_numberFrom member
      exact decide_eq_true (by omega)
    · have more : (number - origin).toNat = (number - (origin + 1)).toNat + 1 := by omega
      rw [numberFrom, filter_cons_of_neg (by simpa using kept), more, drop_succ_cons]
      exact ih (origin + 1)

/-! ## What all calls keep -/

variable {fl : JbFramelist}

/-- What every call keeps of a buffer created with these parameters. -/
structure Settled (frameSize maxCount : Nat) (jb : Jbuf) : Prop where
  shape : jb.jbFramelist.Shape
  listSize : jb.jbFramelist.frameSize = frameSize
  listCount : jb.jbFramelist.maxCount = maxCount
  bufferSize : jb.jbFrameSize = frameSize
  bufferCount : jb.jbMaxCount = maxCount

section Settled
variable {frameSize maxCount : Nat} {jb : Jbuf}

section
variable (h : Settled frameSize maxCount jb)
include h

/-- Frames leaving the head. -/
theorem Settled.advanced {count : Nat} (moved : Advanced jb.jbFramelist fl count) :
    Settled frameSize maxCount { jb with jbFramelist := fl } :=
  ⟨moved.shape, moved.frameSize.trans h.listSize, moved.maxCount.trans h.listCount, h.bufferSize,
    h.bufferCount⟩

theorem Settled.removeHead (count : Nat) :
    Settled frameSize maxCount
      { jb with jbFramelist := (jbFramelistRemoveHead jb.jbFramelist count).1 } :=
  h.advanced (jbFramelistRemoveHead_spec h.shape count).2

theorem Settled.makeRoom (frame : Frame) : Settled frameSize maxCount (makeRoom jb frame) :=
  have removed := h.removeHead (u32 (frame.seq - jbFramelistOrigin jb.jbFramelist -
    i32 jb.jbMaxCount + 1))
  ⟨removed.shape, removed.listSize, removed.listCount, h.bufferSize, h.bufferCount⟩

theorem Settled.putAt (frame : Frame) : Settled frameSize maxCount (putAt jb frame).1 := by
  have outcome := jbFramelistPutAt_spec h.shape frame.seq frame.payload
    (min frame.payload.length jb.jbFrameSize) frame.bitInfo frame.ts
  unfold JitterBuffer.putAt
  generalize jbFramelistPutAt jb.jbFramelist frame.seq frame.payload
    (min frame.payload.length jb.jbFrameSize) frame.bitInfo frame.ts .normal = result at outcome
  cases outcome with
  | tooLong => exact h
  | tooLate => exact h
  | full rebased =>
    have ⟨shape, _, _, count, size, _⟩ := rebased.proper h.shape
    exact ⟨shape, size.trans h.listSize, count.trans h.listCount, h.bufferSize, h.bufferCount⟩
  | taken rebased =>
    have ⟨shape, _, _, count, size, _⟩ := rebased.proper h.shape
    exact ⟨shape, size.trans h.listSize, count.trans h.listCount, h.bufferSize, h.bufferCount⟩
  | stored rebased _ put =>
    have ⟨_, _, _, count, size, _⟩ := rebased.proper h.shape
    exact ⟨put.shape, (put.frameSize.trans size).trans h.listSize,
      (put.maxCount.trans count).trans h.listCount, h.bufferSize, h.bufferCount⟩
  | storedFar rebased _ _ put =>
    have ⟨_, _, _, count, size, _⟩ := rebased.proper h.shape
    exact ⟨put.shape, (put.frameSize.trans size).trans h.listSize,
      (put.maxCount.trans count).trans h.listCount, h.bufferSize, h.bufferCount⟩

end

theorem Settled.putWhileFull {put : Jbuf × Status} (h : Settled frameSize maxCount put.1)
    (frame : Frame) (fuel : Nat) :
    Settled frameSize maxCount (putWhileFull frame fuel put).1 := by
  induction fuel generalizing put with
  | zero => exact h
  | succ fuel ih =>
    simp only [JitterBuffer.putWhileFull]
    split
    · exact ih ((h.makeRoom frame).putAt frame)
    · exact h

theorem Settled.store (h : Settled frameSize maxCount jb) (frame : Frame) :
    Settled frameSize maxCount (jbufStore jb frame).1 :=
  (h.putAt frame).putWhileFull frame 2

/-- The update leaves the capacity. -/
theorem jbufUpdate_maxCount (jb : Jbuf) (oper : JbOp) :
    (jbufUpdate jb oper).jbMaxCount = jb.jbMaxCount := by
  have switched := (Retimed.switchOp jb oper).maxCount
  rw [← switched]
  simp only [jbufUpdate]
  split
  · cases (jbufSwitchOp jb oper).jbDiscardAlgo with
    | none => rfl
    | static =>
      simp only [jbufDiscardStatic]
      split
      · split <;> split <;> rfl
      · rfl
    | progressive =>
      simp only [jbufDiscardProgressive]
      split
      · rfl
      · split
        · rfl
        · split <;> rfl
  · rfl

section
variable (h : Settled frameSize maxCount jb)
include h

theorem Settled.update (oper : JbOp) : Settled frameSize maxCount (jbufUpdate jb oper) := by
  have ⟨size, frames⟩ := jbufUpdate_framelist jb oper
  have listed : ∀ fl : JbFramelist, (jbufUpdate jb oper).jbFramelist = fl →
      Settled frameSize maxCount { jb with jbFramelist := fl } →
      Settled frameSize maxCount (jbufUpdate jb oper) := by
    rintro fl rfl kept
    exact ⟨kept.shape, kept.listSize, kept.listCount, size.trans h.bufferSize,
      (jbufUpdate_maxCount jb oper).trans h.bufferCount⟩
  rcases frames with same | removed | ⟨index, marked⟩
  · exact listed _ same h
  · exact listed _ removed (h.removeHead 1)
  · apply listed _ marked
    rcases jbFramelistDiscard_spec h.shape index with
      ⟨refused, _⟩ | ⟨_, _, _, _, _, shape, _, listSize, listCount, _⟩
    · rw [refused]
      exact h
    · exact ⟨shape, listSize.trans h.listSize, listCount.trans h.listCount, h.bufferSize,
        h.bufferCount⟩

theorem Settled.get (size : Option Nat) :
    Settled frameSize maxCount { jb with jbFramelist := (jbFramelistGet jb.jbFramelist size).1 } := by
  have spec := jbFramelistGet_spec h.shape size
  cases slot : jb.jbFramelist.window[leadingDiscarded jb.jbFramelist.window]? with
  | none =>
    rw [slot] at spec
    exact h.advanced spec.2
  | some slot' =>
    rw [slot] at spec
    exact h.advanced spec.2

theorem Settled.take (size : Option Nat) : Settled frameSize maxCount (jbufTake jb size).1 := by
  have got := h.get size
  simp only [jbufTake]
  split
  · exact ⟨h.shape, h.listSize, h.listCount, h.bufferSize, h.bufferCount⟩
  · split <;> exact ⟨got.shape, got.listSize, got.listCount, h.bufferSize, h.bufferCount⟩

end

theorem Settled.removeMore (h : Settled frameSize maxCount { jb with jbFramelist := fl })
    (fuel last count : Nat) :
    Settled frameSize maxCount { jb with jbFramelist := (removeMore fuel fl last count).1 } := by
  induction fuel generalizing fl last count with
  | zero => exact h
  | succ fuel ih =>
    simp only [JitterBuffer.removeMore]
    split
    · exact ih (h.removeHead _) _ _
    · exact h

/-- Every call keeps the shape of the list and the sizes. -/
theorem Settled.call (h : Settled frameSize maxCount jb) (c : Call) :
    Settled frameSize maxCount (call jb c) := by
  cases c with
  | putFrame3 frame =>
    have stored := h.store frame
    simp only [JitterBuffer.call, jbufPutFrame3]
    split
    · exact @Settled.update frameSize maxCount (jbufCountPut _ _)
        ⟨stored.shape, stored.listSize, stored.listCount, stored.bufferSize, stored.bufferCount⟩ .put
    · exact ⟨stored.shape, stored.listSize, stored.listCount, stored.bufferSize, stored.bufferCount⟩
  | getFrame3 size =>
    have taken := h.take size
    exact @Settled.update frameSize maxCount (jbufCountGet _)
      ⟨taken.shape, taken.listSize, taken.listCount, taken.bufferSize, taken.bufferCount⟩ .get
  | peekFrame offset => exact h
  | removeFrame frameCnt =>
    exact (h.removeHead frameCnt).removeMore _ _ _
  | reset =>
    have positive : 0 < jb.jbFramelist.maxCount := Nat.zero_lt_of_lt h.shape.head_lt
    exact ⟨jbFramelistReset_shape positive, h.listSize, h.listCount, h.bufferSize, h.bufferCount⟩
  | setPtime ptime => exact ⟨h.shape, h.listSize, h.listCount, h.bufferSize, h.bufferCount⟩
  | setFixed prefetch =>
    simp only [JitterBuffer.call, jbufSetFixed]
    split <;> exact ⟨h.shape, h.listSize, h.listCount, h.bufferSize, h.bufferCount⟩
  | setAdaptive prefetch minPrefetch maxPrefetch =>
    simp only [JitterBuffer.call, jbufSetAdaptive]
    split <;> exact ⟨h.shape, h.listSize, h.listCount, h.bufferSize, h.bufferCount⟩
  | setDiscard algo => exact ⟨h.shape, h.listSize, h.listCount, h.bufferSize, h.bufferCount⟩

end Settled

section
variable {maxCount : Nat} (memory : Nat → Slot) (frameSize ptime : Nat) (positive : 1 ≤ maxCount)
include memory frameSize ptime positive

theorem jbufCreate_settled :
    Settled frameSize maxCount (jbufCreate memory frameSize ptime maxCount) :=
  ⟨@jbFramelistReset_shape (jbFramelistInit memory frameSize maxCount) positive, rfl, rfl, rfl, rfl⟩

/-- Every reachable buffer is settled. -/
theorem jbufAfter_settled (calls : List Call) :
    Settled frameSize maxCount (jbufAfter memory frameSize ptime maxCount calls) := by
  have always : Run.Always call (Settled frameSize maxCount)
      (jbufCreate memory frameSize ptime maxCount) calls :=
    Run.always_of_forall (fun _ c kept => kept.call c)
      (jbufCreate_settled memory frameSize ptime positive)
  exact always.last

end

/-! ## A frame behind the window -/

variable {fl' : JbFramelist} {frame : Frame}

/-- The list after a frame is stored behind its window: the frame is its last one, or its only
one. -/
inductive StoredBehind (fl fl' : JbFramelist) (index : Int) (slot : Slot) : Prop
  | appended (gap : List (Int × Slot)) (vacant : ∀ frame ∈ gap, frame.2.Vacant)
    (near : index - fl.origin < fl.maxCount)
    (numbered : fl'.numbered = fl.numbered ++ gap ++ [(index, slot)])
  | rebased (jumped : maxDropout < index - fl.origin ∨ fl.size = 0)
    (numbered : fl'.numbered = [(index, slot)])

theorem mem_numberFrom {origin : Int} {frame : Int × Slot}
    (member : frame ∈ numberFrom origin slots) : frame.2 ∈ slots := by
  induction slots generalizing origin with
  | nil => contradiction
  | cons slot rest ih =>
    rcases mem_cons.mp member with rfl | later
    · exact mem_cons_self
    · exact mem_cons_of_mem _ (ih later)

/-- The list that a frame behind the window is stored in: the list as it is, or an empty one. -/
theorem Rebased.behind {index distance : Int} (behind : fl.origin + fl.size ≤ index)
    (rebased : Rebased fl index (fl', distance)) :
    (fl' = fl ∧ distance = index - fl.origin ∧ fl.size ≤ distance) ∨
      (fl.size = 0 ∧ fl'.window = [] ∧ fl'.origin = index ∧ distance = 0) := by
  have late : lateness fl index = .tooLate := by
    rw [lateness, if_pos (by unfold maxMisorder; omega)]
  cases rebased with
  | same => exact .inl ⟨rfl, rfl, by omega⟩
  | restarted _ restart =>
    rw [late] at restart
    contradiction
  | empty none =>
    exact .inr ⟨none, eq_nil_of_length_eq_zero (fl.length_window.trans none), rfl, rfl⟩
  | emptied jump =>
    rw [late] at jump
    contradiction

/-- The only frame of a list. -/
theorem Put.single {slot : Slot} (put : Put fl fl' 0 slot) (empty : fl.window = []) :
    fl'.numbered = [(fl.origin, slot)] := by
  have stored := put.stored
  rw [empty] at stored
  rw [JbFramelist.numbered, put.origin]
  generalize fl'.window = window at stored
  cases stored with
  | filled free =>
    have ⟨_, found, _⟩ := free
    contradiction
  | appended gap _ reach =>
    have none : gap = [] := eq_nil_of_length_eq_zero (by simpa using reach)
    rw [none]
    rfl

/-- A frame stored behind the window of a list that is not rebased. -/
theorem Put.appended {distance : Nat} {slot : Slot} (put : Put fl fl' distance slot)
    (behind : fl.size ≤ distance) :
    ∃ gap : List (Int × Slot), (∀ frame ∈ gap, frame.2.Vacant) ∧
      fl'.numbered = fl.numbered ++ gap ++ [(fl.origin + distance, slot)] := by
  have stored := put.stored
  rw [JbFramelist.numbered, put.origin]
  generalize fl'.window = window at stored
  cases stored with
  | filled free =>
    have ⟨_, found, _⟩ := free
    rw [getElem?_eq_none (by rw [fl.length_window]; exact behind)] at found
    contradiction
  | appended gap vacant reach =>
    rw [fl.length_window] at reach
    refine ⟨numberFrom (fl.origin + fl.size) gap,
      fun frame member => vacant _ (mem_numberFrom member), ?_⟩
    have last : fl.origin + ((fl.window ++ gap).length : Nat) = fl.origin + distance := by
      rw [length_append, fl.length_window, reach]
    rw [numberFrom_append, last, numberFrom_append, fl.length_window]
    rfl

section
variable {frameSize maxCount : Nat} {jb : Jbuf} (h : Settled frameSize maxCount jb)
include h

/-- A frame put behind the window is stored, unless the list is too full. -/
theorem putAt_behind (behind : jb.jbFramelist.origin + jb.jbFramelist.size ≤ frame.seq)
    (room : (putAt jb frame).2 ≠ .etoomany) :
    (putAt jb frame).2 = .success ∧ ∃ old : Slot,
      StoredBehind jb.jbFramelist (putAt jb frame).1.jbFramelist frame.seq
        (putSlot old frame.payload (min frame.payload.length frameSize) frame.bitInfo frame.ts) := by
  have outcome := jbFramelistPutAt_spec h.shape frame.seq frame.payload
    (min frame.payload.length jb.jbFrameSize) frame.bitInfo frame.ts
  have size := h.listSize
  have bufferSize := h.bufferSize
  revert room
  unfold putAt
  rw [bufferSize] at outcome ⊢
  generalize jbFramelistPutAt jb.jbFramelist frame.seq frame.payload
    (min frame.payload.length frameSize) frame.bitInfo frame.ts .normal = result at outcome
  intro room
  cases outcome with
  | tooLong long => omega
  | tooLate late => omega
  | full rebased => exact absurd rfl room
  | taken rebased _ occupied =>
    have ⟨old, found, _⟩ := occupied
    rcases rebased.behind behind with ⟨rfl, _, far⟩ | ⟨_, empty, _⟩
    · rw [getElem?_eq_none (by rw [JbFramelist.length_window]; omega)] at found
      contradiction
    · rw [empty] at found
      contradiction
  | @stored fl' fl'' distance old rebased reach put =>
    refine ⟨rfl, old, ?_⟩
    rcases rebased.behind behind with ⟨rfl, number, far⟩ | ⟨none, empty, origin, zero⟩
    · have ⟨gap, vacant, numbered⟩ := put.appended (by omega)
      rw [show jb.jbFramelist.origin + (distance : Int) = frame.seq by omega] at numbered
      exact .appended gap vacant (by omega) numbered
    · obtain rfl : distance = 0 := by omega
      have numbered := put.single empty
      rw [origin] at numbered
      exact .rebased (.inr none) numbered
  | @storedFar fl' fl'' distance old rebased _ far put =>
    have numbered := put.single rfl
    have jumped : maxDropout < frame.seq - jb.jbFramelist.origin ∨ jb.jbFramelist.size = 0 := by
      rcases rebased.behind behind with ⟨_, number, _⟩ | ⟨none, _⟩
      · exact .inl (number ▸ far)
      · exact .inr none
    exact ⟨rfl, old, .rebased jumped numbered⟩

/-! ## The loop -/

/-- The frames that leave a full list. -/
theorem makeRoom_advanced (bound : maxCount < 2 ^ 31)
    (reach : i32 maxCount ≤ frame.seq - jb.jbFramelist.origin)
    (near : frame.seq - jb.jbFramelist.origin ≤ maxDropout) :
    ∃ distance : Nat,
      frame.seq - jbFramelistOrigin jb.jbFramelist - i32 jb.jbMaxCount + 1 = distance ∧
      (distance : Int) = frame.seq - maxCount + 1 - jb.jbFramelist.origin ∧ 0 < distance ∧
      Advanced jb.jbFramelist (makeRoom jb frame).jbFramelist
        (min distance jb.jbFramelist.size) := by
  have capacity := h.bufferCount
  rw [i32_natCast bound] at reach
  unfold maxDropout at near
  have positive : 0 < frame.seq - maxCount + 1 - jb.jbFramelist.origin := by omega
  obtain ⟨distance, number⟩ := Int.eq_ofNat_of_zero_le (Int.le_of_lt positive)
  have computed : frame.seq - jbFramelistOrigin jb.jbFramelist - i32 jb.jbMaxCount + 1 =
      distance := by
    rw [capacity, i32_natCast bound, jbFramelistOrigin]
    omega
  have listed : (makeRoom jb frame).jbFramelist =
      (jbFramelistRemoveHead jb.jbFramelist distance).1 := by
    simp only [makeRoom]
    rw [computed, u32_natCast (by omega)]
  obtain ⟨_, moved⟩ := jbFramelistRemoveHead_spec h.shape distance
  rw [← listed] at moved
  exact ⟨distance, computed, number.symm, by omega, moved⟩

end

/-- The round of the loop over a full list: the assertion holds, the frames that leave are the ones
the new frame is too far ahead of, and the new frame fits then. -/
structure MakesRoom (maxCount : Nat) (full : Jbuf) (frame : Frame) : Prop where
  /-- `pj_assert(distance > 0)`. -/
  distance : 0 < frame.seq - jbFramelistOrigin full.jbFramelist - i32 full.jbMaxCount + 1
  removed : (makeRoom full frame).jbFramelist.numbered = full.jbFramelist.numbered.filter fun slot =>
    decide (frame.seq - maxCount + 1 ≤ slot.1)
  room : (putAt (makeRoom full frame) frame).2 ≠ .etoomany

section
variable {frameSize maxCount : Nat} {jb : Jbuf} (h : Settled frameSize maxCount jb)
include h

theorem Settled.makesRoom (bound : maxCount < 2 ^ 31)
    (full : (JitterBuffer.putAt jb frame).2 = .etoomany) :
    MakesRoom maxCount (JitterBuffer.putAt jb frame).1 frame := by
  have outcome : PutOutcome jb.jbFramelist frame.seq frame.payload
      (min frame.payload.length jb.jbFrameSize) frame.bitInfo frame.ts
      ((JitterBuffer.putAt jb frame).1.jbFramelist, (JitterBuffer.putAt jb frame).2) := jbFramelistPutAt_spec h.shape ..
  rw [full] at outcome
  have ⟨shape, _, reach, near⟩ := outcome.full_iff h.shape
  have put := h.putAt frame
  rw [h.listCount] at reach
  have ⟨distance, computed, number, positive, moved⟩ := makeRoom_advanced put bound reach near
  rw [← put.listCount] at reach bound
  have room := makeRoom_room shape (put.bufferCount.trans put.listCount.symm) bound reach near
  refine ⟨by omega, ?_, room⟩
  rw [JbFramelist.numbered, moved.window, moved.origin, numberFrom_drop, JbFramelist.numbered,
    filter_numberFrom, drop_eq_drop_iff, length_numberFrom, JbFramelist.length_window]
  omega

/-- A frame behind the window of a full list leaves it as it is at first. -/
theorem putAt_full_behind (positive : 0 < i32 maxCount)
    (behind : jb.jbFramelist.origin + jb.jbFramelist.size ≤ frame.seq)
    (full : (putAt jb frame).2 = .etoomany) :
    (putAt jb frame).1.jbFramelist = jb.jbFramelist ∧
      i32 maxCount ≤ frame.seq - jb.jbFramelist.origin ∧
      frame.seq - jb.jbFramelist.origin ≤ maxDropout := by
  have outcome : PutOutcome jb.jbFramelist frame.seq frame.payload
      (min frame.payload.length jb.jbFrameSize) frame.bitInfo frame.ts
      ((putAt jb frame).1.jbFramelist, (putAt jb frame).2) := jbFramelistPutAt_spec h.shape ..
  rw [full] at outcome
  generalize (putAt jb frame).1.jbFramelist = fl' at outcome
  cases outcome with
  | full rebased reach near =>
    rw [h.listCount] at reach
    rcases rebased.behind behind with ⟨same, number, _⟩ | ⟨_, _, _, zero⟩
    · exact ⟨same, by omega, by omega⟩
    · omega

end

/-- The frame is the newest one of the list, which holds besides the given frames only vacant
slots. -/
def Newest (fl : JbFramelist) (kept : List (Int × Slot)) (frame : Int × Slot) : Prop :=
  ∃ gap : List (Int × Slot), (∀ slot ∈ gap, slot.2.Vacant) ∧ fl.numbered = kept ++ gap ++ [frame]

/-- The frames that a frame stored behind them leaves are those it is not too far ahead of. One
beyond the dropout limit leaves none. -/
theorem StoredBehind.newest {index : Int} {slot : Slot} (stored : StoredBehind fl fl' index slot) :
    Newest fl' (fl.numbered.filter fun frame => decide (index - fl.maxCount + 1 ≤ frame.1))
        (index, slot) ∨
      maxDropout < index - fl.origin ∧ fl'.numbered = [(index, slot)] := by
  cases stored with
  | appended gap vacant near numbered =>
    have none : (index - fl.maxCount + 1 - fl.origin).toNat = 0 := by omega
    have kept : fl.numbered.filter (fun frame => decide (index - fl.maxCount + 1 ≤ frame.1)) =
        fl.numbered := by
      rw [JbFramelist.numbered, filter_numberFrom, none]
      rfl
    rw [kept]
    exact .inl ⟨gap, vacant, numbered⟩
  | rebased jumped numbered =>
    rcases jumped with far | none
    · exact .inr ⟨far, numbered⟩
    · have empty : fl.numbered = [] := by
        apply eq_nil_of_length_eq_zero
        rw [JbFramelist.numbered, length_numberFrom, fl.length_window, none]
      refine .inl ⟨[], nofun, ?_⟩
      rw [empty]
      exact numbered

/-- The overflow handling of `pjmedia_jbuf_put_frame3`, in every reachable buffer and for every
frame. One round of the loop is enough, and does as it is meant to. A frame behind the window is
stored as the newest one, after those frames that it is not too far ahead of, or as the only one
where it is beyond the dropout limit. -/
theorem jbufStore_makesRoom (memory : Nat → Slot) (frameSize ptime maxCount : Nat)
    (positive : 1 ≤ maxCount) (most : maxCount ≤ 3000) (calls : List Call) (frame : Frame) :
    let jb := jbufAfter memory frameSize ptime maxCount calls
    let first := putAt jb frame
    let stored := jbufStore jb frame
    (∀ rounds, 1 ≤ rounds → putWhileFull frame rounds first = stored) ∧
    stored.2 ≠ .etoomany ∧
    (first.2 = .etoomany → MakesRoom maxCount first.1 frame) ∧
    (jb.jbFramelist.origin + jb.jbFramelist.size ≤ frame.seq →
      stored.2 = .success ∧ ∃ old : Slot,
        let slot := putSlot old frame.payload (min frame.payload.length frameSize) frame.bitInfo
          frame.ts
        Newest stored.1.jbFramelist
            (jb.jbFramelist.numbered.filter fun slot => decide (frame.seq - maxCount + 1 ≤ slot.1))
            (frame.seq, slot) ∨
          maxDropout < frame.seq - jb.jbFramelist.origin ∧
            stored.1.jbFramelist.numbered = [(frame.seq, slot)]) := by
  intro jb first stored
  have settled : Settled frameSize maxCount jb :=
    jbufAfter_settled memory frameSize ptime positive calls
  have bound : maxCount < 2 ^ 31 := by omega
  by_cases full : first.2 = .etoomany
  · have round := settled.makesRoom bound full
    have once : ∀ rounds, 1 ≤ rounds →
        putWhileFull frame rounds first = putAt (makeRoom first.1 frame) frame := by
      intro rounds some
      obtain ⟨rounds, rfl⟩ := Nat.exists_eq_add_of_le' some
      rw [putWhileFull, if_pos full]
      cases rounds with
      | zero => rfl
      | succ rounds => rw [putWhileFull, if_neg round.room]
    have result : stored = putAt (makeRoom first.1 frame) frame := once 2 (by decide)
    refine ⟨fun rounds some => (once rounds some).trans result.symm, ?_, fun _ => round, ?_⟩
    · rw [result]
      exact round.room
    · intro behind
      have put : Settled frameSize maxCount first.1 := settled.putAt frame
      obtain ⟨same, reach, near⟩ := putAt_full_behind settled (by rw [i32_natCast bound]; omega)
        behind full
      change first.1.jbFramelist = _ at same
      rw [← same] at reach near behind ⊢
      obtain ⟨distance, _, _, _, moved⟩ := makeRoom_advanced put bound reach near
      have origin := moved.origin
      have size := moved.size
      have room := put.makeRoom frame
      obtain ⟨success, old, newest⟩ := putAt_behind room (by omega) round.room
      rw [← result] at success newest
      refine ⟨success, old, ?_⟩
      have newest := newest.newest
      rw [round.removed, room.listCount, filter_filter] at newest
      simp only [Bool.and_self] at newest
      exact newest.imp_right fun far => ⟨by omega, far.2⟩
  · have none : ∀ rounds, putWhileFull frame rounds first = first := by
      intro rounds
      cases rounds with
      | zero => rfl
      | succ rounds => rw [putWhileFull, if_neg full]
    have result : stored = first := none 2
    rw [result]
    refine ⟨fun rounds _ => none rounds, full, fun found => absurd found full, ?_⟩
    intro behind
    obtain ⟨success, old, put⟩ := putAt_behind settled behind full
    refine ⟨success, old, ?_⟩
    rw [← settled.listCount]
    exact put.newest

/-- Three frames that fill a buffer. -/
def threeFrames : List Call := (List.range 3).map fun seq => .putFrame3 (byteFrame seq)

/-- The frame after the next one in a full buffer. -/
theorem jbufStore_makesRoom_three :
    let jb := jbufAfter (fun _ => ⟨[], .missing, 0, 0, 0⟩) 1 1000 3 threeFrames
    (putAt jb (byteFrame 4)).2 = .etoomany ∧ MakesRoom 3 (putAt jb (byteFrame 4)).1 (byteFrame 4) ∧
      (jbufStore jb (byteFrame 4)).2 = .success := by
  intro jb
  have full : (putAt jb (byteFrame 4)).2 = .etoomany := by decide +kernel
  have behind : jb.jbFramelist.origin + jb.jbFramelist.size ≤ (byteFrame 4).seq := by
    decide +kernel
  have ⟨_, _, round, stored⟩ := jbufStore_makesRoom (fun _ => ⟨[], .missing, 0, 0, 0⟩) 1 1000 3
    (by decide) (by decide) threeFrames (byteFrame 4)
  exact ⟨full, round full, (stored behind).1⟩

end Pjmedia.JitterBuffer
