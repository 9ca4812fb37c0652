import Pjproject.Lib.Run
import Pjproject.Jbuf.Window
import Pjproject.Jbuf.Buffer

/-!
# What the jitter buffer delivers

A session is a buffer with two ghost lists: the frames that puts have stored and the
reports that gets have returned. The ledger relates the queue of the frame list to the
stored frames: a normal slot holds the one stored under its sequence number, and a stored
frame that the head has not passed is in the queue. It is kept as long as puts neither
restart the numbering nor jump out of the buffer.
-/

namespace Pjmedia.JitterBuffer
open List Pj

/-- The slot holds a put frame, truncated to the frame size. -/
structure Holds (frameSize : Nat) (slot : Slot) (frame : Frame) : Prop where
  content : slot.content.take slot.contentLen = frame.payload.take frameSize
  contentLen : slot.contentLen = min frame.payload.length frameSize
  bitInfo : slot.bitInfo = frame.bitInfo
  ts : slot.ts = frame.ts

/-- The frames stored so far and the queue agree. -/
structure Ledger (fl : JbFramelist) (stored : List Frame) : Prop where
  shape : fl.Shape
  /-- A normal slot holds the frame stored under its sequence number. -/
  held : ∀ (i : Nat) slot, fl.window[i]? = some slot → slot.frameType = .normal →
    ∃ frame ∈ stored, frame.seq = fl.origin + i ∧ Holds fl.frameSize slot frame
  /-- The slot of a stored frame that the head has not passed is not free. -/
  queued : ∀ frame ∈ stored, fl.origin ≤ frame.seq →
    ∃ (i : Nat) (slot : Slot), frame.seq = fl.origin + i ∧ fl.window[i]? = some slot ∧
      slot.frameType ≠ .missing
  /-- No sequence number is stored twice. -/
  unique : (stored.map Frame.seq).Nodup

/-- The second list is the first one after its head moved on by `count` sequence numbers. -/
structure Slid (fl fl' : JbFramelist) (count : Nat) : Prop where
  shape : fl'.Shape
  window : fl'.window = fl.window.drop count
  origin : fl'.origin = fl.origin + count
  frameSize : fl'.frameSize = fl.frameSize

variable {fl fl' : JbFramelist}

theorem Advanced.slid {count : Nat} (h : Advanced fl fl' count) :
    Slid fl fl' count :=
  ⟨h.shape, h.window, h.origin, h.frameSize⟩

/-- An empty queue slides to any later origin. -/
theorem Slid.renumber (h : fl.Shape) (empty : fl.size = 0) {index : Int}
    (ahead : fl.origin ≤ index) :
    Slid fl { fl with origin := index } (index - fl.origin).toNat where
  shape := h.renumber index
  window := by
    have nil : fl.window = [] := length_eq_zero_iff.mp (by simp [empty])
    rw [nil, drop_nil]
    exact nil
  origin := by
    show index = _
    omega
  frameSize := rfl

variable {stored : List Frame}

/-- The queue of a ledger may slide. -/
theorem Ledger.slid {count : Nat} (h : Ledger fl stored) (moved : Slid fl fl' count) :
    Ledger fl' stored where
  shape := moved.shape
  held := by
    intro i slot hslot normal
    rw [moved.window, getElem?_drop] at hslot
    have ⟨frame, member, seq, holds⟩ := h.held _ slot hslot normal
    refine ⟨frame, member, ?_, moved.frameSize ▸ holds⟩
    rw [seq, moved.origin]
    omega
  queued := by
    intro frame member ahead
    rw [moved.origin] at ahead ⊢
    have ⟨i, slot, seq, hslot, occupied⟩ := h.queued frame member (by omega)
    refine ⟨i - count, slot, by omega, ?_, occupied⟩
    rw [moved.window, getElem?_drop, show count + (i - count) = i by omega]
    exact hslot
  unique := h.unique

/-- Marking a slot changes neither what the normal slots hold nor which slots are free. -/
theorem Ledger.discard (h : Ledger fl stored) (index : Int) :
    Ledger (jbFramelistDiscard fl index).1 stored := by
  rcases jbFramelistDiscard_spec h.shape index with
    ⟨same, _⟩ | ⟨distance, old, _, hold, _, shape, origin, frameSize, _, _, window⟩
  · rw [same]
    exact h
  · refine ⟨shape, ?_, ?_, h.unique⟩
    · intro i slot hslot normal
      rw [window, getElem?_set] at hslot
      split at hslot
      · split at hslot
        · rw [← Option.some.inj hslot] at normal
          contradiction
        · contradiction
      · rw [origin, frameSize]
        exact h.held i slot hslot normal
    · intro frame member ahead
      rw [origin] at ahead ⊢
      have ⟨i, slot, seq, hslot, occupied⟩ := h.queued frame member ahead
      by_cases marked : distance = i
      · subst marked
        have ⟨within, _⟩ := List.getElem?_eq_some_iff.mp hold
        refine ⟨distance, { old with frameType := .discarded }, seq, ?_, by simp⟩
        rw [window, getElem?_set_self within]
      · refine ⟨i, slot, seq, ?_, occupied⟩
        rw [window, getElem?_set_ne marked]
        exact hslot

/-- What a put writes holds the frame. -/
theorem putSlot_holds (old : Slot) (frame : Frame) (frameSize : Nat) :
    Holds frameSize
      (putSlot old frame.payload (min frame.payload.length frameSize) frame.bitInfo frame.ts)
      frame where
  content := by
    have length : (frame.payload.take (min frame.payload.length frameSize)).length =
        min frame.payload.length frameSize := by
      rw [length_take]
      omega
    simp only [putSlot]
    rw [take_append_of_le_length (by omega), take_of_length_le (by omega)]
    by_cases short : frame.payload.length ≤ frameSize
    · rw [min_eq_left short, take_of_length_le le_rfl, take_of_length_le short]
    · rw [min_eq_right (by omega)]
  contentLen := rfl
  bitInfo := rfl
  ts := rfl

/-- What is in the queue after a store: the stored slot at its distance, vacant slots, and
the slots that were there; and no slot that was there and not free is lost. -/
theorem Stored.getElem? {window window' : List Slot} {distance : Nat} {slot : Slot}
    (h : Stored window distance slot window') :
    window'[distance]? = some slot ∧
      (∀ (i : Nat) other, window'[i]? = some other → i ≠ distance →
        other.Vacant ∨ window[i]? = some other) ∧
      ∀ (i : Nat) other, window[i]? = some other → other.frameType ≠ .missing →
        i ≠ distance ∧ window'[i]? = some other := by
  cases h with
  | filled free =>
    have ⟨old, hold, missing⟩ := free
    have ⟨within, _⟩ := List.getElem?_eq_some_iff.mp hold
    refine ⟨getElem?_set_self within, ?_, ?_⟩
    · intro i other hother apart
      rw [getElem?_set_ne (Ne.symm apart)] at hother
      exact .inr hother
    · intro i other hother occupied
      have apart : i ≠ distance := by
        rintro rfl
        rw [hold] at hother
        exact occupied (Option.some.inj hother ▸ missing)
      rw [getElem?_set_ne (Ne.symm apart)]
      exact ⟨apart, hother⟩
  | appended gap vacant reach =>
    refine ⟨?_, ?_, ?_⟩
    · simp [← reach]
    · intro i other hother apart
      by_cases early : i < (window ++ gap).length
      · rw [getElem?_append_left early] at hother
        by_cases old : i < window.length
        · rw [getElem?_append_left old] at hother
          exact .inr hother
        · rw [getElem?_append_right (by omega)] at hother
          exact .inl (vacant other (mem_of_getElem? hother))
      · have late := (List.getElem?_eq_some_iff.mp hother).1
        simp at late early
        omega
    · intro i other hother occupied
      have ⟨within, _⟩ := List.getElem?_eq_some_iff.mp hother
      refine ⟨by omega, ?_⟩
      rw [append_assoc, getElem?_append_left within]
      exact hother

/-- A frame stored at its distance enters the ledger. -/
theorem Ledger.put {distance : Nat} {old : Slot} {frame : Frame} (h : Ledger fl stored)
    (hseq : frame.seq = fl.origin + distance)
    (put : Put fl fl' distance (putSlot old frame.payload (min frame.payload.length fl.frameSize)
      frame.bitInfo frame.ts)) :
    Ledger fl' (stored ++ [frame]) := by
  have ⟨written, others, kept⟩ := put.stored.getElem?
  refine ⟨put.shape, ?_, ?_, ?_⟩
  · intro i slot hslot normal
    rw [put.origin, put.frameSize]
    by_cases here : i = distance
    · subst here
      rw [written] at hslot
      rw [← Option.some.inj hslot]
      exact ⟨frame, by simp, hseq, putSlot_holds _ _ _⟩
    · rcases others i slot hslot here with vacant | before
      · rw [vacant.1] at normal
        contradiction
      · have ⟨other, member, seq, holds⟩ := h.held i slot before normal
        exact ⟨other, by simp [member], seq, holds⟩
  · intro other member ahead
    rw [put.origin] at ahead ⊢
    rcases mem_append.mp member with before | new
    · have ⟨i, slot, seq, hslot, occupied⟩ := h.queued other before ahead
      exact ⟨i, slot, seq, (kept i slot hslot occupied).2, occupied⟩
    · rw [mem_singleton.mp new]
      exact ⟨distance, _, hseq, written, by simp [putSlot]⟩
  · rw [map_append, map_singleton, nodup_append]
    refine ⟨h.unique, by simp, ?_⟩
    rintro seq member _ new rfl
    have ⟨other, before, same⟩ := mem_map.mp member
    rw [mem_singleton] at new
    -- The slot of an earlier frame with this number is taken, so nothing was stored there.
    have ⟨i, slot, atSeq, hslot, occupied⟩ := h.queued other before (by omega)
    exact (kept i slot hslot occupied).1 (by omega)

/-! ## Puts -/

variable {jb : Jbuf}

/-- `jb_framelist_put_at` takes neither its far jump nor its sequence restart branch. -/
def JumpFree (fl : JbFramelist) (index : Int) : Prop :=
  (fl.origin ≤ index ∨ lateness fl index = .tooLate) ∧
    ¬(fl.size ≠ 0 ∧ i32 fl.maxCount ≤ index - fl.origin ∧ maxDropout < index - fl.origin)

instance (fl : JbFramelist) (index : Int) : Decidable (JumpFree fl index) := by
  unfold JumpFree
  infer_instance

/-- A frame that is not behind the origin counts as too late in `lateness`. -/
theorem JumpFree.late {index : Int} (h : JumpFree fl index) :
    lateness fl index = .tooLate := by
  rcases h.1 with ahead | late
  · have near : fl.origin - index < maxMisorder := by
      unfold maxMisorder
      omega
    rw [lateness, if_pos near]
  · exact late

/-- Without a jump, rebasing is sliding. -/
theorem Rebased.slid {index distance : Int} (h : fl.Shape) (free : JumpFree fl index)
    (rebased : Rebased fl index (fl', distance)) :
    ∃ count, Slid fl fl' count := by
  cases rebased with
  | same => exact ⟨0, (Advanced.refl h).slid⟩
  | restarted _ late =>
    rw [free.late] at late
    contradiction
  | empty empty ahead =>
    rcases ahead with ahead | late
    · exact ⟨_, Slid.renumber h empty ahead⟩
    · rw [free.late] at late
      contradiction
  | emptied late =>
    rw [free.late] at late
    contradiction

/-- The list follows the first one in a session: its ledger holds, with the numbering going
on. -/
structure Follows (fl fl' : JbFramelist) (stored : List Frame) : Prop where
  ledger : Ledger fl' stored
  origin_le : fl.origin ≤ fl'.origin
  frameSize : fl'.frameSize = fl.frameSize

theorem Follows.trans {fl'' : JbFramelist} {stored' : List Frame} (h : Follows fl fl' stored)
    (h' : Follows fl' fl'' stored') : Follows fl fl'' stored' :=
  ⟨h'.ledger, h.origin_le.trans h'.origin_le, h'.frameSize.trans h.frameSize⟩

theorem Ledger.follows {count : Nat} (h : Ledger fl stored) (moved : Slid fl fl' count) :
    Follows fl fl' stored where
  ledger := h.slid moved
  origin_le := by
    rw [moved.origin]
    omega
  frameSize := moved.frameSize

/-- The stored frames after a put with the given status. -/
def storedAfter (stored : List Frame) (frame : Frame) (status : Status) : List Frame :=
  if status = .success then stored ++ [frame] else stored

/-- A call of `jb_framelist_put_at` without a jump. -/
theorem Ledger.putAt {frame : Frame} (h : Ledger jb.jbFramelist stored)
    (sized : jb.jbFrameSize = jb.jbFramelist.frameSize) (free : JumpFree jb.jbFramelist frame.seq) :
    Follows jb.jbFramelist (putAt jb frame).1.jbFramelist
      (storedAfter stored frame (putAt jb frame).2) := by
  have outcome := jbFramelistPutAt_spec h.shape frame.seq frame.payload
    (min frame.payload.length jb.jbFrameSize) frame.bitInfo frame.ts
  simp only [JitterBuffer.putAt]
  generalize jbFramelistPutAt jb.jbFramelist frame.seq frame.payload
    (min frame.payload.length jb.jbFrameSize) frame.bitInfo frame.ts .normal = result at outcome ⊢
  have still : Follows jb.jbFramelist jb.jbFramelist stored :=
    h.follows (Advanced.refl h.shape).slid
  cases outcome with
  | tooLong => exact still
  | tooLate => exact still
  | full rebased =>
    have ⟨count, slid⟩ := rebased.slid h.shape free
    exact h.follows slid
  | taken rebased =>
    have ⟨count, slid⟩ := rebased.slid h.shape free
    exact h.follows slid
  | stored rebased _ put =>
    have ⟨count, slid⟩ := rebased.slid h.shape free
    have follows := h.follows slid
    have ⟨_, _, hseq, _⟩ := rebased.proper h.shape
    rw [sized, ← follows.frameSize] at put
    refine follows.trans ⟨follows.ledger.put hseq put, ?_, put.frameSize⟩
    rw [put.origin]
  | storedFar rebased reach far =>
    cases rebased with
    | same nonempty => exact absurd ⟨nonempty, reach, far⟩ free.2
    | restarted _ late =>
      rw [free.late] at late
      contradiction
    | empty =>
      unfold maxDropout at far
      omega
    | emptied late =>
      contradiction

/-- The loop of `pjmedia_jbuf_put_frame3` calls `jb_framelist_put_at` without a jump. -/
def JumpFreeWhileFull (frame : Frame) : Nat → Jbuf × Status → Prop
  | 0, _ => True
  | fuel + 1, (jb, status) =>
    status = .etoomany →
      JumpFree (makeRoom jb frame).jbFramelist frame.seq ∧
        JumpFreeWhileFull frame fuel (putAt (makeRoom jb frame) frame)

instance JumpFreeWhileFull.decidable (frame : Frame) :
    ∀ (fuel : Nat) (put : Jbuf × Status), Decidable (JumpFreeWhileFull frame fuel put)
  | 0, _ => .isTrue trivial
  | fuel + 1, (jb, status) =>
    haveI := JumpFreeWhileFull.decidable frame fuel (putAt (makeRoom jb frame) frame)
    inferInstanceAs (Decidable (status = .etoomany →
      JumpFree (makeRoom jb frame).jbFramelist frame.seq ∧
        JumpFreeWhileFull frame fuel (putAt (makeRoom jb frame) frame)))

/-- All calls of `jb_framelist_put_at` in a put of the frame are without a jump. -/
def PutJumpFree (jb : Jbuf) (frame : Frame) : Prop :=
  JumpFree jb.jbFramelist frame.seq ∧ JumpFreeWhileFull frame 2 (putAt jb frame)

instance (jb : Jbuf) (frame : Frame) : Decidable (PutJumpFree jb frame) := by
  unfold PutJumpFree
  infer_instance

/-- The loop over a full buffer. -/
theorem Ledger.putWhileFull {frame : Frame} {fuel : Nat} {status : Status}
    (h : Ledger jb.jbFramelist (storedAfter stored frame status))
    (sized : jb.jbFrameSize = jb.jbFramelist.frameSize)
    (free : JumpFreeWhileFull frame fuel (jb, status)) :
    Follows jb.jbFramelist (putWhileFull frame fuel (jb, status)).1.jbFramelist
      (storedAfter stored frame (putWhileFull frame fuel (jb, status)).2) := by
  induction fuel generalizing jb status with
  | zero => exact h.follows (Advanced.refl h.shape).slid
  | succ fuel ih =>
    simp only [JitterBuffer.putWhileFull]
    by_cases full : status = .etoomany
    · rw [if_pos full]
      have ⟨here, later⟩ := free full
      have before : Ledger jb.jbFramelist stored := by
        rw [full] at h
        exact h
      have room : Follows jb.jbFramelist (makeRoom jb frame).jbFramelist stored :=
        before.follows (jbFramelistRemoveHead_spec before.shape _).2.slid
      have put := room.ledger.putAt (sized.trans room.frameSize.symm) here
      exact (room.trans put).trans
        (ih put.ledger (sized.trans (room.trans put).frameSize.symm) later)
    · rw [if_neg full]
      exact h.follows (Advanced.refl h.shape).slid

theorem Ledger.store {frame : Frame} (h : Ledger jb.jbFramelist stored)
    (sized : jb.jbFrameSize = jb.jbFramelist.frameSize) (free : PutJumpFree jb frame) :
    Follows jb.jbFramelist (jbufStore jb frame).1.jbFramelist
      (storedAfter stored frame (jbufStore jb frame).2) := by
  have first := h.putAt sized free.1
  exact first.trans
    (first.ledger.putWhileFull (sized.trans first.frameSize.symm) free.2)

/-- Making room for a frame that found the list full makes room for it. -/
theorem makeRoom_room (h : jb.jbFramelist.Shape)
    (capacity : jb.jbMaxCount = jb.jbFramelist.maxCount)
    (bound : jb.jbFramelist.maxCount < 2 ^ 31) {frame : Frame}
    (reach : i32 jb.jbFramelist.maxCount ≤ frame.seq - jb.jbFramelist.origin)
    (near : frame.seq - jb.jbFramelist.origin ≤ maxDropout) :
    (putAt (makeRoom jb frame) frame).2 ≠ .etoomany := by
  obtain ⟨distance, hdistance⟩ : ∃ distance : Nat,
      frame.seq - jbFramelistOrigin jb.jbFramelist - i32 jb.jbMaxCount + 1 = distance := by
    apply Int.eq_ofNat_of_zero_le
    rw [capacity, jbFramelistOrigin]
    omega
  have small : distance < 2 ^ 32 := by
    rw [capacity, i32_natCast bound, jbFramelistOrigin] at hdistance
    unfold maxDropout at near
    omega
  have ⟨_, room⟩ := jbFramelistRemoveHead_spec h distance
  have listed : (makeRoom jb frame).jbFramelist =
      (jbFramelistRemoveHead jb.jbFramelist distance).1 := by
    simp only [makeRoom]
    rw [hdistance, u32_natCast small]
  rw [← listed] at room
  rw [capacity, i32_natCast bound, jbFramelistOrigin] at hdistance
  have positive := h.head_lt
  have outcome := jbFramelistPutAt_spec room.shape frame.seq frame.payload
    (min frame.payload.length (makeRoom jb frame).jbFrameSize) frame.bitInfo frame.ts
  apply outcome.not_full
  · rw [room.maxCount, i32_natCast bound]
    omega
  · rw [room.origin]
    omega
  · rw [room.maxCount, i32_natCast bound, room.origin, room.size]
    omega

/-- `jbuf_update` keeps the frames, removes the oldest one or marks one. -/
theorem jbufUpdate_framelist (jb : Jbuf) (oper : JbOp) :
    (jbufUpdate jb oper).jbFrameSize = jb.jbFrameSize ∧
      ((jbufUpdate jb oper).jbFramelist = jb.jbFramelist ∨
        (jbufUpdate jb oper).jbFramelist = (jbFramelistRemoveHead jb.jbFramelist 1).1 ∨
        ∃ index, (jbufUpdate jb oper).jbFramelist =
          (jbFramelistDiscard jb.jbFramelist index).1) := by
  have switched := Retimed.switchOp jb oper
  rw [← switched.framelist, ← switched.frameSize]
  simp only [jbufUpdate]
  split
  · cases (jbufSwitchOp jb oper).jbDiscardAlgo with
    | none => exact ⟨rfl, .inl rfl⟩
    | static =>
      simp only [jbufDiscardStatic]
      split
      · split <;> split
        · exact ⟨rfl, .inr (.inl rfl)⟩
        · exact ⟨rfl, .inl rfl⟩
        · exact ⟨rfl, .inr (.inl rfl)⟩
        · exact ⟨rfl, .inl rfl⟩
      · exact ⟨rfl, .inl rfl⟩
    | progressive =>
      simp only [jbufDiscardProgressive]
      split
      · exact ⟨rfl, .inl rfl⟩
      · split
        · exact ⟨rfl, .inl rfl⟩
        · split
          · exact ⟨rfl, .inr (.inr ⟨_, rfl⟩)⟩
          · exact ⟨rfl, .inl rfl⟩
  · exact ⟨rfl, .inl rfl⟩

theorem Ledger.update {jb : Jbuf} {stored : List Frame} (h : Ledger jb.jbFramelist stored)
    (oper : JbOp) : Follows jb.jbFramelist (jbufUpdate jb oper).jbFramelist stored := by
  rcases (jbufUpdate_framelist jb oper).2 with same | removed | ⟨index, marked⟩
  · rw [same]
    exact h.follows (Advanced.refl h.shape).slid
  · rw [removed]
    exact h.follows (jbFramelistRemoveHead_spec h.shape 1).2.slid
  · rw [marked]
    refine ⟨h.discard index, ?_, ?_⟩
    · unfold jbFramelistDiscard
      split <;> simp
    · unfold jbFramelistDiscard
      split <;> rfl

/-- A put in a session. -/
theorem Ledger.putFrame3 {frame : Frame} (h : Ledger jb.jbFramelist stored)
    (sized : jb.jbFrameSize = jb.jbFramelist.frameSize) (free : PutJumpFree jb frame) :
    Follows jb.jbFramelist (jbufPutFrame3 jb frame).1.jbFramelist
      (if (jbufPutFrame3 jb frame).2 then stored else stored ++ [frame]) := by
  have store := h.store sized free
  by_cases status : (jbufStore jb frame).2 = .success
  · rw [storedAfter, if_pos status] at store
    simp only [jbufPutFrame3, if_pos status]
    exact store.trans (@Ledger.update (jbufCountPut _ _) _ store.ledger .put)
  · rw [storedAfter, if_neg status] at store
    simp only [jbufPutFrame3, if_neg status]
    exact store

/-! ## Gets -/

/-- The frame that a get into a buffer of the given capacity should report for a put. -/
def delivery (frameSize : Nat) (frame : Frame) (size : Option Nat) : JbFrame :=
  let payload := frame.payload.take frameSize
  let copied := payload.take (size.getD payload.length)
  { frame := copied, size := copied.length, frameType := .normal, bitInfo := frame.bitInfo
    ts := frame.ts, seq := frame.seq }

/-- A normal slot that holds a frame is reported as its delivery. -/
theorem Holds.slotFrame {frameSize : Nat} {slot : Slot} {frame : Frame}
    (h : Holds frameSize slot frame) (normal : slot.frameType = .normal) (size : Option Nat) :
    slotFrame slot frame.seq size false = delivery frameSize frame size := by
  have length : (frame.payload.take frameSize).length = slot.contentLen := by
    rw [length_take, h.contentLen, min_comm]
  have copied : slot.content.take (min (size.getD slot.contentLen) slot.contentLen) =
      (frame.payload.take frameSize).take (size.getD slot.contentLen) := by
    rw [← take_take, h.content]
  have number : ((frame.payload.take frameSize).take (size.getD slot.contentLen)).length =
      min (size.getD slot.contentLen) slot.contentLen := by
    rw [length_take, length]
  simp [JitterBuffer.slotFrame, delivery, length, number, copied, normal, h.bitInfo, h.ts]

/-- What the first part of a get does in a session: it reports a frame of the queue and
moves the head past it, or reports none. A normal frame is the delivery of a stored one. -/
theorem Ledger.take (h : Ledger jb.jbFramelist stored) (size : Option Nat) :
    Follows jb.jbFramelist (jbufTake jb size).1.jbFramelist stored ∧
      (∀ frame, (jbufTake jb size).2.frame = some frame →
        jb.jbFramelist.origin ≤ frame.seq ∧
          frame.seq < (jbufTake jb size).1.jbFramelist.origin) ∧
      ((jbufTake jb size).2.frameType = .normal → ∃ frame ∈ stored,
        (jbufTake jb size).2.frame = some (delivery jb.jbFramelist.frameSize frame size)) := by
  by_cases prefetching : jb.jbPrefetching
  · simp only [jbufTake, prefetching, if_true]
    exact ⟨h.follows (Advanced.refl h.shape).slid, by simp, by simp⟩
  · have spec := jbFramelistGet_spec h.shape size
    simp only [jbufTake, prefetching, if_false, Bool.false_eq_true]
    cases hslot : jb.jbFramelist.window[leadingDiscarded jb.jbFramelist.window]? with
    | none =>
      rw [hslot] at spec
      simp only [spec.1]
      exact ⟨h.follows spec.2.slid, by simp, by simp⟩
    | some slot =>
      rw [hslot] at spec
      obtain ⟨reported, advanced⟩ := spec
      simp only [reported]
      refine ⟨h.follows advanced.slid, ?_, ?_⟩
      · rintro frame ⟨⟩
        rw [advanced.origin]
        unfold slotFrame
        split <;> simp only <;> omega
      · intro normal
        -- A normal report means that no discarded frame was skipped.
        have first : leadingDiscarded jb.jbFramelist.window = 0 := by
          by_contra skipped
          simp [slotFrame, skipped, reportedType] at normal
        rw [first] at hslot normal ⊢
        have type : slot.frameType = .normal := by
          simp only [slotFrame, reportedType] at normal
          by_contra other
          simp [other] at normal
        obtain ⟨frame, member, seq, holds⟩ := h.held 0 slot hslot type
        refine ⟨frame, member, ?_⟩
        rw [← holds.slotFrame type size, seq]
        rfl

/-- A get in a session. -/
theorem Ledger.getFrame3 (h : Ledger jb.jbFramelist stored) (size : Option Nat) :
    Follows jb.jbFramelist (jbufGetFrame3 jb size).1.jbFramelist stored ∧
      (∀ frame, (jbufGetFrame3 jb size).2.frame = some frame →
        jb.jbFramelist.origin ≤ frame.seq ∧
          frame.seq < (jbufGetFrame3 jb size).1.jbFramelist.origin) ∧
      ((jbufGetFrame3 jb size).2.frameType = .normal → ∃ frame ∈ stored,
        (jbufGetFrame3 jb size).2.frame = some (delivery jb.jbFramelist.frameSize frame size)) := by
  have ⟨follows, passed, delivered⟩ := h.take size
  have updated : Follows (jbufTake jb size).1.jbFramelist
      (jbufGetFrame3 jb size).1.jbFramelist stored :=
    @Ledger.update (jbufCountGet (jbufTake jb size).1) _ follows.ledger .get
  refine ⟨follows.trans updated, ?_, delivered⟩
  intro frame reported
  have ⟨after, before⟩ := passed frame reported
  exact ⟨after, before.trans_le updated.origin_le⟩

/-! ## Sessions -/

/-- A buffer, the frames stored in it and the gets made on it with what they returned. -/
structure Session where
  jb : Jbuf
  /-- The frames whose put did not set `discarded`, in the order of their puts. -/
  stored : List Frame
  /-- The gets: the capacity of the caller's buffer and the report. -/
  gets : List (Option Nat × JbReport)

/-- The calls of a session. -/
inductive Traffic
  | put (frame : Frame)
  | get (size : Option Nat)

/-- A session after a call. -/
def Session.step (s : Session) : Traffic → Session
  | .put frame =>
    let put := jbufPutFrame3 s.jb frame
    { s with jb := put.1, stored := if put.2 then s.stored else s.stored ++ [frame] }
  | .get size =>
    let get := jbufGetFrame3 s.jb size
    { s with jb := get.1, gets := s.gets ++ [(size, get.2)] }

/-- A session on a buffer nothing was put into. -/
def Session.start (jb : Jbuf) : Session := { jb := jb, stored := [], gets := [] }

/-- The sequence numbers that successful gets reported, in order. -/
def Session.reported (s : Session) : List Int :=
  s.gets.filterMap fun get => get.2.frame.map JbFrame.seq

/-- The sequence numbers that gets of normal frames reported, in order. -/
def Session.returned (s : Session) : List Int :=
  (s.gets.filter fun get => get.2.frameType = .normal).filterMap
    fun get => get.2.frame.map JbFrame.seq

/-- The call takes neither the far jump nor the sequence restart branch. -/
def Session.JumpFree (s : Session) : Traffic → Prop
  | .put frame => PutJumpFree s.jb frame
  | .get _ => True

/-- The invariant of a session. -/
structure Session.Faithful (frameSize : Nat) (s : Session) : Prop where
  ledger : Ledger s.jb.jbFramelist s.stored
  listSize : s.jb.jbFramelist.frameSize = frameSize
  bufferSize : s.jb.jbFrameSize = frameSize
  /-- What was reported is behind the head. -/
  passed : ∀ seq ∈ s.reported, seq < s.jb.jbFramelist.origin
  ordered : s.reported.Pairwise (· < ·)
  delivered : ∀ get ∈ s.gets, get.2.frameType = .normal →
    ∃ frame ∈ s.stored, get.2.frame = some (delivery frameSize frame get.1)

/-- A put keeps the settings of the buffer. -/
theorem jbufPutFrame3_frameSize (jb : Jbuf) (frame : Frame) :
    (jbufPutFrame3 jb frame).1.jbFrameSize = jb.jbFrameSize := by
  have looped : ∀ fuel (put : Jbuf × Status), put.1.jbFrameSize = jb.jbFrameSize →
      (putWhileFull frame fuel put).1.jbFrameSize = jb.jbFrameSize := by
    intro fuel
    induction fuel with
    | zero => exact fun put same => same
    | succ fuel ih =>
      intro put same
      simp only [putWhileFull]
      split
      · exact ih _ same
      · exact same
  simp only [jbufPutFrame3]
  split
  · exact (jbufUpdate_framelist _ _).1.trans (looped 2 (putAt jb frame) rfl)
  · exact looped 2 (putAt jb frame) rfl

/-- A get keeps the settings of the buffer. -/
theorem jbufGetFrame3_frameSize (jb : Jbuf) (size : Option Nat) :
    (jbufGetFrame3 jb size).1.jbFrameSize = jb.jbFrameSize := by
  refine (jbufUpdate_framelist _ _).1.trans ?_
  simp only [jbufCountGet, jbufTake]
  split
  · rfl
  · split <;> rfl

/-- A call without a jump keeps a session faithful. -/
theorem Session.Faithful.step {frameSize : Nat} {s : Session} {traffic : Traffic}
    (h : s.Faithful frameSize) (free : s.JumpFree traffic) :
    (s.step traffic).Faithful frameSize := by
  cases traffic with
  | put frame =>
    have put := h.ledger.putFrame3 (h.bufferSize.trans h.listSize.symm) free
    refine ⟨put.ledger, put.frameSize.trans h.listSize,
      (jbufPutFrame3_frameSize _ _).trans h.bufferSize, ?_, h.ordered, ?_⟩
    · exact fun seq reported => (h.passed seq reported).trans_le put.origin_le
    · intro get member normal
      have ⟨source, stored, delivered⟩ := h.delivered get member normal
      refine ⟨source, ?_, delivered⟩
      simp only [Session.step]
      split
      · exact stored
      · exact mem_append_left _ stored
  | get size =>
    have ⟨follows, passed, delivered⟩ := h.ledger.getFrame3 size
    have reported : (s.step (.get size)).reported =
        s.reported ++ ((jbufGetFrame3 s.jb size).2.frame.map JbFrame.seq).toList := by
      simp only [Session.reported, Session.step, filterMap_append]
      cases found : (jbufGetFrame3 s.jb size).2.frame <;> simp [found]
    refine ⟨follows.ledger, follows.frameSize.trans h.listSize,
      (jbufGetFrame3_frameSize _ _).trans h.bufferSize, ?_, ?_, ?_⟩
    · intro seq member
      rw [reported, mem_append] at member
      rcases member with before | new
      · exact (h.passed seq before).trans_le follows.origin_le
      · obtain ⟨frame, hframe, rfl⟩ : ∃ frame, (jbufGetFrame3 s.jb size).2.frame = some frame ∧
            frame.seq = seq := by simpa using new
        exact (passed frame hframe).2
    · rw [reported, pairwise_append]
      refine ⟨h.ordered, ?_, ?_⟩
      · cases (jbufGetFrame3 s.jb size).2.frame <;> simp
      · intro before hbefore new hnew
        obtain ⟨frame, hframe, rfl⟩ : ∃ frame, (jbufGetFrame3 s.jb size).2.frame = some frame ∧
            frame.seq = new := by simpa using hnew
        exact (h.passed before hbefore).trans_le (passed frame hframe).1
    · intro get member normal
      simp only [Session.step, mem_append, mem_singleton] at member
      rcases member with before | rfl
      · exact h.delivered get before normal
      · rw [← h.listSize]
        exact delivered normal

/-- A session starts faithful on a created buffer, with any discard algorithm. -/
theorem Session.start_faithful (memory : Nat → Slot) (frameSize ptime : Nat) {maxCount : Nat}
    (positive : 1 ≤ maxCount) (algo : JbDiscardAlgo) :
    (Session.start (jbufSetDiscard (jbufCreate memory frameSize ptime maxCount) algo)).Faithful
      frameSize where
  ledger := by
    refine ⟨@jbFramelistReset_shape (jbFramelistInit memory frameSize maxCount) positive,
      ?_, ?_, nodup_nil⟩
    · intro i slot hslot
      contradiction
    · intro frame member
      contradiction
  listSize := rfl
  bufferSize := rfl
  passed := by
    intro seq member
    contradiction
  ordered := List.Pairwise.nil
  delivered := by
    intro get member
    contradiction

/-- The delivery of the jitter buffer, for every session of puts and gets on a created buffer
in which no put jumps: a normal get returns the one frame stored under its sequence number,
no stored frame is returned twice, and the reported sequence numbers increase. -/
theorem session_delivery (memory : Nat → Slot) (frameSize ptime maxCount : Nat)
    (positive : 1 ≤ maxCount) (algo : JbDiscardAlgo) (traffic : List Traffic)
    (free : Run.Meets Session.step Session.JumpFree
      (Session.start (jbufSetDiscard (jbufCreate memory frameSize ptime maxCount) algo)) traffic) :
    let s := traffic.foldl Session.step
      (Session.start (jbufSetDiscard (jbufCreate memory frameSize ptime maxCount) algo))
    (∀ get ∈ s.gets, get.2.frameType = .normal →
      ∃ frame ∈ s.stored, get.2.frame = some (delivery frameSize frame get.1)) ∧
      (s.stored.map Frame.seq).Nodup ∧ s.returned.Nodup ∧ s.reported.Pairwise (· < ·) := by
  intro s
  have faithful : s.Faithful frameSize :=
    (Run.always (fun _ _ => Session.Faithful.step)
      (Session.start_faithful memory frameSize ptime positive algo) free).last
  have returned : s.returned.Sublist s.reported := filter_sublist.filterMap _
  refine ⟨faithful.delivered, faithful.ledger.unique, ?_, faithful.ordered⟩
  exact (faithful.ordered.imp Int.ne_of_lt).sublist returned

instance Session.decidableJumpFree (s : Session) (traffic : Traffic) :
    Decidable (s.JumpFree traffic) := by
  unfold Session.JumpFree
  cases traffic <;> infer_instance

/-- A gap, a late frame that fills it, a duplicate, an overflow and gets. -/
def mixedTraffic : List Traffic :=
  let frame (seq : Int) : Frame := { payload := [1, 2, 3], bitInfo := 0, seq := seq, ts := 160 }
  [.put (frame 5), .put (frame 7), .put (frame 6), .put (frame 7), .get (some 2), .put (frame 9),
    .put (frame 12), .get none, .get (some 1), .get none, .get none]

/-- The delivery of a session with losses, whose gets report the numbers listed. -/
theorem session_delivery_mixed :
    let s := mixedTraffic.foldl Session.step (Session.start (jbufSetDiscard
      (jbufCreate (fun _ => ⟨[], .missing, 0, 0, 0⟩) 2 20 4) .static))
    s.reported = [5, 9, 10, 11, 12] ∧ s.returned.Nodup := by
  have delivery := session_delivery (fun _ => ⟨[], .missing, 0, 0, 0⟩) 2 20 4 (by decide) .static
    mixedTraffic (by decide +kernel)
  exact ⟨by decide +kernel, delivery.2.2.1⟩

end Pjmedia.JitterBuffer
