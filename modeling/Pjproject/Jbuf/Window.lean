import Pjproject.Jbuf.FrameList

/-!
# The frame list as a queue

The slots from `head` on, `size` of them, are the queue a frame list stands for. Each
operation of the frame list has one specification here, on that queue: removing from the
head drops elements, a put replaces a missing element or appends, a discard marks one.
Nothing below looks at the arrays of the frame list again.
-/

namespace Pjmedia.JitterBuffer
open Option List Pj

/-- The queue of a frame list: its `size` slots from `head` on. -/
def JbFramelist.window (fl : JbFramelist) : List Slot :=
  Circular.window fl.maxCount fl.slots fl.head fl.size

/-- The part of the ring invariant that does not speak of the discard count. -/
structure JbFramelist.Shape (fl : JbFramelist) : Prop where
  /-- The head is an index of the arrays. -/
  head_lt : fl.head < fl.maxCount
  /-- The window is at most one revolution. -/
  size_le : fl.size ≤ fl.maxCount
  /-- Slots outside the window are vacant. -/
  outside : Circular.Outside Slot.Vacant fl.maxCount fl.slots fl.head fl.size

@[simp] theorem JbFramelist.length_window (fl : JbFramelist) : fl.window.length = fl.size := by
  simp [window]

/-- The discard count after the frames of a list are removed one by one. -/
def dropDiscarded (num : Nat) (slots : List Slot) : Nat :=
  slots.foldl (fun num slot => if slot.isDiscarded then u32 ((num : Int) - 1) else num) num

/-- Removing in two parts. -/
theorem dropDiscarded_append (num : Nat) (left right : List Slot) :
    dropDiscarded num (left ++ right) = dropDiscarded (dropDiscarded num left) right :=
  foldl_append

variable {slots : List Slot}

/-- A count that covers the removed marks goes down by their number. -/
theorem dropDiscarded_eq {num : Nat} (covers : slots.countP Slot.isDiscarded ≤ num)
    (bound : num < 2 ^ 32) :
    dropDiscarded num slots = num - slots.countP Slot.isDiscarded := by
  induction slots generalizing num with
  | nil => rfl
  | cons slot rest ih =>
    rw [countP_cons] at covers ⊢
    have unfolded : dropDiscarded num (slot :: rest) =
        dropDiscarded (if slot.isDiscarded then u32 ((num : Int) - 1) else num) rest := rfl
    rw [unfolded]
    by_cases mark : slot.isDiscarded
    · simp only [mark, if_true] at covers ⊢
      have one : u32 ((num : Int) - 1) = num - 1 := @u32_sub num 1 (by omega) bound
      rw [one, ih (by omega) (by omega)]
      omega
    · simp only [mark, if_false, Nat.add_zero, Bool.false_eq_true] at covers ⊢
      exact ih covers bound

/-- Frames without a mark leave the count. -/
theorem dropDiscarded_unmarked {num : Nat} (unmarked : ∀ slot ∈ slots, slot.isDiscarded = false) :
    dropDiscarded num slots = num := by
  induction slots with
  | nil => rfl
  | cons slot rest ih =>
    have head := unmarked slot (by simp)
    have tail := ih fun other member => unmarked other (by simp [member])
    simpa [dropDiscarded, head] using tail

/-- The second list is the first one after `count` frames left its head. -/
structure Advanced (fl fl' : JbFramelist) (count : Nat) : Prop where
  shape : fl'.Shape
  window : fl'.window = fl.window.drop count
  origin : fl'.origin = fl.origin + count
  frameSize : fl'.frameSize = fl.frameSize
  maxCount : fl'.maxCount = fl.maxCount
  discardedNum : fl'.discardedNum = dropDiscarded fl.discardedNum (fl.window.take count)

variable {fl : JbFramelist}

/-- Nothing left the head. -/
theorem Advanced.refl (h : fl.Shape) : Advanced fl fl 0 :=
  ⟨h, rfl, by simp, rfl, rfl, rfl⟩

variable {fl' : JbFramelist}

/-- Leaving the head twice. -/
theorem Advanced.trans {fl'' : JbFramelist} {first second : Nat} (h : Advanced fl fl' first)
    (h' : Advanced fl' fl'' second) :
    Advanced fl fl'' (first + second) where
  shape := h'.shape
  window := by rw [h'.window, h.window, drop_drop]
  origin := by
    rw [h'.origin, h.origin]
    omega
  frameSize := h'.frameSize.trans h.frameSize
  maxCount := h'.maxCount.trans h.maxCount
  discardedNum := by
    rw [h'.discardedNum, h.discardedNum, h.window, ← dropDiscarded_append, take_add]

/-- The size goes down with the queue. -/
theorem Advanced.size {count : Nat} (h : Advanced fl fl' count) :
    fl'.size = fl.size - count := by
  rw [← JbFramelist.length_window, h.window, length_drop, JbFramelist.length_window]

/-! ## Removing from the head -/

/-- Clearing a range of indices lowers the count by the marks in it. -/
theorem clearRange_discardedNum (fl : JbFramelist) {start count : Nat}
    (inside : start + count ≤ fl.maxCount) :
    (clearRange fl start count).discardedNum =
      dropDiscarded fl.discardedNum (Circular.window fl.maxCount fl.slots start count) := by
  have plain : Circular.window fl.maxCount fl.slots start count =
      (List.range count).map fun i => fl.slots (start + i) := by
    apply map_congr_left
    intro i hi
    have := mem_range.mp hi
    rw [Circular.slot, Nat.mod_eq_of_lt (by omega)]
  rw [plain, dropDiscarded, foldl_map]
  rfl

/-- Clearing the slots of the first `count` offsets, in the two steps of
`jb_framelist_remove_head`. -/
theorem clearRange_twice (h : fl.head < fl.maxCount) {count step1 : Nat}
    (fits : count ≤ fl.maxCount)
    (hstep : step1 = if fl.maxCount < fl.head + count then fl.maxCount - fl.head else count) :
    let cleared := clearRange (clearRange fl fl.head step1) 0 (count - step1)
    (∀ offset, offset < fl.maxCount →
      cleared.slots (Circular.slot fl.maxCount fl.head offset) =
        if offset < count then (fl.slots (Circular.slot fl.maxCount fl.head offset)).clear
        else fl.slots (Circular.slot fl.maxCount fl.head offset)) ∧
    cleared.discardedNum = dropDiscarded fl.discardedNum
      (Circular.window fl.maxCount fl.slots fl.head count) := by
  have hstep1 : step1 ≤ count ∧ fl.head + step1 ≤ fl.maxCount ∧ count - step1 ≤ fl.head ∧
      (count ≠ step1 → fl.head + step1 = fl.maxCount) := by
    split at hstep <;> omega
  constructor
  · intro offset hoffset
    obtain ⟨index, hindex⟩ : ∃ index, Circular.slot fl.maxCount fl.head offset = index := ⟨_, rfl⟩
    -- The slot is the plain sum, or the sum less one revolution.
    have place : (fl.head + offset < fl.maxCount ∧ index = fl.head + offset) ∨
        (fl.maxCount ≤ fl.head + offset ∧ index = fl.head + offset - fl.maxCount) := by
      by_cases plain : fl.head + offset < fl.maxCount
      · exact .inl ⟨plain, by rw [← hindex, Circular.slot, Nat.mod_eq_of_lt plain]⟩
      · refine .inr ⟨by omega, ?_⟩
        rw [← hindex, Circular.slot, Nat.mod_eq_sub_mod (by omega), Nat.mod_eq_of_lt (by omega)]
    simp only [clearRange]
    by_cases removed : offset < count
    · split
      · rw [if_neg (by omega)]
      · rw [if_pos (by omega)]
    · rw [if_neg removed, if_neg (by omega), if_neg (by omega)]
  · have second : (clearRange (clearRange fl fl.head step1) 0 (count - step1)).discardedNum =
        dropDiscarded (clearRange fl fl.head step1).discardedNum
          (Circular.window fl.maxCount (clearRange fl fl.head step1).slots 0 (count - step1)) :=
      clearRange_discardedNum (clearRange fl fl.head step1)
        (show 0 + (count - step1) ≤ fl.maxCount by omega)
    rw [second, clearRange_discardedNum fl hstep1.2.1, ← dropDiscarded_append]
    congr 1
    obtain ⟨rest, rfl⟩ := Nat.exists_eq_add_of_le hstep1.1
    rw [Circular.window_add, Nat.add_sub_cancel_left]
    congr 1
    by_cases wrapped : rest = 0
    · subst wrapped
      rfl
    · have atEnd : fl.head + step1 = fl.maxCount := hstep1.2.2.2 (by omega)
      rw [Circular.slot, atEnd, Nat.mod_self]
      apply Circular.window_congr
      intro offset hoffset
      have small : Circular.slot fl.maxCount 0 offset = offset := by
        rw [Circular.slot, Nat.zero_add, Nat.mod_eq_of_lt (by omega)]
      simp only [clearRange]
      rw [if_neg (by omega)]

/-- `jb_framelist_remove_head` takes the requested frames, or all there are, from the head. -/
theorem jbFramelistRemoveHead_spec (h : fl.Shape) (count : Nat) :
    (jbFramelistRemoveHead fl count).2 = min count fl.size ∧
      Advanced fl (jbFramelistRemoveHead fl count).1 (min count fl.size) := by
  have clipped : (if fl.size < count then fl.size else count) = min count fl.size := by
    split <;> omega
  simp only [jbFramelistRemoveHead, clipped]
  obtain ⟨removed, hremoved⟩ : ∃ removed, min count fl.size = removed := ⟨_, rfl⟩
  have bound : removed ≤ fl.size := by omega
  have fits := h.size_le
  rw [hremoved]
  by_cases none : removed = 0
  · rw [if_pos none, none]
    exact ⟨rfl, Advanced.refl h⟩
  · rw [if_neg none]
    refine ⟨rfl, ?_⟩
    obtain ⟨step1, hstep⟩ : ∃ step1, step1 =
        if fl.maxCount < fl.head + removed then fl.maxCount - fl.head else removed := ⟨_, rfl⟩
    have hstep2 : (if fl.maxCount < fl.head + removed then removed - step1 else 0) =
        removed - step1 := by
      split at hstep <;> simp_all
    rw [← hstep, hstep2]
    have ⟨slots, num⟩ := clearRange_twice h.head_lt
      (show removed ≤ fl.maxCount by omega) hstep
    have window : Circular.window fl.maxCount
        (clearRange (clearRange fl fl.head step1) 0 (removed - step1)).slots
        (Circular.slot fl.maxCount fl.head removed) (fl.size - removed) =
        fl.window.drop removed := by
      rw [JbFramelist.window, ← Circular.window_drop _ _ _ bound]
      apply Circular.window_congr
      intro offset hoffset
      rw [Circular.slot_slot, slots _ (by omega), if_neg (by omega)]
    refine ⟨⟨?_, ?_, ?_⟩, window, rfl, rfl, rfl, ?_⟩
    · exact Nat.mod_lt _ (by have := h.head_lt; omega)
    · show fl.size - removed ≤ fl.maxCount
      omega
    · apply h.outside.advance bound
      · intro offset hoffset
        rw [slots _ (by omega), if_pos hoffset]
        exact Slot.clear_vacant _
      · intro offset hlow hhigh
        rw [slots _ hhigh, if_neg (by omega)]
    · rw [num, JbFramelist.window, Circular.window_take _ _ _ bound]

/-! ## Getting the head frame -/

/-- The head slot is the first element of the queue. -/
theorem JbFramelist.window_cons (h : fl.Shape) (nonempty : fl.size ≠ 0) :
    fl.window = fl.slots fl.head :: fl.window.tail := by
  have ⟨rest, hrest⟩ := Nat.exists_eq_succ_of_ne_zero nonempty
  rw [window, hrest, Nat.succ_eq_one_add, Circular.window_add,
    Circular.window_one _ h.head_lt]
  rfl

/-- The head slot of an empty list is not marked. -/
theorem JbFramelist.Shape.head_unmarked (h : fl.Shape) (empty : fl.size = 0) :
    (fl.slots fl.head).isDiscarded = false := by
  have vacant := h.outside 0 (by omega) (by have := h.head_lt; omega)
  rw [Circular.slot_zero h.head_lt] at vacant
  exact vacant.not_discarded

/-- The number of marked frames at the front of a queue. -/
def leadingDiscarded (slots : List Slot) : Nat := slots.findIdx fun slot => !slot.isDiscarded

/-- Whether any frame is skipped is whether the front frame is marked. -/
theorem leadingDiscarded_cons (slot : Slot) (rest : List Slot) :
    leadingDiscarded (slot :: rest) =
      if slot.isDiscarded then leadingDiscarded rest + 1 else 0 := by
  unfold leadingDiscarded
  rw [findIdx_cons]
  cases slot.isDiscarded <;> rfl

theorem leadingDiscarded_le (slots : List Slot) : leadingDiscarded slots ≤ slots.length :=
  findIdx_le_length

/-- The frame after the marked ones is not marked. -/
theorem leadingDiscarded_unmarked (h : leadingDiscarded slots < slots.length) :
    (slots[leadingDiscarded slots]).isDiscarded = false := by
  unfold leadingDiscarded at h ⊢
  simpa using findIdx_getElem (w := h)

/-- The skipping loop removes exactly the marked frames at the head. -/
theorem skipDiscarded_spec {fuel : Nat} (h : fl.Shape) (enough : fl.size ≤ fuel) :
    Advanced fl (skipDiscarded fuel fl).1 (leadingDiscarded fl.window) ∧
      (skipDiscarded fuel fl).2 = decide (leadingDiscarded fl.window ≠ 0) := by
  induction fuel generalizing fl with
  | zero =>
    have empty : fl.window = [] := length_eq_zero_iff.mp (by simp; omega)
    rw [empty]
    exact ⟨Advanced.refl h, rfl⟩
  | succ fuel ih =>
    by_cases mark : (fl.slots fl.head).isDiscarded
    · have nonempty : fl.size ≠ 0 := by
        intro empty
        rw [h.head_unmarked empty] at mark
        contradiction
      have ⟨_, removed⟩ := jbFramelistRemoveHead_spec h 1
      rw [show min 1 fl.size = 1 by omega] at removed
      have tail : (jbFramelistRemoveHead fl 1).1.window = fl.window.tail := by
        rw [removed.window, drop_one]
      have leading : leadingDiscarded fl.window = 1 + leadingDiscarded fl.window.tail := by
        rw [fl.window_cons h nonempty, leadingDiscarded_cons, if_pos mark, tail_cons]
        omega
      have ⟨skipped, _⟩ := ih removed.shape (by rw [removed.size]; omega)
      rw [tail] at skipped
      simp only [skipDiscarded, mark, if_true, leading]
      exact ⟨removed.trans skipped, by simp⟩
    · have none : leadingDiscarded fl.window = 0 := by
        by_cases empty : fl.size = 0
        · have nil : fl.window = [] := length_eq_zero_iff.mp (by simp [empty])
          rw [nil]
          rfl
        · rw [fl.window_cons h empty, leadingDiscarded_cons, if_neg mark]
      simp only [skipDiscarded, mark, none, Bool.false_eq_true, if_false]
      exact ⟨Advanced.refl h, rfl⟩

/-- Popping an unmarked head is leaving the head once. -/
theorem popHead_spec (h : fl.Shape) (nonempty : fl.size ≠ 0)
    (unmarked : (fl.slots fl.head).isDiscarded = false) : Advanced fl (popHead fl) 1 := by
  have fits := h.size_le
  have single : Circular.window fl.maxCount fl.slots fl.head 1 = [fl.slots fl.head] :=
    Circular.window_one _ h.head_lt
  have other : ∀ offset, 0 < offset → offset < fl.maxCount →
      (popHead fl).slots (Circular.slot fl.maxCount fl.head offset) =
        fl.slots (Circular.slot fl.maxCount fl.head offset) := by
    intro offset hlow hhigh
    apply Function.update_of_ne
    intro e
    have := Circular.slot_inj (e.trans (Circular.slot_zero h.head_lt).symm) hhigh (by omega)
    omega
  have cleared : ((popHead fl).slots fl.head).Vacant := by
    simp only [popHead, Function.update_self]
    exact ⟨rfl, rfl⟩
  refine ⟨⟨?_, ?_, ?_⟩, ?_, rfl, rfl, rfl, ?_⟩
  · exact Nat.mod_lt _ (by have := h.head_lt; omega)
  · show fl.size - 1 ≤ fl.maxCount
    omega
  · apply h.outside.advance (by omega)
    · intro offset hoffset
      rw [show offset = 0 by omega, Circular.slot_zero h.head_lt]
      exact cleared
    · exact fun offset hlow hhigh => other offset (by omega) hhigh
  · rw [JbFramelist.window, JbFramelist.window, ← Circular.window_drop _ _ _ (by omega)]
    apply Circular.window_congr
    intro offset hoffset
    have inside : offset < fl.size - 1 := hoffset
    show (popHead fl).slots
        (Circular.slot fl.maxCount (Circular.slot fl.maxCount fl.head 1) offset) =
      fl.slots (Circular.slot fl.maxCount (Circular.slot fl.maxCount fl.head 1) offset)
    rw [Circular.slot_slot]
    exact other (1 + offset) (by omega) (by omega)
  · have front : fl.window.take 1 = [fl.slots fl.head] := by
      rw [JbFramelist.window, Circular.window_take _ _ _ (by omega), single]
    rw [front, dropDiscarded_unmarked (by simpa using unmarked)]
    rfl

/-- The frame reported for a slot of the queue with sequence number `seq`. -/
def slotFrame (slot : Slot) (seq : Int) (size : Option Nat) (prevDiscarded : Bool) : JbFrame :=
  if prevDiscarded then
    { frame := [], size := 0, frameType := .missing, bitInfo := 0, ts := slot.ts, seq := seq }
  else
    let copySize := min (size.getD slot.contentLen) slot.contentLen
    { frame := slot.content.take copySize, size := copySize, frameType := slot.frameType
      bitInfo := slot.bitInfo, ts := slot.ts, seq := seq }

/-- `jb_framelist_get` skips the marked frames at the head and takes the next one, if
there is one. -/
theorem jbFramelistGet_spec (h : fl.Shape) (size : Option Nat) :
    match fl.window[leadingDiscarded fl.window]? with
    | none =>
      (jbFramelistGet fl size).2 = none ∧ Advanced fl (jbFramelistGet fl size).1 fl.size
    | some slot =>
      (jbFramelistGet fl size).2 =
          some (slotFrame slot (fl.origin + leadingDiscarded fl.window) size
            (decide (leadingDiscarded fl.window ≠ 0))) ∧
        Advanced fl (jbFramelistGet fl size).1 (leadingDiscarded fl.window + 1) := by
  have covered := leadingDiscarded_le fl.window
  rw [fl.length_window] at covered
  by_cases empty : fl.size = 0
  · have nil : fl.window = [] := length_eq_zero_iff.mp (by simp [empty])
    rw [nil]
    simp only [jbFramelistGet, empty, if_true, getElem?_nil]
    exact ⟨trivial, Advanced.refl h⟩
  · have ⟨skipped, flag⟩ := skipDiscarded_spec h (Nat.le_refl fl.size)
    simp only [jbFramelistGet, empty, if_false]
    by_cases none : (skipDiscarded fl.size fl).1.size = 0
    · have all : leadingDiscarded fl.window = fl.size := by
        have := skipped.size
        omega
      rw [all, getElem?_eq_none (by simp)]
      rw [all] at skipped
      simp only [none, if_true]
      exact ⟨trivial, skipped⟩
    · have within : leadingDiscarded fl.window < fl.window.length := by
        have := skipped.size
        rw [fl.length_window]
        omega
      have front := (skipDiscarded fl.size fl).1.window_cons skipped.shape none
      rw [skipped.window, drop_eq_getElem_cons within] at front
      have slot := (List.cons.inj front).1
      have unmarked := leadingDiscarded_unmarked within
      rw [getElem?_eq_getElem within]
      simp only [none, if_false]
      constructor
      · simp only [headFrame, slotFrame, flag, ← slot, skipped.origin]
      · exact skipped.trans (popHead_spec skipped.shape none (by rw [← slot]; exact unmarked))

/-! ## Putting and discarding -/

/-- The slot `jb_framelist_put_at` writes for a normal frame, over what the slot held. -/
def putSlot (old : Slot) (frame : List UInt8) (frameSize : Nat) (bitInfo ts : UInt32) : Slot :=
  { content := frame.take frameSize ++ old.content.drop frameSize
    frameType := .normal, contentLen := frameSize, bitInfo := bitInfo, ts := ts }

/-- A list with nothing but vacant slots from the given head on is a proper empty list. -/
theorem jbFramelistReset_shape (positive : 0 < fl.maxCount) :
    (jbFramelistReset fl).Shape := by
  refine ⟨positive, Nat.zero_le _, ?_⟩
  intro offset _ hhigh
  have inside : Circular.slot fl.maxCount 0 offset < fl.maxCount := Circular.slot_lt positive
  simp only [jbFramelistReset, inside, if_true]
  exact Slot.clear_vacant _

/-- Another origin changes nothing about the shape. -/
theorem JbFramelist.Shape.renumber (h : fl.Shape) (origin : Int) :
    ({ fl with origin := origin } : JbFramelist).Shape :=
  ⟨h.head_lt, h.size_le, h.outside⟩

theorem resetAt_shape (positive : 0 < fl.maxCount) (index : Int) :
    (resetAt fl index).Shape :=
  (jbFramelistReset_shape positive).renumber index

/-- How a stored frame changes the queue: it replaces a missing frame, or it is appended
after the vacant slots up to its distance. -/
inductive Stored (window : List Slot) (distance : Nat) (slot : Slot) : List Slot → Prop
  | filled (free : ∃ old, window[distance]? = some old ∧ old.frameType = .missing) :
    Stored window distance slot (window.set distance slot)
  | appended (gap : List Slot) (vacant : ∀ other ∈ gap, other.Vacant)
      (reach : window.length + gap.length = distance) :
    Stored window distance slot (window ++ gap ++ [slot])

/-- The second list is the first one after `slot` was stored at `distance`. -/
structure Put (fl fl' : JbFramelist) (distance : Nat) (slot : Slot) : Prop where
  shape : fl'.Shape
  origin : fl'.origin = fl.origin
  frameSize : fl'.frameSize = fl.frameSize
  maxCount : fl'.maxCount = fl.maxCount
  discardedNum : fl'.discardedNum = fl.discardedNum
  stored : Stored fl.window distance slot fl'.window

section
variable {distance : Nat} (h : fl.Shape)
include h

/-- Writing a slot inside the window. -/
theorem put_inside (within : distance < fl.size) (slot : Slot)
    (free : (fl.slots (Circular.slot fl.maxCount fl.head distance)).frameType = .missing) :
    Put fl
      { fl with
        slots := Function.update fl.slots (Circular.slot fl.maxCount fl.head distance) slot }
      distance slot where
  shape := ⟨h.head_lt, h.size_le, h.outside.update within h.size_le⟩
  origin := rfl
  frameSize := rfl
  maxCount := rfl
  discardedNum := rfl
  stored := by
    simp only [JbFramelist.window]
    rw [Circular.window_update_inside _ _ within h.size_le]
    exact .filled ⟨_, Circular.getElem?_window _ _ within, free⟩

/-- Writing a slot behind the window, which then ends with it. -/
theorem put_behind (behind : fl.size ≤ distance) (inside : distance < fl.maxCount) (slot : Slot) :
    Put fl
      { fl with
        slots := Function.update fl.slots (Circular.slot fl.maxCount fl.head distance) slot
        size := distance + 1 }
      distance slot where
  shape := ⟨h.head_lt, inside,
    (h.outside.grow (Nat.le_succ_of_le behind)).update (Nat.lt_succ_self distance) inside⟩
  origin := rfl
  frameSize := rfl
  maxCount := rfl
  discardedNum := rfl
  stored := by
    obtain ⟨gap, rfl⟩ := Nat.exists_eq_add_of_le behind
    simp only [JbFramelist.window]
    rw [Circular.window_add _ _ _ (fl.size + gap),
      Circular.window_update_outside _ _ le_rfl inside,
      Circular.window_one _ (Circular.slot_lt (by omega)), Function.update_self,
      Circular.window_add]
    refine .appended _ ?_ (by simp)
    intro other member
    obtain ⟨offset, hoffset, rfl⟩ := mem_map.mp member
    have := mem_range.mp hoffset
    rw [Circular.slot_slot]
    exact h.outside _ (by omega) (by omega)

/-- The end of a put at a distance inside the arrays: the slot is taken, or the normal
frame is stored. -/
theorem storeAt_spec {index : Int} (hindex : index = fl.origin + distance)
    (inside : distance < fl.maxCount) (frame : List UInt8) (frameSize : Nat) (bitInfo ts : UInt32) :
    (storeAt fl index distance frame frameSize bitInfo ts .normal = (fl, .eexists) ∧
      ∃ old, fl.window[distance]? = some old ∧ old.frameType ≠ .missing) ∨
    ∃ fl' old, storeAt fl index distance frame frameSize bitInfo ts .normal = (fl', .success) ∧
      Put fl fl' distance (putSlot old frame frameSize bitInfo ts) := by
  obtain ⟨pos, hpos⟩ : ∃ pos, Circular.slot fl.maxCount fl.head distance = pos := ⟨_, rfl⟩
  have grows : fl.origin + fl.size ≤ index ↔ fl.size ≤ distance := by omega
  have hmod : (fl.head + distance) % fl.maxCount = pos := hpos
  simp only [storeAt, hmod, grows]
  by_cases taken : (fl.slots pos).frameType ≠ .missing
  · rw [if_pos taken]
    refine .inl ⟨rfl, fl.slots pos, ?_, taken⟩
    by_cases within : distance < fl.size
    · rw [JbFramelist.window, Circular.getElem?_window _ _ within, hpos]
    · have vacant := h.outside distance (by omega) inside
      rw [hpos] at vacant
      exact absurd vacant.1 taken
  · rw [if_neg taken]
    rw [not_not] at taken
    refine .inr ⟨_, fl.slots pos, rfl, ?_⟩
    rw [← hpos] at taken ⊢
    by_cases within : distance < fl.size
    · rw [if_neg (show ¬fl.size ≤ distance by omega)]
      exact put_inside h within _ taken
    · rw [if_pos (show fl.size ≤ distance by omega)]
      exact put_behind h (by omega) inside _

end

/-- The ways `jb_framelist_put_at` sees its frame list before it looks at the capacity: as
it is, with another numbering, or emptied. -/
inductive Rebased (fl : JbFramelist) (index : Int) : JbFramelist × Int → Prop
  | same (h : fl.size ≠ 0) (ahead : fl.origin ≤ index) :
    Rebased fl index (fl, index - fl.origin)
  | restarted (h : fl.size ≠ 0) (late : lateness fl index = .sequenceRestart) :
    Rebased fl index ({ fl with origin := index - fl.size }, fl.size)
  | empty (h : fl.size = 0) (ahead : fl.origin ≤ index ∨ lateness fl index = .sequenceRestart) :
    Rebased fl index ({ fl with origin := index }, 0)
  | emptied (late : lateness fl index = .farJump) :
    Rebased fl index (resetAt fl index, 0)

/-- `rebase` does one of these, or refuses a frame that is less than `MAX_MISORDER` behind. -/
theorem rebase_spec (fl : JbFramelist) (index : Int) :
    match rebase fl index with
    | none => index < fl.origin ∧ fl.origin - index < maxMisorder
    | some rebased => Rebased fl index rebased := by
  by_cases ahead : 0 ≤ index - fl.origin
  · by_cases empty : fl.size = 0
    · simp only [rebase, if_pos ahead, map_some, if_pos empty]
      exact .empty empty (.inl (by omega))
    · simp only [rebase, if_pos ahead, map_some, if_neg empty]
      exact .same empty (by omega)
  · cases late : lateness fl index with
    | tooLate =>
      simp only [rebase, if_neg ahead, late, map_none]
      refine ⟨by omega, ?_⟩
      by_contra far
      simp only [lateness, if_neg far] at late
      split at late <;> contradiction
    | sequenceRestart =>
      by_cases empty : fl.size = 0
      · simp only [rebase, if_neg ahead, late, map_some, if_pos empty]
        exact .empty empty (.inr late)
      · simp only [rebase, if_neg ahead, late, map_some, if_neg empty]
        exact .restarted empty late
    | farJump =>
      simp only [rebase, if_neg ahead, late, map_some]
      exact .emptied late

/-- What the rest of a put relies on: the rebased list is a proper one, the distance is the
one of its numbering, and the queue is the old one or empty. -/
theorem Rebased.proper {index distance : Int} (h : fl.Shape)
    (rebased : Rebased fl index (fl', distance)) :
    fl'.Shape ∧ 0 ≤ distance ∧ index = fl'.origin + distance ∧ fl'.maxCount = fl.maxCount ∧
      fl'.frameSize = fl.frameSize ∧
      ((fl'.window = fl.window ∧ fl'.discardedNum = fl.discardedNum) ∨
        (fl'.window = [] ∧ fl'.discardedNum = 0)) := by
  have positive : 0 < fl.maxCount := by
    have := h.head_lt
    omega
  cases rebased with
  | same _ ahead => exact ⟨h, by omega, by omega, rfl, rfl, .inl ⟨rfl, rfl⟩⟩
  | restarted => exact ⟨h.renumber _, by omega, by simp, rfl, rfl, .inl ⟨rfl, rfl⟩⟩
  | empty => exact ⟨h.renumber _, by omega, by simp, rfl, rfl, .inl ⟨rfl, rfl⟩⟩
  | emptied =>
    exact ⟨resetAt_shape positive _, by omega, by simp [resetAt], rfl, rfl, .inr ⟨rfl, rfl⟩⟩

/-- What `jb_framelist_put_at` does with a normal frame: it refuses the frame and keeps the
list (up to a rebasing that a full list gets), or stores it in the rebased list or, after
a jump past `MAX_DROPOUT`, in the emptied one. -/
inductive PutOutcome (fl : JbFramelist) (index : Int) (frame : List UInt8) (frameSize : Nat)
    (bitInfo ts : UInt32) : JbFramelist × Status → Prop
  | tooLong (h : fl.frameSize < frameSize) : PutOutcome fl index frame frameSize bitInfo ts (fl, .einval)
  | tooLate (h : index < fl.origin ∧ fl.origin - index < maxMisorder) :
    PutOutcome fl index frame frameSize bitInfo ts (fl, .etoosmall)
  | full {fl' : JbFramelist} {distance : Int} (rebased : Rebased fl index (fl', distance))
    (reach : i32 fl.maxCount ≤ distance) (near : distance ≤ maxDropout) :
    PutOutcome fl index frame frameSize bitInfo ts (fl', .etoomany)
  | taken {fl' : JbFramelist} {distance : Nat} (rebased : Rebased fl index (fl', distance))
    (reach : distance < fl.maxCount)
    (occupied : ∃ old, fl'.window[distance]? = some old ∧ old.frameType ≠ .missing) :
    PutOutcome fl index frame frameSize bitInfo ts (fl', .eexists)
  | stored {fl' fl'' : JbFramelist} {distance : Nat} {old : Slot}
    (rebased : Rebased fl index (fl', distance)) (reach : distance < fl.maxCount)
    (put : Put fl' fl'' distance (putSlot old frame frameSize bitInfo ts)) :
    PutOutcome fl index frame frameSize bitInfo ts (fl'', .success)
  | storedFar {fl' fl'' : JbFramelist} {distance : Int} {old : Slot}
    (rebased : Rebased fl index (fl', distance))
    (reach : i32 fl.maxCount ≤ distance) (far : maxDropout < distance)
    (put : Put (resetAt fl' index) fl'' 0 (putSlot old frame frameSize bitInfo ts)) :
    PutOutcome fl index frame frameSize bitInfo ts (fl'', .success)

/-- `jb_framelist_put_at` on a normal frame does one of these. -/
theorem jbFramelistPutAt_spec (h : fl.Shape) (index : Int) (frame : List UInt8) (frameSize : Nat)
    (bitInfo ts : UInt32) :
    PutOutcome fl index frame frameSize bitInfo ts
      (jbFramelistPutAt fl index frame frameSize bitInfo ts .normal) := by
  by_cases long : fl.frameSize < frameSize
  · rw [jbFramelistPutAt, if_pos long]
    exact .tooLong long
  · rw [jbFramelistPutAt, if_neg long]
    have spec := rebase_spec fl index
    cases hrebase : rebase fl index with
    | none =>
      rw [hrebase] at spec
      exact .tooLate spec
    | some rebased =>
      rw [hrebase] at spec
      have ⟨fl', distance⟩ := rebased
      have ⟨shape, nonnegative, hindex, maxCount, frameSize', _⟩ := spec.proper h
      simp only
      by_cases reach : i32 fl'.maxCount ≤ distance
      · rw [if_pos reach]
        rw [maxCount] at reach
        by_cases far : maxDropout < distance
        · rw [if_pos far]
          have positive : 0 < fl'.maxCount := by
            have := shape.head_lt
            omega
          have cleared := resetAt_shape positive index
          have first : index = (resetAt fl' index).origin + (0 : Nat) := by simp [resetAt]
          rcases storeAt_spec cleared first positive frame frameSize bitInfo ts with
            ⟨_, old, hold, _⟩ | ⟨fl'', old, store, put⟩
          · contradiction
          · rw [store]
            exact .storedFar spec reach far put
        · rw [if_neg far]
          exact .full spec reach (by omega)
      · rw [if_neg reach]
        obtain ⟨natural, rfl⟩ := Int.eq_ofNat_of_zero_le nonnegative
        have inside : natural < fl'.maxCount := by
          have := i32_natCast_le fl'.maxCount
          omega
        rw [Int.toNat_natCast]
        rcases storeAt_spec shape hindex inside frame frameSize bitInfo ts with
          ⟨same, occupied⟩ | ⟨fl'', old, store, put⟩
        · rw [same]
          exact .taken spec (by omega) occupied
        · rw [store]
          exact .stored spec (by omega) put

/-- A full list is one that the frame does not reach, by less than `MAX_DROPOUT`. -/
theorem PutOutcome.full_iff {index : Int} {frame : List UInt8} {frameSize : Nat}
    {bitInfo ts : UInt32} (h : fl.Shape)
    (outcome : PutOutcome fl index frame frameSize bitInfo ts (fl', .etoomany)) :
    fl'.Shape ∧ fl'.maxCount = fl.maxCount ∧ i32 fl.maxCount ≤ index - fl'.origin ∧
      index - fl'.origin ≤ maxDropout := by
  cases outcome with
  | full rebased reach near =>
    have ⟨shape, _, hindex, maxCount, _⟩ := rebased.proper h
    exact ⟨shape, maxCount, by omega, by omega⟩

/-- A frame within reach of the origin, or any frame for an empty list, does not find the
list full. -/
theorem PutOutcome.not_full {index : Int} {frame : List UInt8} {frameSize : Nat}
    {bitInfo ts : UInt32} {result : JbFramelist × Status} (positive : 0 < i32 fl.maxCount)
    (ahead : fl.origin ≤ index) (near : index - fl.origin < i32 fl.maxCount ∨ fl.size = 0)
    (outcome : PutOutcome fl index frame frameSize bitInfo ts result) :
    result.2 ≠ .etoomany := by
  have late : lateness fl index = .tooLate := by
    rw [lateness, if_pos (by unfold maxMisorder; omega)]
  cases outcome with
  | full rebased reach _ =>
    cases rebased with
    | same nonempty =>
      rcases near with near | empty
      · omega
      · exact absurd empty nonempty
    | restarted _ restart =>
      rw [late] at restart
      contradiction
    | empty => omega
    | emptied jump =>
      rw [late] at jump
      contradiction
  | _ => simp

/-- `jb_framelist_discard` marks a frame of the queue, or refuses an index outside it. -/
theorem jbFramelistDiscard_spec (h : fl.Shape) (index : Int) :
    (jbFramelistDiscard fl index = (fl, .einval) ∧
      ¬(fl.origin ≤ index ∧ index < fl.origin + fl.size)) ∨
    ∃ (distance : Nat) (old : Slot), index = fl.origin + distance ∧
      fl.window[distance]? = some old ∧
      (jbFramelistDiscard fl index).2 = .success ∧
      (jbFramelistDiscard fl index).1.Shape ∧
      (jbFramelistDiscard fl index).1.origin = fl.origin ∧
      (jbFramelistDiscard fl index).1.frameSize = fl.frameSize ∧
      (jbFramelistDiscard fl index).1.maxCount = fl.maxCount ∧
      (jbFramelistDiscard fl index).1.discardedNum = u32 (fl.discardedNum + 1) ∧
      (jbFramelistDiscard fl index).1.window =
        fl.window.set distance { old with frameType := .discarded } := by
  by_cases inside : fl.origin ≤ index ∧ index < fl.origin + fl.size
  · have ⟨distance, hdistance⟩ := Int.eq_ofNat_of_zero_le (show 0 ≤ index - fl.origin by omega)
    have within : distance < fl.size := by omega
    refine .inr ⟨distance, fl.slots (Circular.slot fl.maxCount fl.head distance), by omega,
      Circular.getElem?_window _ _ within, ?_⟩
    simp only [jbFramelistDiscard, if_pos inside, hdistance, Int.toNat_natCast]
    refine ⟨trivial, ⟨h.head_lt, h.size_le, h.outside.update within h.size_le⟩, trivial, trivial,
      trivial, trivial, ?_⟩
    exact Circular.window_update_inside _ _ within h.size_le
  · exact .inl ⟨by rw [jbFramelistDiscard, if_neg inside], inside⟩

end Pjmedia.JitterBuffer
