import Pjproject.Jbuf.Peek

/-!
# Removing frames

`pjmedia_jbuf_remove_frame` removes a number of frames that are not marked for discarding. It
works in rounds: each one removes as many frames as the round before met marks, until a round meets
none. The prefix it removes is the shortest one with that many unmarked frames.
-/

namespace Pjmedia.JitterBuffer
open Pj

/-- The number of marked frames among the first `count` of a queue. -/
def marked (slots : List Slot) (count : Nat) : Nat := (slots.take count).countP Slot.isDiscarded

/-- The number of frames among the first `count` of a queue that are not marked. -/
def unmarked (slots : List Slot) (count : Nat) : Nat :=
  (slots.take count).countP fun slot => !slot.isDiscarded

variable {count : Nat}

/-- A frame is marked or not. -/
theorem marked_add_unmarked {slots : List Slot} (within : count ≤ slots.length) :
    marked slots count + unmarked slots count = count := by
  have parts := List.length_eq_countP_add_countP Slot.isDiscarded (l := slots.take count)
  rw [List.length_take, Nat.min_eq_left within] at parts
  have other : (slots.take count).countP (fun slot => !slot.isDiscarded) =
      (slots.take count).countP fun slot => decide ¬slot.isDiscarded = true := by
    apply List.countP_congr
    intro slot _
    cases slot.isDiscarded <;> decide
  rw [marked, unmarked, other]
  exact parts.symm

section
variable {slots : List Slot} {fewer : Nat} (h : fewer ≤ count)
include h

/-- More frames hold at least as many marks. -/
theorem marked_mono : marked slots fewer ≤ marked slots count :=
  (List.take_sublist_take_left h).countP_le

/-- More frames hold at least as many unmarked ones. -/
theorem unmarked_mono : unmarked slots fewer ≤ unmarked slots count :=
  (List.take_sublist_take_left h).countP_le

end

variable {fl : JbFramelist}

/-- All frames of a queue. -/
theorem RingInvariant.marked_size (h : RingInvariant fl) :
    marked fl.window fl.size = fl.discardedNum := by
  rw [marked, ← fl.length_window, List.take_length]
  exact h.discarded.symm

/-- The effective size is the number of unmarked frames. -/
theorem BoundedRing.effSize_unmarked (h : BoundedRing fl) :
    jbFramelistEffSize fl = unmarked fl.window fl.size := by
  have parts := marked_add_unmarked (Nat.le_of_eq fl.length_window.symm)
  rw [h.marked_size] at parts
  rw [h.effSize_eq]
  omega

/-- Of a ring `stop` frames are removed; the last round removed those from `start` on, and started
with `last` marked frames in the ring. -/
structure RemoveRound (fl fl' : JbFramelist) (frameCnt start stop last count : Nat) : Prop where
  moved : Advanced fl fl' stop
  order : start ≤ stop
  bound : stop ≤ fl.size
  last : last + marked fl.window start = fl.discardedNum
  /-- The marks of the last round count as removed frames as yet. -/
  counted : count + marked fl.window start = stop
  enough : count = frameCnt ∨ stop = fl.size ∧ count < frameCnt
  nonempty : frameCnt ≤ jbFramelistEffSize fl → start < stop ∨ stop = 0

variable {fl' : JbFramelist} {frameCnt : Nat}

/-- The marks left. -/
theorem RemoveRound.num {start stop last : Nat} (ring : BoundedRing fl)
    (h : RemoveRound fl fl' frameCnt start stop last count) :
    fl'.discardedNum + marked fl.window stop = fl.discardedNum := by
  have covered : marked fl.window stop ≤ fl.discardedNum := by
    rw [← ring.marked_size]
    exact marked_mono h.bound
  have small : fl.discardedNum < 2 ^ 32 := by
    have fits := ring.discardedNum_le
    have room := ring.size_le
    have bound := ring.bound
    omega
  rw [h.moved.discardedNum, dropDiscarded_eq covered small]
  exact Nat.sub_add_cancel covered

/-- The first round. -/
theorem RemoveRound.first (ring : BoundedRing fl) (frameCnt : Nat) :
    RemoveRound fl (jbFramelistRemoveHead fl frameCnt).1 frameCnt 0 (min frameCnt fl.size)
      fl.discardedNum (jbFramelistRemoveHead fl frameCnt).2 := by
  have ⟨removed, moved⟩ := jbFramelistRemoveHead_spec ring.toShape frameCnt
  have size := ring.effSize_eq
  rw [removed]
  refine ⟨moved, Nat.zero_le _, Nat.min_le_right _ _, rfl, rfl, ?_, ?_⟩
  · omega
  · intro covered
    omega

section
variable {start stop last : Nat} (ring : BoundedRing fl)
  (h : RemoveRound fl fl' frameCnt start stop last count)
include ring h

/-- Another round, which removes as many frames as the last one met marks. -/
theorem RemoveRound.next (more : fl'.discardedNum < last) :
    let removed := jbFramelistRemoveHead fl' (last - fl'.discardedNum)
    RemoveRound fl removed.1 frameCnt stop (stop + removed.2) fl'.discardedNum
      (u32 ((count : Int) - (last - fl'.discardedNum : Nat)) + removed.2) := by
  intro removed
  have ⟨number, moved⟩ := jbFramelistRemoveHead_spec h.moved.shape (last - fl'.discardedNum)
  have num := h.num ring
  have initial := h.last
  have counted := h.counted
  have bound := h.bound
  have parts := marked_add_unmarked (fl.length_window.symm ▸ bound)
  have whole := marked_add_unmarked (Nat.le_of_eq fl.length_window.symm)
  have total := ring.marked_size
  have effective := ring.effSize_eq
  have fits := ring.size_le
  have limit := ring.bound
  have left := h.moved.size
  have small : u32 ((count : Int) - (last - fl'.discardedNum : Nat)) =
      count - (last - fl'.discardedNum) := u32_sub (by omega) (by omega)
  change removed.2 = _ at number
  rw [left] at number
  have moved' : Advanced fl removed.1 (stop + removed.2) := by
    rw [number, ← left]
    exact h.moved.trans moved
  refine ⟨moved', Nat.le_add_right _ _, by omega, num, by omega, ?_, ?_⟩
  · have enough := h.enough
    omega
  · intro covered
    have enough := h.enough
    omega

/-- Rounds go on until one meets no mark. -/
theorem RemoveRound.more {fuel : Nat} (enough : last < fuel) :
    let removed := removeMore fuel fl' last count
    ∃ start stop : Nat,
      RemoveRound fl removed.1 frameCnt start stop removed.1.discardedNum removed.2 := by
  induction fuel generalizing fl' start stop last count with
  | zero => exact absurd enough (Nat.not_lt_zero _)
  | succ fuel ih =>
    simp only [removeMore]
    split
    · next marks => exact ih (h.next ring marks) (by omega)
    · next none =>
      have num := h.num ring
      have initial := h.last
      have mono : marked fl.window start ≤ marked fl.window stop := marked_mono h.order
      have same : fl'.discardedNum = last := by omega
      exact ⟨start, stop, same ▸ h⟩

end

/-- The number of rounds is no bound. -/
theorem removeMore_enough {fuel fuel' : Nat} {last : Nat} (enough : last < fuel)
    (enough' : last < fuel') :
    removeMore fuel fl last count = removeMore fuel' fl last count := by
  induction fuel generalizing fuel' fl last count with
  | zero => exact absurd enough (Nat.not_lt_zero _)
  | succ fuel ih =>
    cases fuel' with
    | zero => exact absurd enough' (Nat.not_lt_zero _)
    | succ fuel' =>
      simp only [removeMore]
      split
      · exact ih (by omega) (by omega)
      · rfl

/-- After a round without marks, the frames removed are the ones wanted. -/
theorem RemoveRound.done {start stop : Nat} (ring : BoundedRing fl)
    (h : RemoveRound fl fl' frameCnt start stop fl'.discardedNum count) :
    let wanted := min frameCnt (jbFramelistEffSize fl)
    count = wanted ∧ unmarked fl.window stop = wanted ∧
      if jbFramelistEffSize fl < frameCnt then stop = fl.size
      else ∀ fewer < stop, unmarked fl.window fewer < wanted := by
  intro wanted
  have num := h.num ring
  have initial := h.last
  have counted := h.counted
  have enough := h.enough
  have bound := h.bound
  have parts := marked_add_unmarked (fl.length_window.symm ▸ bound)
  have returned : count = unmarked fl.window stop := by omega
  have all : unmarked fl.window stop ≤ jbFramelistEffSize fl := by
    rw [ring.effSize_unmarked]
    exact unmarked_mono bound
  have fromAll : stop = fl.size → unmarked fl.window stop = jbFramelistEffSize fl := by
    rintro rfl
    exact ring.effSize_unmarked.symm
  have result : count = wanted := by omega
  refine ⟨result, returned ▸ result, ?_⟩
  split
  · omega
  · next covered =>
    intro fewer less
    -- The last round removed a frame, and no mark, so without its last frame one is missing.
    have order := h.nonempty (Nat.le_of_not_lt covered)
    have before : marked fl.window (stop - 1) + unmarked fl.window (stop - 1) = stop - 1 :=
      marked_add_unmarked (by rw [fl.length_window]; omega)
    have low : marked fl.window start ≤ marked fl.window (stop - 1) := marked_mono (by omega)
    have high : marked fl.window (stop - 1) ≤ marked fl.window stop := marked_mono (by omega)
    have fewest : unmarked fl.window fewer ≤ unmarked fl.window (stop - 1) :=
      unmarked_mono (by omega)
    omega

/-- `pjmedia_jbuf_remove_frame` removes the shortest prefix of the frames that holds as many
unmarked ones as it is asked for, the whole buffer where there are fewer, and returns their
number. -/
theorem jbufRemoveFrame_shortest {jb : Jbuf} (ring : BoundedRing jb.jbFramelist) (frameCnt : Nat) :
    let fl := jb.jbFramelist
    let wanted := min frameCnt (jbFramelistEffSize fl)
    let removed := jbufRemoveFrame jb frameCnt
    let first := jbFramelistRemoveHead fl frameCnt
    (∀ rounds, fl.discardedNum < rounds →
      removeMore rounds first.1 fl.discardedNum first.2 = (removed.1.jbFramelist, removed.2)) ∧
    ∃ count ≤ fl.size,
      removed.2 = wanted ∧
      removed.1.jbFramelist.window = fl.window.drop count ∧
      removed.1.jbFramelist.origin = fl.origin + count ∧
      unmarked fl.window count = wanted ∧
      if jbFramelistEffSize fl < frameCnt then count = fl.size
      else ∀ fewer < count, unmarked fl.window fewer < wanted := by
  intro fl wanted removed first
  have rounds : ∀ rounds, fl.discardedNum < rounds →
      removeMore rounds first.1 fl.discardedNum first.2 = (removed.1.jbFramelist, removed.2) :=
    fun _ enough => removeMore_enough enough (Nat.lt_succ_self _)
  have ⟨start, stop, last⟩ := (RemoveRound.first ring frameCnt).more ring (Nat.lt_succ_self _)
  have ⟨returned, number, shortest⟩ := last.done ring
  exact ⟨rounds, stop, last.bound, returned, last.moved.window, last.moved.origin, number, shortest⟩

/-- Two frames removed from a buffer whose first frame is marked. -/
theorem jbufRemoveFrame_shortest_fifth :
    ∃ count : Nat, (jbufRemoveFrame discardedFifth 2).2 = 2 ∧
      (jbufRemoveFrame discardedFifth 2).1.jbFramelist.window =
        discardedFifth.jbFramelist.window.drop count ∧
      unmarked discardedFifth.jbFramelist.window count = 2 := by
  have once : Run.Meets call MarksOnce (jbufCreate (fun _ => ⟨[], .missing, 0, 0, 0⟩) 1 1000 10)
      discardedFifthCalls := by decide +kernel
  have along := Run.always (fun (jb : Jbuf) _ (ring : BoundedRing jb.jbFramelist) once =>
    ring.call once) (jbufCreate_ring _ 1 1000 (by decide) (by decide)) once
  have covered : 2 ≤ jbFramelistEffSize discardedFifth.jbFramelist := by decide +kernel
  have ⟨_, count, _, returned, window, _, number, _⟩ :=
    @jbufRemoveFrame_shortest discardedFifth along.last 2
  rw [Nat.min_eq_left covered] at returned number
  exact ⟨count, returned, window, number⟩

end Pjmedia.JitterBuffer
