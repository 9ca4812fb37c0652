import Pjproject.Jbuf.Invariant

/-!
# Peeking and getting

A peek at offset `k` and the get after `k` gets both look at the `k`-th slot of the queue that
is not marked for discarding. They differ where the slot in front of it is marked: the get
reports a missing frame there, to trigger concealment, the peek the frame itself.
-/

namespace Pjmedia.JitterBuffer
open Option List Pj

/-- The index of the `k`-th slot of a queue that is not marked. -/
def unmarkedAt : Nat → List Slot → Option Nat
  | _, [] => none
  | k, slot :: rest =>
    if slot.isDiscarded then (unmarkedAt k rest).map (· + 1)
    else match k with
      | 0 => some 0
      | k + 1 => (unmarkedAt k rest).map (· + 1)

/-- The slot in front of an index is marked. -/
def followsDiscarded (slots : List Slot) (index : Nat) : Bool :=
  decide (index ≠ 0) && (slots[index - 1]?).any Slot.isDiscarded

variable {slots : List Slot}

variable {k : Nat}

/-- A queue with more unmarked slots than `k` has a `k`-th one. -/
theorem unmarkedAt_exists (h : k < slots.countP fun slot => !slot.isDiscarded) :
    ∃ index, unmarkedAt k slots = some index := by
  induction slots generalizing k with
  | nil => simp at h
  | cons slot rest ih =>
    by_cases mark : slot.isDiscarded
    · have ⟨index, hindex⟩ := ih (k := k) (by simpa [mark] using h)
      exact ⟨index + 1, by simp [unmarkedAt, mark, hindex]⟩
    · cases k with
      | zero => exact ⟨0, by simp [unmarkedAt, mark]⟩
      | succ k =>
        have ⟨index, hindex⟩ := ih (k := k) (by simpa [mark] using h)
        exact ⟨index + 1, by simp [unmarkedAt, mark, hindex]⟩

/-- The slot at the index is there, and as many slots in front of it are unmarked as asked
for. -/
theorem unmarkedAt_spec {index : Nat} (h : unmarkedAt k slots = some index) :
    (∃ slot, slots[index]? = some slot ∧ slot.isDiscarded = false) ∧
      index = k + (slots.take index).countP Slot.isDiscarded := by
  induction slots generalizing k index with
  | nil => contradiction
  | cons slot rest ih =>
    by_cases mark : slot.isDiscarded
    · simp only [unmarkedAt, mark, if_true, map_eq_some_iff] at h
      obtain ⟨later, hlater, rfl⟩ := h
      have ⟨found, count⟩ := ih hlater
      refine ⟨by simpa using found, ?_⟩
      rw [take_succ_cons, countP_cons]
      simp only [mark, if_true]
      omega
    · rw [Bool.not_eq_true] at mark
      cases k with
      | zero =>
        simp only [unmarkedAt, mark, Bool.false_eq_true, if_false, Option.some.injEq] at h
        subst h
        exact ⟨⟨slot, rfl, mark⟩, rfl⟩
      | succ k =>
        simp only [unmarkedAt, mark, Bool.false_eq_true, if_false, map_eq_some_iff] at h
        obtain ⟨later, hlater, rfl⟩ := h
        have ⟨found, count⟩ := ih hlater
        refine ⟨by simpa using found, ?_⟩
        rw [take_succ_cons, countP_cons]
        simp only [mark, Bool.false_eq_true, if_false]
        omega

/-- The first unmarked slot comes after the marked ones at the front. -/
theorem unmarkedAt_zero {index : Nat} (h : unmarkedAt 0 slots = some index) :
    index = leadingDiscarded slots := by
  induction slots generalizing index with
  | nil => contradiction
  | cons slot rest ih =>
    rw [leadingDiscarded_cons]
    by_cases mark : slot.isDiscarded
    · simp only [unmarkedAt, mark, if_true, map_eq_some_iff] at h ⊢
      obtain ⟨later, hlater, rfl⟩ := h
      rw [ih hlater]
    · simpa [unmarkedAt, mark] using h.symm

/-- A later unmarked slot is one of the queue behind the first. -/
theorem unmarkedAt_succ {index : Nat} (h : unmarkedAt (k + 1) slots = some index) :
    ∃ later, unmarkedAt k (slots.drop (leadingDiscarded slots + 1)) = some later ∧
      index = leadingDiscarded slots + 1 + later := by
  induction slots generalizing index with
  | nil => contradiction
  | cons slot rest ih =>
    rw [leadingDiscarded_cons]
    by_cases mark : slot.isDiscarded
    · simp only [unmarkedAt, mark, if_true, map_eq_some_iff] at h ⊢
      obtain ⟨next, hnext, rfl⟩ := h
      obtain ⟨later, hlater, rfl⟩ := ih hnext
      exact ⟨later, by rw [drop_succ_cons]; exact hlater, by omega⟩
    · simp only [unmarkedAt, mark, Bool.false_eq_true, if_false, map_eq_some_iff] at h ⊢
      obtain ⟨later, hlater, rfl⟩ := h
      exact ⟨later, by simpa using hlater, by omega⟩

/-! ## Peeking -/

variable {jb : Jbuf}

/-- The search of `jb_framelist_peek`, from an offset of the queue on. -/
theorem peekPos_spec {fl : JbFramelist} {fuel offset k index : Nat}
    (h : unmarkedAt k (fl.window.drop offset) = some index) (enough : index < fuel) :
    peekPos fl fuel (Circular.slot fl.maxCount fl.head offset) k =
      some (Circular.slot fl.maxCount fl.head (offset + index)) := by
  induction fuel generalizing offset k index with
  | zero => omega
  | succ fuel ih =>
    have within : offset < fl.window.length := by
      by_contra past
      rw [drop_eq_nil_of_le (by omega)] at h
      contradiction
    have here : fl.window[offset] = fl.slots (Circular.slot fl.maxCount fl.head offset) :=
      Circular.getElem_window _ _ _ _ _ within
    have next : (Circular.slot fl.maxCount fl.head offset + 1) % fl.maxCount =
        Circular.slot fl.maxCount fl.head (offset + 1) := Circular.slot_slot _ _ offset 1
    rw [drop_eq_getElem_cons within, here] at h
    by_cases mark : (fl.slots (Circular.slot fl.maxCount fl.head offset)).isDiscarded
    · simp only [unmarkedAt, mark, if_true, map_eq_some_iff] at h
      obtain ⟨later, hlater, rfl⟩ := h
      simp only [peekPos, mark, if_true, next]
      rw [ih hlater (by omega)]
      congr 2
      omega
    · cases k with
      | zero =>
        simp only [unmarkedAt, mark, Bool.false_eq_true, if_false, Option.some.injEq] at h
        subst h
        simp [peekPos, mark]
      | succ k =>
        simp only [unmarkedAt, mark, Bool.false_eq_true, if_false, map_eq_some_iff] at h
        obtain ⟨later, hlater, rfl⟩ := h
        simp only [peekPos, mark, Bool.false_eq_true, if_false, next]
        rw [ih hlater (by omega)]
        congr 2
        omega

/-- The frame a peek reports for a slot. -/
def peekFrame (slot : Slot) (seq : Int) : JbFrame :=
  { frame := slot.content.take slot.contentLen, size := slot.contentLen
    frameType := slot.frameType, bitInfo := slot.bitInfo, ts := slot.ts, seq := seq }

/-- A peek below the effective size reports the slot that is not marked at its offset. -/
theorem jbufPeekFrame_spec (h : jb.jbFramelist.Shape) {index : Nat} {slot : Slot}
    (below : k < jbFramelistEffSize jb.jbFramelist)
    (hindex : unmarkedAt k jb.jbFramelist.window = some index)
    (hslot : jb.jbFramelist.window[index]? = some slot) :
    jbufPeekFrame jb k = some
      { frameType := reportedType slot.frameType
        frame := some (peekFrame slot (jb.jbFramelist.origin + k)) } := by
  have within := (List.getElem?_eq_some_iff.mp hslot).1
  rw [JbFramelist.length_window] at within
  have fits := h.size_le
  have enough : index < (k + 1) * jb.jbFramelist.maxCount := by
    rw [Nat.succ_mul]
    omega
  have found := @peekPos_spec jb.jbFramelist _ 0 k index hindex enough
  rw [Circular.slot_zero h.head_lt, Nat.zero_add] at found
  rw [JbFramelist.window, Circular.getElem?_window _ _ within] at hslot
  have content := some.inj hslot
  simp only [jbufPeekFrame, jbFramelistPeek]
  rw [if_neg (by omega), found]
  simp only [content, peekFrame]

/-! ## Getting -/

/-- `jbuf_discard_static` removes a frame. -/
def StaticDue (jb : Jbuf) : Prop :=
  staDiscSafeShrinkingDiff ≤
      i32 (jbFramelistEffSize jb.jbFramelist - max jb.jbEffLevel jb.jbLevel * 2) ∧
    jb.jbMinShrinkGap ≤
      jbFramelistOrigin jb.jbFramelist - min (jbFramelistOrigin jb.jbFramelist) jb.jbDiscardRef

instance (jb : Jbuf) : Decidable (StaticDue jb) := by
  unfold StaticDue
  infer_instance

/-- Where it is not due, the static algorithm leaves the frames. -/
theorem jbufDiscardStatic_keeps (idle : ¬StaticDue jb) :
    (jbufDiscardStatic jb).jbFramelist = jb.jbFramelist ∧
      (jbufDiscardStatic jb).jbPrefetching = jb.jbPrefetching := by
  simp only [StaticDue, not_and] at idle
  simp only [jbufDiscardStatic]
  split
  · rename_i above
    have early := idle above
    split
    · rename_i restarted
      rw [min_eq_left (by omega)] at early
      rw [if_neg early]
      exact ⟨rfl, rfl⟩
    · rename_i ordered
      rw [min_eq_right (by omega)] at early
      rw [if_neg early]
      exact ⟨rfl, rfl⟩
  · exact ⟨rfl, rfl⟩

/-- The static algorithm removes a frame at the end of the get. -/
def GetShrinks (jb : Jbuf) (size : Option Nat) : Prop :=
  let updated := jbufSwitchOp (jbufCountGet (jbufTake jb size).1) .get
  updated.jbStatus = .processing ∧ updated.jbDiscardAlgo = .static ∧ StaticDue updated

instance (jb : Jbuf) (size : Option Nat) : Decidable (GetShrinks jb size) := by
  unfold GetShrinks
  infer_instance

/-- A get that does not shrink the buffer removes what it takes and no more. -/
theorem jbufGetFrame3_keeps {jb : Jbuf} {size : Option Nat} (idle : ¬GetShrinks jb size) :
    (jbufGetFrame3 jb size).1.jbFramelist = (jbufTake jb size).1.jbFramelist ∧
      (jbufGetFrame3 jb size).1.jbPrefetching = (jbufTake jb size).1.jbPrefetching := by
  have switched := Retimed.switchOp (jbufCountGet (jbufTake jb size).1) .get
  have taken : (jbufSwitchOp (jbufCountGet (jbufTake jb size).1) .get).jbFramelist =
        (jbufTake jb size).1.jbFramelist ∧
      (jbufSwitchOp (jbufCountGet (jbufTake jb size).1) .get).jbPrefetching =
        (jbufTake jb size).1.jbPrefetching := ⟨switched.framelist, switched.prefetching⟩
  simp only [GetShrinks, not_and] at idle
  simp only [jbufGetFrame3, jbufUpdate]
  split
  · rename_i processing
    cases algo : (jbufSwitchOp (jbufCountGet (jbufTake jb size).1) .get).jbDiscardAlgo with
    | none => exact taken
    | static =>
      have kept := jbufDiscardStatic_keeps (idle processing algo)
      exact ⟨kept.1.trans taken.1, kept.2.trans taken.2⟩
    | progressive =>
      rw [jbufDiscardProgressive, if_pos (by rw [jbufSwitchOp_lastOp]; decide)]
      exact taken
  · exact taken

/-- The buffer after a number of gets. -/
def afterGets (size : Option Nat) : Nat → Jbuf → Jbuf
  | 0, jb => jb
  | gets + 1, jb => afterGets size gets (jbufGetFrame3 jb size).1

/-- A get from a queue with an unmarked slot takes the first one. -/
theorem jbufTake_spec (h : jb.jbFramelist.Shape) (ready : jb.jbPrefetching = false) {slot : Slot}
    (hslot : jb.jbFramelist.window[leadingDiscarded jb.jbFramelist.window]? = some slot)
    (size : Option Nat) :
    (jbufTake jb size).2 =
        { frameType := reportedType (slotFrame slot 0 size
            (decide (leadingDiscarded jb.jbFramelist.window ≠ 0))).frameType
          frame := some (slotFrame slot
            (jb.jbFramelist.origin + leadingDiscarded jb.jbFramelist.window) size
            (decide (leadingDiscarded jb.jbFramelist.window ≠ 0))) } ∧
      (jbufTake jb size).1.jbPrefetching = false ∧
      Advanced jb.jbFramelist (jbufTake jb size).1.jbFramelist
        (leadingDiscarded jb.jbFramelist.window + 1) := by
  have spec := jbFramelistGet_spec h size
  rw [hslot] at spec
  simp only [jbufTake, ready, Bool.false_eq_true, if_false, spec.1]
  refine ⟨?_, trivial, spec.2⟩
  unfold slotFrame
  split <;> rfl

/-- The first unmarked slot follows a marked one if it is not the first slot. -/
theorem followsDiscarded_leading (within : leadingDiscarded slots < slots.length) :
    followsDiscarded slots (leadingDiscarded slots) = decide (leadingDiscarded slots ≠ 0) := by
  by_cases first : leadingDiscarded slots = 0
  · simp [followsDiscarded, first]
  · have before : leadingDiscarded slots - 1 < slots.findIdx fun slot => !slot.isDiscarded := by
      unfold leadingDiscarded at first ⊢
      omega
    have mark : (slots[leadingDiscarded slots - 1]).isDiscarded = true := by
      simpa using not_of_lt_findIdx before
    simp [followsDiscarded, first, mark,
      show leadingDiscarded slots - 1 < slots.length by omega]

/-- The slots behind the first unmarked one follow the same slots as before it was taken. -/
theorem followsDiscarded_drop (within : leadingDiscarded slots < slots.length) (later : Nat) :
    followsDiscarded (slots.drop (leadingDiscarded slots + 1)) later =
      followsDiscarded slots (leadingDiscarded slots + 1 + later) := by
  cases later with
  | zero =>
    simp [followsDiscarded, getElem?_eq_getElem within, leadingDiscarded_unmarked within]
  | succ later =>
    have place : leadingDiscarded slots + 1 + (later + 1) - 1 =
        leadingDiscarded slots + 1 + later := by omega
    simp [followsDiscarded, getElem?_drop, place]

/-- The report of the get after `k` gets: the `k`-th unmarked slot, or a missing frame where
the slot in front of it is marked. -/
theorem nthGet_spec {size : Option Nat} {index : Nat} {slot : Slot} (h : jb.jbFramelist.Shape)
    (ready : jb.jbPrefetching = false)
    (idle : ∀ gets < k, ¬GetShrinks (afterGets size gets jb) size)
    (hindex : unmarkedAt k jb.jbFramelist.window = some index)
    (hslot : jb.jbFramelist.window[index]? = some slot) :
    (jbufGetFrame3 (afterGets size k jb) size).2 =
      { frameType := reportedType (slotFrame slot 0 size
          (followsDiscarded jb.jbFramelist.window index)).frameType
        frame := some (slotFrame slot (jb.jbFramelist.origin + index) size
          (followsDiscarded jb.jbFramelist.window index)) } := by
  induction k generalizing jb index with
  | zero =>
    obtain rfl := unmarkedAt_zero hindex
    rw [followsDiscarded_leading (List.getElem?_eq_some_iff.mp hslot).1]
    exact (jbufTake_spec h ready hslot size).1
  | succ k ih =>
    obtain ⟨later, hlater, rfl⟩ := unmarkedAt_succ hindex
    have within : leadingDiscarded jb.jbFramelist.window < jb.jbFramelist.window.length := by
      have := (List.getElem?_eq_some_iff.mp hslot).1
      omega
    have ⟨_, stillReady, advanced⟩ :=
      jbufTake_spec h ready (getElem?_eq_getElem within) size
    have ⟨framelist, prefetching⟩ := @jbufGetFrame3_keeps jb size (idle 0 (by omega))
    rw [← framelist] at advanced
    rw [← prefetching] at stillReady
    have rest := ih advanced.shape stillReady
      (fun gets hgets => idle (gets + 1) (by omega))
      (by rw [advanced.window]; exact hlater)
      (by rw [advanced.window, getElem?_drop]; exact hslot)
    rw [advanced.window, followsDiscarded_drop within, advanced.origin] at rest
    rw [afterGets, rest]
    congr 3
    omega

/-! ## Agreement -/

/-- The buffer after calls on a created one. -/
def jbufAfter (memory : Nat → Slot) (frameSize ptime maxCount : Nat) (calls : List Call) : Jbuf :=
  calls.foldl call (jbufCreate memory frameSize ptime maxCount)

/-- Peeking and getting agree in every state that is reached without marking a slot twice and
is not prefetching, as long as the gets do not shrink the buffer. The peek at `k` and the
get after `k` gets look at the same slot. Behind a marked slot the get reports a missing
frame; elsewhere type, content, size and bit information agree. The sequence numbers agree
where no slot in front is marked. -/
theorem peek_agrees_get (memory : Nat → Slot) (frameSize ptime maxCount : Nat)
    (positive : 1 ≤ maxCount) (bound : maxCount < 2 ^ 32) (calls : List Call)
    (once : Run.Meets call MarksOnce (jbufCreate memory frameSize ptime maxCount) calls) :
    let jb := jbufAfter memory frameSize ptime maxCount calls
    jb.jbPrefetching = false →
    ∀ (size : Option Nat) (k : Nat), k < jbFramelistEffSize jb.jbFramelist →
      (∀ gets < k, ¬GetShrinks (afterGets size gets jb) size) →
      ∃ (index : Nat) (peeked got : JbFrame) (frameType frameType' : JbFrameType),
        unmarkedAt k jb.jbFramelist.window = some index ∧
        jbufPeekFrame jb k = some { frameType := frameType, frame := some peeked } ∧
        (jbufGetFrame3 (afterGets size k jb) size).2 =
          { frameType := frameType', frame := some got } ∧
        got.ts = peeked.ts ∧
        (if followsDiscarded jb.jbFramelist.window index then
          frameType' = .missing ∧ got.frame = [] ∧ got.size = 0 ∧ got.bitInfo = 0
        else
          frameType' = frameType ∧ got.bitInfo = peeked.bitInfo ∧
            ((∀ capacity, size = some capacity → peeked.size ≤ capacity) →
              got.frame = peeked.frame ∧ got.size = peeked.size)) ∧
        ((∀ slot ∈ jb.jbFramelist.window.take index, slot.isDiscarded = false) →
          got.seq = peeked.seq) := by
  intro jb ready size k below idle
  have ring : BoundedRing jb.jbFramelist :=
    have along := Run.always (fun (jb : Jbuf) _ (ring : BoundedRing jb.jbFramelist) once =>
      ring.call once) (jbufCreate_ring memory frameSize ptime positive bound) once
    along.last
  have unmarked : k < jb.jbFramelist.window.countP fun slot => !slot.isDiscarded := by
    have total := length_eq_countP_add_countP Slot.isDiscarded (l := jb.jbFramelist.window)
    have marked := ring.discarded
    rw [ring.effSize_eq] at below
    rw [JbFramelist.length_window] at total
    simp only [Bool.not_eq_true, Bool.decide_eq_false] at total
    omega
  have ⟨index, hindex⟩ := unmarkedAt_exists unmarked
  have ⟨⟨slot, hslot, _⟩, place⟩ := unmarkedAt_spec hindex
  refine ⟨index, _, _, _, _, hindex, jbufPeekFrame_spec ring.toShape below hindex hslot,
    nthGet_spec ring.toShape ready idle hindex hslot, ?_, ?_, ?_⟩
  · unfold slotFrame
    split <;> rfl
  · cases follows : followsDiscarded jb.jbFramelist.window index with
    | true => simp [slotFrame, reportedType]
    | false =>
      simp only [slotFrame, peekFrame, Bool.false_eq_true, if_false, true_and]
      intro room
      have whole : min (size.getD slot.contentLen) slot.contentLen = slot.contentLen := by
        cases size with
        | none => simp
        | some capacity => simpa using room capacity rfl
      rw [whole]
      exact ⟨rfl, rfl⟩
  · intro none
    have zero : (jb.jbFramelist.window.take index).countP Slot.isDiscarded = 0 :=
      countP_eq_zero.mpr fun other member => by simp [none other member]
    have same : index = k := by omega
    subst same
    unfold slotFrame
    split <;> rfl

/-- Five frames, each followed by a get, end the initialization; the next frame is discarded
at once. With the four frames that follow the buffer has its prefetch. -/
def discardedFifthCalls : List Call :=
  ((List.range 5).flatMap fun seq => [.putFrame3 (byteFrame seq), .getFrame3 none]) ++
    [.putFrame3 (byteFrame 5), .setDiscard .none] ++
    (List.range 4).map fun seq => .putFrame3 (byteFrame (seq + 6))

/-- The buffer after these calls. -/
def discardedFifth : Jbuf :=
  jbufAfter (fun _ => ⟨[], .missing, 0, 0, 0⟩) 1 1000 10 discardedFifthCalls

/-- Peeking and getting differ at the frame behind the discarded one. -/
theorem peek_differs_get :
    discardedFifth.jbPrefetching = false ∧ 5 < jbFramelistEffSize discardedFifth.jbFramelist ∧
      jbufPeekFrame discardedFifth 5 ≠
        some (jbufGetFrame3 (afterGets none 5 discardedFifth) none).2 := by
  decide +kernel

/-- The agreement at that frame: its time stamp. -/
theorem peek_agrees_get_fifth : ∃ peeked got : JbFrame,
    (jbufPeekFrame discardedFifth 5).bind JbReport.frame = some peeked ∧
      (jbufGetFrame3 (afterGets none 5 discardedFifth) none).2.frame = some got ∧
      got.ts = peeked.ts := by
  have once : Run.Meets call MarksOnce (jbufCreate (fun _ => ⟨[], .missing, 0, 0, 0⟩) 1 1000 10)
      discardedFifthCalls := by decide +kernel
  have state := peek_differs_get
  have idle : ∀ gets < 5, ¬GetShrinks (afterGets none gets discardedFifth) none := by
    decide +kernel
  have agreement := peek_agrees_get _ 1 1000 10 (by decide) (by decide) discardedFifthCalls once
  obtain ⟨_, peeked, got, _, _, _, peek, get, ts, _⟩ := agreement state.1 none 5 state.2.1 idle
  refine ⟨peeked, got, ?_, ?_, ts⟩
  · rw [discardedFifth, peek]
    rfl
  · rw [discardedFifth, get]

end Pjmedia.JitterBuffer
