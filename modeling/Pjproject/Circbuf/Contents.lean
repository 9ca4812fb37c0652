import Pjproject.Circbuf.Buffer

/-!
# What each function of the circular buffer does to its contents

One lemma for each function over a well-formed buffer: when it succeeds, which samples it
returns, and which samples the buffer and its free part hold afterwards. Copies are of fewer
than 2^31 samples: from there on their byte counts wrap.
-/

namespace Pjmedia.Circbuf

open List Pj Memory Circular

variable {circbuf : CircBuf}

/-- The free space of a well-formed buffer does not wrap. -/
theorem Wf.room (wf : Wf circbuf) :
    u32 ((circbuf.capacity : Int) - circbuf.len) = circbuf.capacity - circbuf.len := by
  have small := wf.small
  exact u32_sub wf.bounded (by omega)

/-- The buffer that was created is well formed and empty. -/
theorem wf_create {capacity : Nat} (positive : 0 < capacity) (small : capacity < 2 ^ 32) :
    Wf (create capacity) :=
  ⟨positive, Nat.zero_le capacity, small⟩

/-- The two read regions hold the contents. -/
theorem contents_regions (wf : Wf circbuf) :
    contents circbuf =
      span circbuf.buf (getReadRegions circbuf).reg1 (getReadRegions circbuf).reg1Len ++
        span circbuf.buf ((getReadRegions circbuf).reg2.getD 0)
          (getReadRegions circbuf).reg2Len := by
  have bounded := wf.bounded
  unfold getReadRegions contents
  by_cases wraps : circbuf.capacity < circbuf.start + circbuf.len
  · simp only [if_pos wraps]
    exact window_of_wraps _ wf.inside wraps bounded
  · simp only [if_neg wraps]
    rw [window_of_fits _ (by omega), span_zero, append_nil]

/-- The read regions have as many samples as the buffer. -/
theorem regions_len (wf : Wf circbuf) :
    (getReadRegions circbuf).reg1Len + (getReadRegions circbuf).reg2Len = circbuf.len := by
  have lengths := congrArg List.length (contents_regions wf)
  simpa using lengths.symm

/-- A successful copy returns the samples it names. -/
theorem copy_eq (wf : Wf circbuf) {startIdx count : Nat} (h : startIdx + count ≤ circbuf.len)
    (short : count < 2 ^ 31) :
    copy circbuf startIdx count = (.success, ((contents circbuf).drop startIdx).take count) := by
  have bounded := wf.bounded
  have small := wf.small
  have lengths := regions_len wf
  have sum : u32 ((count : Int) + startIdx) = count + startIdx := u32_add (by omega)
  have loads : ∀ src size : Nat, size ≤ count →
      loadSamples circbuf.buf src size = span circbuf.buf src size := by
    intro src size hsize
    rw [loadSamples, copiedCount_eq (by omega)]
  rw [contents_regions wf]
  unfold copy
  rw [sum, if_neg (by omega)]
  by_cases inFirst : startIdx < (getReadRegions circbuf).reg1Len
  · rw [if_pos inFirst]
    by_cases whole : count ≤ (getReadRegions circbuf).reg1Len - startIdx
    · have tmpLen : (if count < (getReadRegions circbuf).reg1Len - startIdx then count
          else (getReadRegions circbuf).reg1Len - startIdx) = count := by
        split <;> omega
      simp only [tmpLen, Nat.lt_irrefl, if_false]
      rw [loads _ _ (by omega), drop_append_of_le_length (by simp; omega),
        span_drop _ _ (by omega), take_append_of_le_length (by simp; omega),
        span_take _ _ whole]
    · have tmpLen : (if count < (getReadRegions circbuf).reg1Len - startIdx then count
          else (getReadRegions circbuf).reg1Len - startIdx) =
            (getReadRegions circbuf).reg1Len - startIdx := by
        split <;> omega
      simp only [tmpLen]
      rw [if_pos (by omega), loads _ _ (by omega), loads _ _ (by omega),
        drop_append_of_le_length (by simp; omega), span_drop _ _ (by omega),
        take_append, take_of_length_le (by simp; omega), length_span,
        span_take _ _ (by omega)]
  · rw [if_neg inFirst, loads _ _ (by omega), drop_append,
      drop_of_length_le (by simp; omega), nil_append, length_span,
      span_drop _ _ (by omega), span_take _ _ (by omega)]
    congr 3
    omega

/-- A copy of more samples than there are fails. -/
theorem copy_etoobig {startIdx count : Nat} (h : circbuf.len < startIdx + count)
    (bound : startIdx + count < 2 ^ 32) : copy circbuf startIdx count = (.etoobig, []) := by
  have sum : u32 ((count : Int) + startIdx) = count + startIdx := u32_add (by omega)
  unfold copy
  rw [sum, if_pos (by omega)]

/-- Dropping all samples resets the buffer. -/
theorem advReadPtr_all {count : Nat} (h : circbuf.len ≤ count) :
    advReadPtr circbuf count = reset circbuf :=
  if_pos h

/-- Dropping some samples moves the read pointer over them. -/
theorem advReadPtr_some (wf : Wf circbuf) {count : Nat} (h : count < circbuf.len) :
    advReadPtr circbuf count =
      { circbuf with
        start := slot circbuf.capacity circbuf.start count
        len := circbuf.len - count } := by
  have inside := wf.inside
  have bounded := wf.bounded
  unfold advReadPtr
  rw [if_neg (by omega)]
  by_cases wraps : circbuf.capacity ≤ circbuf.start + count
  · simp only [if_pos wraps]
    rw [slot_of_ge wraps (by omega)]
  · simp only [if_neg wraps]
    rw [slot_of_lt (by omega)]

theorem contents_reset : contents (reset circbuf) = [] := rfl

theorem wf_reset (wf : Wf circbuf) : Wf (reset circbuf) := by
  have inside := wf.inside
  exact ⟨by show 0 < circbuf.capacity; omega, Nat.zero_le _, wf.small⟩

/-- Advancing the read pointer drops the eldest samples. -/
theorem contents_advReadPtr (wf : Wf circbuf) (count : Nat) :
    contents (advReadPtr circbuf count) = (contents circbuf).drop count := by
  by_cases all : circbuf.len ≤ count
  · rw [advReadPtr_all all, contents_reset, drop_of_length_le]
    rwa [length_contents]
  · rw [advReadPtr_some wf (by omega)]
    exact window_drop _ _ _ (by omega)

/-- The dropped samples join the end of the free part. -/
theorem spare_advReadPtr (wf : Wf circbuf) {count : Nat} (h : count < circbuf.len) :
    spare (advReadPtr circbuf count) = spare circbuf ++ (contents circbuf).take count := by
  have bounded := wf.bounded
  rw [advReadPtr_some wf h]
  unfold spare contents
  have freed : circbuf.capacity - (circbuf.len - count) =
      (circbuf.capacity - circbuf.len) + count := by omega
  have past : count + (circbuf.len - count) = circbuf.len := by omega
  simp only [slot_slot, past, freed]
  rw [window_add, slot_slot, window_take _ _ _ (Nat.le_of_lt h)]
  -- the free part ends where the contents start
  have round : circbuf.len + (circbuf.capacity - circbuf.len) = circbuf.capacity := by omega
  have again : slot circbuf.capacity circbuf.start circbuf.capacity = circbuf.start := by
    have inside := wf.inside
    simp [slot, Nat.mod_eq_of_lt inside]
  rw [round, again]

theorem wf_advReadPtr (wf : Wf circbuf) (count : Nat) : Wf (advReadPtr circbuf count) := by
  have bounded := wf.bounded
  have inside := wf.inside
  by_cases all : circbuf.len ≤ count
  · rw [advReadPtr_all all]
    exact wf_reset wf
  · rw [advReadPtr_some wf (by omega)]
    exact ⟨slot_lt (by omega), by show circbuf.len - count ≤ circbuf.capacity; omega, wf.small⟩

/-- The functions keep the number of slots, whatever the state. -/
theorem capacity_advReadPtr (circbuf : CircBuf) (count : Nat) :
    (advReadPtr circbuf count).capacity = circbuf.capacity := by
  unfold advReadPtr
  split <;> rfl

theorem capacity_read (circbuf : CircBuf) (count : Nat) :
    (read circbuf count).2.2.capacity = circbuf.capacity := by
  unfold read
  split
  · rfl
  · exact capacity_advReadPtr circbuf count

theorem capacity_write (circbuf : CircBuf) (data : List Sample) :
    (write circbuf data).2.capacity = circbuf.capacity := by
  unfold write advWritePtr
  dsimp only
  split
  · rfl
  · split <;> rfl

/-- A successful read returns the eldest samples and drops them. -/
theorem read_eq (wf : Wf circbuf) {count : Nat} (h : count ≤ circbuf.len)
    (short : count < 2 ^ 31) :
    read circbuf count =
      (.success, (contents circbuf).take count, advReadPtr circbuf count) := by
  have bounded := wf.bounded
  have lengths := regions_len wf
  rw [contents_regions wf]
  unfold read
  rw [if_neg (by omega)]
  by_cases inFirst : count ≤ (getReadRegions circbuf).reg1Len
  · simp only [if_pos inFirst]
    rw [loadSamples, copiedCount_eq (by omega), take_append_of_le_length (by simpa),
      span_take _ _ inFirst]
  · simp only [if_neg inFirst]
    rw [loadSamples, loadSamples, copiedCount_eq (by omega), copiedCount_eq (by omega),
      take_append, take_of_length_le (by simp; omega), length_span,
      span_take _ _ (by omega)]

theorem read_etoobig {count : Nat} (h : circbuf.len < count) :
    read circbuf count = (.etoobig, [], circbuf) :=
  if_pos h

/-- Taking in samples of the free part. -/
theorem advWritePtr_eq (wf : Wf circbuf) {count : Nat}
    (h : circbuf.len + count ≤ circbuf.capacity) :
    advWritePtr circbuf count = (.success, { circbuf with len := circbuf.len + count }) := by
  have small := wf.small
  have sum : u32 ((count : Int) + circbuf.len) = count + circbuf.len := u32_add (by omega)
  unfold advWritePtr
  rw [sum, if_neg (by omega), u32_add (by omega)]

theorem advWritePtr_etoobig {count : Nat} (h : circbuf.capacity < circbuf.len + count)
    (bound : circbuf.len + count < 2 ^ 32) : advWritePtr circbuf count = (.etoobig, circbuf) := by
  have sum : u32 ((count : Int) + circbuf.len) = count + circbuf.len := u32_add (by omega)
  unfold advWritePtr
  rw [sum, if_pos (by omega)]

section
variable {count : Nat} (h : circbuf.len + count ≤ circbuf.capacity)
include h

/-- A longer buffer takes in the front of the free part. -/
theorem contents_grow :
    contents { circbuf with len := circbuf.len + count } =
      contents circbuf ++ (spare circbuf).take count := by
  unfold contents spare
  rw [window_take _ _ _ (by omega), ← window_add]

/-- What is left of the free part. -/
theorem spare_grow :
    spare { circbuf with len := circbuf.len + count } = (spare circbuf).drop count := by
  unfold spare
  rw [← window_drop _ _ _ (by omega), slot_slot]
  congr 1
  show circbuf.capacity - (circbuf.len + count) = _
  omega

end

variable {len : Nat}

/-- A shorter buffer keeps its eldest samples. -/
theorem contents_setLen (h : len ≤ circbuf.len) :
    contents (setLen circbuf len) = (contents circbuf).take len :=
  (window_take _ _ _ h).symm

/-- The samples cut off come before the free part. -/
theorem spare_setLen (wf : Wf circbuf) (h : len ≤ circbuf.len) :
    spare (setLen circbuf len) = (contents circbuf).drop len ++ spare circbuf := by
  have bounded := wf.bounded
  unfold spare contents setLen
  have freed : circbuf.capacity - len =
      (circbuf.len - len) + (circbuf.capacity - circbuf.len) := by omega
  have past : len + (circbuf.len - len) = circbuf.len := by omega
  simp only [freed]
  rw [window_add, slot_slot, past, window_drop _ _ _ h]

theorem wf_setLen (wf : Wf circbuf) (h : len ≤ circbuf.capacity) :
    Wf (setLen circbuf len) :=
  ⟨wf.inside, h, wf.small⟩

/-- The write regions: from the slot behind the contents to the end of the free part or of
the buffer. -/
theorem writeRegions_cases (wf : Wf circbuf) :
    (getWriteRegions circbuf).reg1 = slot circbuf.capacity circbuf.start circbuf.len ∧
      (getWriteRegions circbuf).reg2.getD 0 = 0 ∧
      (getWriteRegions circbuf).reg1Len =
        min (circbuf.capacity - circbuf.len)
          (circbuf.capacity - slot circbuf.capacity circbuf.start circbuf.len) := by
  have inside := wf.inside
  have bounded := wf.bounded
  have reg1 : (if circbuf.capacity ≤ circbuf.start + circbuf.len
      then circbuf.start + circbuf.len - circbuf.capacity else circbuf.start + circbuf.len) =
        slot circbuf.capacity circbuf.start circbuf.len := by
    by_cases wraps : circbuf.capacity ≤ circbuf.start + circbuf.len
    · rw [if_pos wraps, slot_of_ge wraps (by omega)]
    · rw [if_neg wraps, slot_of_lt (by omega)]
  unfold getWriteRegions
  simp only [reg1, wf.room]
  split
  · refine ⟨rfl, rfl, ?_⟩
    show circbuf.capacity - _ = _
    omega
  · refine ⟨rfl, rfl, ?_⟩
    show circbuf.capacity - circbuf.len = _
    omega

variable {data : List Sample}

/-- A successful write stores the samples behind the contents. -/
theorem write_eq (wf : Wf circbuf) (h : circbuf.len + data.length ≤ circbuf.capacity)
    (short : data.length < 2 ^ 31) :
    write circbuf data =
      (.success,
        { circbuf with
          buf := storeWindow circbuf.capacity circbuf.buf
            (slot circbuf.capacity circbuf.start circbuf.len) data
          len := circbuf.len + data.length }) := by
  have inside := wf.inside
  have bounded := wf.bounded
  have first : slot circbuf.capacity circbuf.start circbuf.len < circbuf.capacity :=
    slot_lt (by omega)
  have ⟨reg1, reg2, reg1Len⟩ := writeRegions_cases wf
  have stored : (if data.length ≤ (getWriteRegions circbuf).reg1Len
      then storeSamples circbuf.buf (getWriteRegions circbuf).reg1 data data.length
      else storeSamples
        (storeSamples circbuf.buf (getWriteRegions circbuf).reg1 data
          (getWriteRegions circbuf).reg1Len)
        ((getWriteRegions circbuf).reg2.getD 0) (data.drop (getWriteRegions circbuf).reg1Len)
        (data.length - (getWriteRegions circbuf).reg1Len)) =
      storeWindow circbuf.capacity circbuf.buf
        (slot circbuf.capacity circbuf.start circbuf.len) data := by
    unfold storeWindow storeSamples
    rw [reg1, reg2]
    by_cases contiguous : slot circbuf.capacity circbuf.start circbuf.len + data.length ≤
        circbuf.capacity
    · rw [if_pos contiguous, if_pos (by omega), copiedCount_eq (by omega), take_length]
    · have split : (getWriteRegions circbuf).reg1Len =
          circbuf.capacity - slot circbuf.capacity circbuf.start circbuf.len := by omega
      rw [if_neg contiguous, if_neg (by omega), split, copiedCount_eq (by omega),
        copiedCount_eq (by omega), ← length_drop, take_length]
  unfold write
  simp only [wf.room, stored]
  rw [if_neg (by omega)]
  exact @advWritePtr_eq { circbuf with
    buf := storeWindow circbuf.capacity circbuf.buf
      (slot circbuf.capacity circbuf.start circbuf.len) data }
    ⟨inside, bounded, wf.small⟩ _ h

theorem write_etoobig (wf : Wf circbuf) (h : circbuf.capacity < circbuf.len + data.length) :
    write circbuf data = (.etoobig, circbuf) := by
  have bounded := wf.bounded
  unfold write
  rw [wf.room, if_pos (by omega)]

section
variable (wf : Wf circbuf) (h : circbuf.len + data.length ≤ circbuf.capacity)
  (short : data.length < 2 ^ 31)
include wf h short

/-- A write appends. -/
theorem contents_write : contents (write circbuf data).2 = contents circbuf ++ data := by
  rw [write_eq wf h short]
  exact window_append _ wf.inside h

/-- A write uses up the front of the free part. -/
theorem spare_write : spare (write circbuf data).2 = (spare circbuf).drop data.length := by
  have inside := wf.inside
  have bounded := wf.bounded
  have left : circbuf.capacity - (circbuf.len + data.length) =
      circbuf.capacity - circbuf.len - data.length := by omega
  rw [write_eq wf h short]
  unfold spare
  simp only [left]
  rw [← window_drop _ _ _ (by omega), ← slot_slot]
  apply window_storeWindow_after _ (slot_lt (by omega))
  omega

theorem wf_write : Wf (write circbuf data).2 := by
  rw [write_eq wf h short]
  exact ⟨wf.inside, h, wf.small⟩

end

/-- One pass of the rolling loop moves the front of the second region behind the first. -/
theorem rollPass {buf : Nat → Sample} {reg1 reg1cnt reg2cnt gap : Nat}
    (small : reg1 + reg1cnt < 2 ^ 31) (used : gap ≤ reg2cnt) (free : gap + reg2cnt ≤ reg1) :
    let moved := moveSamples (moveSamples buf (reg1 - gap) reg1 reg1cnt)
      (reg1 + reg1cnt - gap) 0 gap
    let next := if gap < reg2cnt then moveSamples moved 0 (0 + gap) (reg2cnt - gap) else moved
    span next (reg1 - gap) (reg1cnt + gap) = span buf reg1 reg1cnt ++ span buf 0 gap ∧
      span next 0 (reg2cnt - gap) = span buf gap (reg2cnt - gap) ∧
      ∀ cell, reg1 + reg1cnt ≤ cell → next cell = buf cell := by
  intro moved next
  have counts : ∀ count, count ≤ reg1 + reg1cnt → copiedCount count = count := by
    intro count hcount
    exact copiedCount_eq (by omega)
  have shifted : span moved (reg1 - gap) reg1cnt = span buf reg1 reg1cnt := by
    simp only [moved, moveSamples, counts reg1cnt (by omega), counts gap (by omega)]
    rw [span_move_apart _ _ (by omega), span_move]
  have appended : span moved (reg1 - gap + reg1cnt) gap = span buf 0 gap := by
    have place : reg1 - gap + reg1cnt = reg1 + reg1cnt - gap := by omega
    simp only [moved, moveSamples, counts reg1cnt (by omega), counts gap (by omega)]
    rw [place, span_move, span_move_apart _ _ (by omega)]
  have rest : span moved gap (reg2cnt - gap) = span buf gap (reg2cnt - gap) := by
    simp only [moved, moveSamples, counts reg1cnt (by omega), counts gap (by omega)]
    rw [span_move_apart _ _ (by omega), span_move_apart _ _ (by omega)]
  have past : ∀ cell, reg1 + reg1cnt ≤ cell → moved cell = buf cell := by
    intro cell hcell
    simp only [moved, moveSamples, counts reg1cnt (by omega), counts gap (by omega)]
    rw [move_outside _ _ (by omega), move_outside _ _ (by omega)]
  have joined : span moved (reg1 - gap) (reg1cnt + gap) =
      span buf reg1 reg1cnt ++ span buf 0 gap := by
    rw [span_add, shifted, appended]
  by_cases more : gap < reg2cnt
  · simp only [next, if_pos more, moveSamples, counts (reg2cnt - gap) (by omega), Nat.zero_add]
    refine ⟨?_, ?_, ?_⟩
    · rw [span_move_apart _ _ (by omega), joined]
    · rw [span_move, rest]
    · intro cell hcell
      rw [move_outside _ _ (by omega), past cell hcell]
  · have none : reg2cnt - gap = 0 := by omega
    simp only [next, if_neg more, none, span_zero]
    exact ⟨joined, trivial, past⟩

/-- The rolling loop ends with the two regions behind one another at the end of the
buffer. -/
theorem rollLeft_spec {capacity : Nat} (small : capacity < 2 ^ 31) (fuel : Nat) :
    ∀ (buf : Nat → Sample) (reg1 reg1cnt reg2cnt gap : Nat), reg1 + reg1cnt = capacity →
      0 < gap → 0 < reg2cnt → reg2cnt ≤ fuel → gap + reg2cnt ≤ reg1 →
      let rolled := rollLeft fuel buf reg1 reg1cnt 0 reg2cnt gap
      rolled.2 = reg1 - reg2cnt ∧
        span rolled.1 rolled.2 (reg1cnt + reg2cnt) =
          span buf reg1 reg1cnt ++ span buf 0 reg2cnt ∧
        ∀ cell, capacity ≤ cell → rolled.1 cell = buf cell := by
  induction fuel with
  | zero =>
    intro buf reg1 reg1cnt reg2cnt gap _ _ hreg2cnt hfuel
    omega
  | succ fuel ih =>
    intro buf reg1 reg1cnt reg2cnt gap hend hgap hreg2cnt hfuel hfree
    rw [rollLeft]
    have passed : (if reg2cnt < gap then reg2cnt else gap) = min gap reg2cnt := by
      split <;> omega
    simp only [passed]
    have ⟨first, second, past⟩ := @rollPass buf reg1 reg1cnt reg2cnt (min gap reg2cnt)
      (by omega) (by omega) (by omega)
    generalize hnext : (if min gap reg2cnt < reg2cnt then
        moveSamples (moveSamples (moveSamples buf (reg1 - min gap reg2cnt) reg1 reg1cnt)
          (reg1 + reg1cnt - min gap reg2cnt) 0 (min gap reg2cnt)) 0 (0 + min gap reg2cnt)
            (reg2cnt - min gap reg2cnt)
      else moveSamples (moveSamples buf (reg1 - min gap reg2cnt) reg1 reg1cnt)
          (reg1 + reg1cnt - min gap reg2cnt) 0 (min gap reg2cnt)) = next at first second past ⊢
    have parts : span buf 0 (min gap reg2cnt + (reg2cnt - min gap reg2cnt)) =
        span buf 0 (min gap reg2cnt) ++
          span buf (0 + min gap reg2cnt) (reg2cnt - min gap reg2cnt) := span_add ..
    have whole : min gap reg2cnt + (reg2cnt - min gap reg2cnt) = reg2cnt := by omega
    rw [whole, Nat.zero_add] at parts
    by_cases more : 0 < reg2cnt - min gap reg2cnt
    · rw [if_pos more]
      have ⟨place, rolled, beyond⟩ := ih next (reg1 - min gap reg2cnt)
        (reg1cnt + min gap reg2cnt) (reg2cnt - min gap reg2cnt) (min gap reg2cnt)
        (by omega) (by omega) more (by omega) (by omega)
      refine ⟨by omega, ?_, ?_⟩
      · have total : reg1cnt + reg2cnt =
            reg1cnt + min gap reg2cnt + (reg2cnt - min gap reg2cnt) := by omega
        rw [total, rolled, first, second, parts, append_assoc]
      · intro cell hcell
        rw [beyond cell hcell, past cell (by omega)]
    · have all : min gap reg2cnt = reg2cnt := by omega
      rw [if_neg more]
      rw [all] at first ⊢
      exact ⟨rfl, first, fun cell hcell => past cell (by omega)⟩

/-- Moving a stretch of `len` samples to the left edge. -/
theorem moveToEdge_spec (wf : Wf circbuf) (short : circbuf.len < 2 ^ 31) (buf : Nat → Sample)
    (reg1 : Nat) :
    contents (moveToEdge circbuf buf reg1) = span buf reg1 circbuf.len ∧
      Wf (moveToEdge circbuf buf reg1) := by
  have bounded := wf.bounded
  have inside := wf.inside
  refine ⟨?_, ⟨by show 0 < circbuf.capacity; omega, bounded, wf.small⟩⟩
  unfold contents moveToEdge
  simp only
  rw [window_of_fits _ (by omega)]
  by_cases edge : reg1 = 0
  · rw [if_neg (not_not.mpr edge), edge]
  · rw [if_pos edge, moveSamples, copiedCount_eq short, span_move]

/-- Packing fails on a full buffer that wraps, and on no other. -/
theorem packBuffer_etoobig_iff (wf : Wf circbuf) :
    (packBuffer circbuf).1 = .etoobig ↔
      circbuf.len = circbuf.capacity ∧ circbuf.start ≠ 0 := by
  have inside := wf.inside
  have bounded := wf.bounded
  unfold packBuffer getReadRegions
  by_cases wraps : circbuf.capacity < circbuf.start + circbuf.len
  · have second : circbuf.len - (circbuf.capacity - circbuf.start) ≠ 0 := by omega
    simp only [if_pos wraps, if_pos second, wf.room]
    by_cases full : circbuf.capacity - circbuf.len = 0
    · simp only [if_pos full, true_iff]
      omega
    · simp only [if_neg full, reduceCtorEq, false_iff]
      omega
  · simp only [if_neg wraps, ne_eq, not_true_eq_false, if_false, reduceCtorEq, false_iff]
    omega

/-- A packed buffer holds the same contents from its left edge on. -/
theorem packBuffer_success (wf : Wf circbuf) (small : circbuf.capacity < 2 ^ 31)
    (h : (packBuffer circbuf).1 = .success) :
    (packBuffer circbuf).2.start = 0 ∧ contents (packBuffer circbuf).2 = contents circbuf ∧
      (packBuffer circbuf).2.capacity = circbuf.capacity ∧
      (packBuffer circbuf).2.len = circbuf.len ∧ Wf (packBuffer circbuf).2 := by
  have inside := wf.inside
  have bounded := wf.bounded
  have regions := contents_regions wf
  unfold packBuffer getReadRegions at *
  by_cases wraps : circbuf.capacity < circbuf.start + circbuf.len
  · have second : circbuf.len - (circbuf.capacity - circbuf.start) ≠ 0 := by omega
    simp only [if_pos wraps, if_pos second, wf.room] at regions h ⊢
    by_cases full : circbuf.capacity - circbuf.len = 0
    · simp only [if_pos full, reduceCtorEq] at h
    · simp only [if_neg full, Option.getD_some] at regions h ⊢
      have ⟨_, rolled, _⟩ := rollLeft_spec small
        (circbuf.len - (circbuf.capacity - circbuf.start)) circbuf.buf circbuf.start
        (circbuf.capacity - circbuf.start) (circbuf.len - (circbuf.capacity - circbuf.start))
        (circbuf.capacity - circbuf.len) (by omega) (by omega) (by omega) (le_refl _) (by omega)
      have total : circbuf.capacity - circbuf.start +
          (circbuf.len - (circbuf.capacity - circbuf.start)) = circbuf.len := by omega
      rw [total] at rolled
      obtain ⟨moved, packed⟩ := moveToEdge_spec wf (by omega)
        (rollLeft (circbuf.len - (circbuf.capacity - circbuf.start)) circbuf.buf circbuf.start
          (circbuf.capacity - circbuf.start) 0
          (circbuf.len - (circbuf.capacity - circbuf.start))
          (circbuf.capacity - circbuf.len)).1 _
      refine ⟨rfl, ?_, rfl, rfl, packed⟩
      rw [moved, rolled, regions]
  · simp only [if_neg wraps, ne_eq, not_true_eq_false, if_false, span_zero,
      append_nil] at regions h ⊢
    have ⟨moved, packed⟩ := moveToEdge_spec wf (by omega) circbuf.buf circbuf.start
    exact ⟨rfl, moved.trans regions.symm, rfl, rfl, packed⟩

/-- A buffer that cannot be packed stays as it is. -/
theorem packBuffer_etoobig (h : (packBuffer circbuf).1 = .etoobig) :
    (packBuffer circbuf).2 = circbuf := by
  unfold packBuffer at *
  by_cases second : (getReadRegions circbuf).reg2Len ≠ 0
  · simp only [if_pos second] at h ⊢
    by_cases full : u32 ((circbuf.capacity : Int) - circbuf.len) = 0
    · rw [if_pos full]
    · simp only [if_neg full, reduceCtorEq] at h
  · simp only [if_neg second, reduceCtorEq] at h

end Pjmedia.Circbuf
