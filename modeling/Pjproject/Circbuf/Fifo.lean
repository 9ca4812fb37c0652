import Pjproject.Circbuf.Contents
import Pjproject.Lib.Run

/-!
# The circular buffer is a bounded queue

The queue is a list of samples of limited length. Each call on the buffer is the same call
on the list: it returns the samples the list says, it fails when the list says, and a call
that fails changes nothing. Only packing looks past the list: it needs a free slot unless the
eldest sample already lies at the left edge.
-/

namespace Pjmedia.Circbuf

open Pj Memory Circular

/-- A call on the buffer. `fill` is the caller storing samples through the pointers of
`pjmedia_circ_buf_get_write_regions`, which a later `advWrite` takes in. -/
inductive Op where
  | write (data : List Sample)
  | read (count : Nat)
  | copy (startIdx count : Nat)
  | advRead (count : Nat)
  | advWrite (count : Nat)
  | fill (data : List Sample)
  | setLen (len : Nat)
  | reset
  | pack
  deriving DecidableEq, Repr

/-- What a call returns and leaves behind. -/
structure Outcome where
  status : Status
  data : List Sample
  circbuf : CircBuf

/-- The caller's stores through the two write regions. -/
def fillRegions (circbuf : CircBuf) (data : List Sample) : CircBuf :=
  let regions := getWriteRegions circbuf
  let buf := store circbuf.buf regions.reg1 (data.take regions.reg1Len)
  { circbuf with buf := store buf (regions.reg2.getD 0) (data.drop regions.reg1Len) }

/-- One call. -/
def execute (circbuf : CircBuf) : Op → Outcome
  | .write data =>
    let written := write circbuf data
    ⟨written.1, [], written.2⟩
  | .read count =>
    let taken := read circbuf count
    ⟨taken.1, taken.2.1, taken.2.2⟩
  | .copy startIdx count =>
    let copied := copy circbuf startIdx count
    ⟨copied.1, copied.2, circbuf⟩
  | .advRead count => ⟨.success, [], advReadPtr circbuf count⟩
  | .advWrite count =>
    let advanced := advWritePtr circbuf count
    ⟨advanced.1, [], advanced.2⟩
  | .fill data => ⟨.success, [], fillRegions circbuf data⟩
  | .setLen len => ⟨.success, [], setLen circbuf len⟩
  | .reset => ⟨.success, [], reset circbuf⟩
  | .pack =>
    let packed := packBuffer circbuf
    ⟨packed.1, [], packed.2⟩

/-- The buffer after a call. -/
def next (circbuf : CircBuf) (op : Op) : CircBuf := (execute circbuf op).circbuf

/-- The calls a run may make: a length is set only to a smaller one, the caller stores no
more than the write regions hold, and the unsigned sums of the two length checks that add
counts do not wrap. -/
def InRange (circbuf : CircBuf) : Op → Prop
  | .copy startIdx count => startIdx + count < 2 ^ 32
  | .advWrite count => circbuf.len + count < 2 ^ 32
  | .fill data => data.length ≤ circbuf.capacity - circbuf.len
  | .setLen len => len ≤ circbuf.len
  | _ => True

instance (circbuf : CircBuf) : (op : Op) → Decidable (InRange circbuf op)
  | .copy startIdx count => inferInstanceAs (Decidable (startIdx + count < 2 ^ 32))
  | .advWrite count => inferInstanceAs (Decidable (circbuf.len + count < 2 ^ 32))
  | .fill data => inferInstanceAs (Decidable (data.length ≤ circbuf.capacity - circbuf.len))
  | .setLen len => inferInstanceAs (Decidable (len ≤ circbuf.len))
  | .write _ | .read _ | .advRead _ | .reset | .pack => .isTrue trivial

/-- The queue: its samples, those lying in the free slots behind them, and the distance of
its front from the left edge. -/
structure Fifo where
  items : List Sample
  spare : List Sample
  front : Nat

/-- The samples a call returns and the list it leaves, or nothing when the list is too long
or too short for it. -/
def Fifo.apply (capacity : Nat) (queue : Fifo) : Op → Option (List Sample × List Sample)
  | .write data =>
    if queue.items.length + data.length ≤ capacity then some ([], queue.items ++ data) else none
  | .read count =>
    if count ≤ queue.items.length then some (queue.items.take count, queue.items.drop count)
    else none
  | .copy startIdx count =>
    if startIdx + count ≤ queue.items.length then
      some ((queue.items.drop startIdx).take count, queue.items)
    else none
  | .advRead count => some ([], queue.items.drop count)
  | .advWrite count =>
    if queue.items.length + count ≤ capacity then
      some ([], queue.items ++ queue.spare.take count)
    else none
  | .fill _ => some ([], queue.items)
  | .setLen len => some ([], queue.items.take len)
  | .reset => some ([], [])
  | .pack =>
    if queue.items.length = capacity ∧ queue.front ≠ 0 then none else some ([], queue.items)

/-- The samples behind the list after a call that succeeds, where the queue determines
them. -/
def Fifo.spareAfter (queue : Fifo) : Op → Option (List Sample)
  | .write data => some (queue.spare.drop data.length)
  | .read count | .advRead count =>
    if count < queue.items.length then some (queue.spare ++ queue.items.take count) else none
  | .copy _ _ => some queue.spare
  | .advWrite count => some (queue.spare.drop count)
  | .fill data => some (data ++ queue.spare.drop data.length)
  | .setLen len => some (queue.items.drop len ++ queue.spare)
  | .reset | .pack => none

/-- The distance of the front from the left edge after a call that succeeds. -/
def Fifo.frontAfter (capacity : Nat) (queue : Fifo) : Op → Nat
  | .read count | .advRead count =>
    if count < queue.items.length then slot capacity queue.front count else 0
  | .reset | .pack => 0
  | _ => queue.front

/-- A step of the bounded queue. -/
def Fifo.Step (capacity : Nat) (queue : Fifo) (op : Op) (status : Status) (data : List Sample)
    (queue' : Fifo) : Prop :=
  match queue.apply capacity op with
  | none => status = .etoobig ∧ data = [] ∧ queue' = queue
  | some (out, items) =>
    status = .success ∧ data = out ∧ queue'.items = items ∧
      queue'.front = queue.frontAfter capacity op ∧
      ∀ spare, queue.spareAfter op = some spare → queue'.spare = spare

/-- The queue a buffer stands for. -/
def toFifo (circbuf : CircBuf) : Fifo :=
  ⟨contents circbuf, spare circbuf, circbuf.start⟩

variable {circbuf : CircBuf}

/-- A step of the buffer keeps it well formed, follows the queue, and changes nothing when
it fails. -/
structure Refines (circbuf : CircBuf) (op : Op) : Prop where
  wf : Wf (next circbuf op)
  capacity : (next circbuf op).capacity = circbuf.capacity
  step : (toFifo circbuf).Step circbuf.capacity op (execute circbuf op).status
    (execute circbuf op).data (toFifo (next circbuf op))
  unchanged : (execute circbuf op).status = .etoobig → next circbuf op = circbuf

variable {op : Op}

/-- A call that the queue refuses and that leaves the buffer as it is. -/
theorem refines_of_etoobig (wf : Wf circbuf)
    (refused : (toFifo circbuf).apply circbuf.capacity op = none)
    (failed : execute circbuf op = ⟨.etoobig, [], circbuf⟩) : Refines circbuf op := by
  have same : next circbuf op = circbuf := by rw [next, failed]
  refine ⟨by rwa [same], by rw [same], ?_, fun _ => same⟩
  rw [Fifo.Step, refused, failed, same]
  exact ⟨rfl, rfl, rfl⟩

variable {out : List Sample}

/-- A call that succeeds as the queue does. -/
theorem refines_of_success {items : List Sample} {after : CircBuf}
    (succeeded : execute circbuf op = ⟨.success, out, after⟩)
    (accepted : (toFifo circbuf).apply circbuf.capacity op = some (out, items)) (wf : Wf after)
    (capacity : after.capacity = circbuf.capacity) (left : contents after = items)
    (front : after.start = (toFifo circbuf).frontAfter circbuf.capacity op)
    (behind : ∀ samples, (toFifo circbuf).spareAfter op = some samples → spare after = samples) :
    Refines circbuf op := by
  have reached : next circbuf op = after := by rw [next, succeeded]
  refine ⟨by rwa [reached], by rwa [reached], ?_, ?_⟩
  · rw [Fifo.Step, accepted, succeeded, reached]
    exact ⟨rfl, rfl, left, front, behind⟩
  · intro failed
    rw [succeeded] at failed
    exact absurd failed nofun

section
variable (wf : Wf circbuf)
include wf

theorem refines_write (small : circbuf.capacity < 2 ^ 31) (data : List Sample) :
    Refines circbuf (.write data) := by
  by_cases fits : circbuf.len + data.length ≤ circbuf.capacity
  · have short : data.length < 2 ^ 31 := by omega
    have written : execute circbuf (.write data) = ⟨.success, [], (write circbuf data).2⟩ := by
      simp only [execute, write_eq wf fits short]
    have kept : (write circbuf data).2.capacity = circbuf.capacity ∧
        (write circbuf data).2.start = circbuf.start := by
      rw [write_eq wf fits short]
      exact ⟨rfl, rfl⟩
    have accepted : (toFifo circbuf).apply circbuf.capacity (.write data) =
        some ([], contents circbuf ++ data) := by
      simp only [Fifo.apply, toFifo, length_contents, if_pos fits]
    apply refines_of_success written accepted (wf_write wf fits short) kept.1
      (contents_write wf fits short) kept.2
    intro samples h
    exact (spare_write wf fits short).trans (Option.some.inj h)
  · apply refines_of_etoobig wf
    · simp only [Fifo.apply, toFifo, length_contents, if_neg fits]
    · simp only [execute, write_etoobig wf (Nat.lt_of_not_le fits)]

/-- Where the front lies after samples were dropped. -/
theorem start_advReadPtr (count : Nat) :
    (advReadPtr circbuf count).start =
      if count < circbuf.len then slot circbuf.capacity circbuf.start count else 0 := by
  by_cases some : count < circbuf.len
  · rw [advReadPtr_some wf some, if_pos some]
  · rw [advReadPtr_all (by omega), if_neg some]
    rfl

/-- Dropped samples end up behind the list, unless the buffer was emptied. -/
theorem spareAfter_advRead {count : Nat} {samples : List Sample}
    (h : (toFifo circbuf).spareAfter (.advRead count) = some samples) :
    spare (advReadPtr circbuf count) = samples := by
  simp only [Fifo.spareAfter, toFifo, length_contents] at h
  by_cases some : count < circbuf.len
  · rw [if_pos some, Option.some.injEq] at h
    rw [← h]
    exact spare_advReadPtr wf some
  · rw [if_neg some] at h
    exact absurd h nofun

/-- Dropping samples, whatever the call returns of them. -/
theorem refines_of_dropped {count : Nat}
    (dropped : execute circbuf op = ⟨.success, out, advReadPtr circbuf count⟩)
    (accepted : (toFifo circbuf).apply circbuf.capacity op =
      some (out, (contents circbuf).drop count))
    (front : (toFifo circbuf).frontAfter circbuf.capacity op =
      (toFifo circbuf).frontAfter circbuf.capacity (.advRead count))
    (behind : (toFifo circbuf).spareAfter op = (toFifo circbuf).spareAfter (.advRead count)) :
    Refines circbuf op := by
  apply refines_of_success dropped accepted (wf_advReadPtr wf count)
    (capacity_advReadPtr circbuf count) (contents_advReadPtr wf count)
  · rw [start_advReadPtr wf count, front]
    simp [Fifo.frontAfter, toFifo]
  · intro samples h
    rw [behind] at h
    exact spareAfter_advRead wf h

theorem refines_advRead (count : Nat) : Refines circbuf (.advRead count) :=
  refines_of_dropped wf rfl rfl rfl rfl

theorem refines_read (small : circbuf.capacity < 2 ^ 31) (count : Nat) :
    Refines circbuf (.read count) := by
  have bounded := wf.bounded
  by_cases enough : count ≤ circbuf.len
  · have taken : execute circbuf (.read count) =
        ⟨.success, (contents circbuf).take count, advReadPtr circbuf count⟩ := by
      simp only [execute, read_eq wf enough (by omega)]
    have accepted : (toFifo circbuf).apply circbuf.capacity (.read count) =
        some ((contents circbuf).take count, (contents circbuf).drop count) := by
      simp only [Fifo.apply, toFifo, length_contents, if_pos enough]
    exact refines_of_dropped wf taken accepted rfl rfl
  · apply refines_of_etoobig wf
    · simp only [Fifo.apply, toFifo, length_contents, if_neg enough]
    · simp only [execute, read_etoobig (Nat.lt_of_not_le enough)]

theorem refines_copy (small : circbuf.capacity < 2 ^ 31) {startIdx count : Nat}
    (bound : startIdx + count < 2 ^ 32) : Refines circbuf (.copy startIdx count) := by
  have bounded := wf.bounded
  by_cases enough : startIdx + count ≤ circbuf.len
  · have copied : execute circbuf (.copy startIdx count) =
        ⟨.success, ((contents circbuf).drop startIdx).take count, circbuf⟩ := by
      simp only [execute, copy_eq wf enough (by omega)]
    apply refines_of_success copied _ wf rfl rfl rfl
    · intro samples h
      exact Option.some.inj h
    · simp only [Fifo.apply, toFifo, length_contents, if_pos enough]
  · apply refines_of_etoobig wf
    · simp only [Fifo.apply, toFifo, length_contents, if_neg enough]
    · simp only [execute, copy_etoobig (Nat.lt_of_not_le enough) bound]

theorem refines_advWrite {count : Nat} (bound : circbuf.len + count < 2 ^ 32) :
    Refines circbuf (.advWrite count) := by
  by_cases fits : circbuf.len + count ≤ circbuf.capacity
  · have grown : execute circbuf (.advWrite count) =
        ⟨.success, [], { circbuf with len := circbuf.len + count }⟩ := by
      simp only [execute, advWritePtr_eq wf fits]
    have accepted : (toFifo circbuf).apply circbuf.capacity (.advWrite count) =
        some ([], contents circbuf ++ (spare circbuf).take count) := by
      simp only [Fifo.apply, toFifo, length_contents, if_pos fits]
    apply refines_of_success grown accepted ⟨wf.inside, fits, wf.small⟩ rfl (contents_grow fits)
      rfl
    intro samples h
    exact (spare_grow fits).trans (Option.some.inj h)
  · apply refines_of_etoobig wf
    · simp only [Fifo.apply, toFifo, length_contents, if_neg fits]
    · simp only [execute, advWritePtr_etoobig (Nat.lt_of_not_le fits) bound]

theorem refines_setLen {len : Nat} (shorter : len ≤ circbuf.len) :
    Refines circbuf (.setLen len) := by
  have bounded := wf.bounded
  have cut : execute circbuf (.setLen len) = ⟨.success, [], setLen circbuf len⟩ := rfl
  apply refines_of_success cut rfl (wf_setLen wf (by omega)) rfl (contents_setLen shorter) rfl
  intro samples h
  exact (spare_setLen wf shorter).trans (Option.some.inj h)

theorem refines_reset : Refines circbuf .reset := by
  have emptied : execute circbuf .reset = ⟨.success, [], reset circbuf⟩ := rfl
  apply refines_of_success emptied rfl (wf_reset wf) rfl rfl rfl
  intro samples h
  exact absurd h nofun

theorem refines_pack (small : circbuf.capacity < 2 ^ 31) : Refines circbuf .pack := by
  by_cases stuck : circbuf.len = circbuf.capacity ∧ circbuf.start ≠ 0
  · have failed := (packBuffer_etoobig_iff wf).mpr stuck
    apply refines_of_etoobig wf
    · simp only [Fifo.apply, toFifo, length_contents]
      exact if_pos stuck
    · simp only [execute, failed, packBuffer_etoobig failed]
  · have succeeded : (packBuffer circbuf).1 = .success := by
      cases status : (packBuffer circbuf).1 with
      | success => rfl
      | etoobig => exact absurd ((packBuffer_etoobig_iff wf).mp status) stuck
    have packed : execute circbuf .pack = ⟨.success, [], (packBuffer circbuf).2⟩ := by
      simp only [execute, succeeded]
    have ⟨edge, kept, capacity, _, packedWf⟩ := packBuffer_success wf small succeeded
    apply refines_of_success packed _ packedWf capacity kept edge
    · intro samples h
      exact absurd h nofun
    · simp only [Fifo.apply, toFifo, length_contents]
      exact if_neg stuck

section
variable {data : List Sample} (fits : data.length ≤ circbuf.capacity - circbuf.len)
include fits

/-- Storing in the write regions is storing in the free slots behind the contents. -/
theorem fillRegions_eq :
    fillRegions circbuf data =
      { circbuf with
        buf := storeWindow circbuf.capacity circbuf.buf
          (slot circbuf.capacity circbuf.start circbuf.len) data } := by
  have ⟨reg1, reg2, reg1Len⟩ := writeRegions_cases wf
  unfold fillRegions storeWindow
  simp only [reg1, reg2]
  by_cases contiguous : slot circbuf.capacity circbuf.start circbuf.len + data.length ≤
      circbuf.capacity
  · rw [if_pos contiguous, List.take_of_length_le (by omega), List.drop_of_length_le (by omega)]
    have nothing : ∀ buf : Nat → Sample, store buf 0 [] = buf := by
      intro buf
      funext cell
      exact store_outside buf (Or.inr (Nat.zero_le cell))
    rw [nothing]
  · have split : (getWriteRegions circbuf).reg1Len =
        circbuf.capacity - slot circbuf.capacity circbuf.start circbuf.len := by omega
    rw [if_neg contiguous, split]

theorem refines_fill : Refines circbuf (.fill data) := by
  have inside := wf.inside
  have bounded := wf.bounded
  have filled : execute circbuf (.fill data) = ⟨.success, [], { circbuf with
      buf := storeWindow circbuf.capacity circbuf.buf
        (slot circbuf.capacity circbuf.start circbuf.len) data }⟩ := by
    simp only [execute, fillRegions_eq wf fits]
  apply refines_of_success filled rfl ⟨inside, bounded, wf.small⟩ rfl _ rfl
  · intro samples h
    have stored : spare { circbuf with
        buf := storeWindow circbuf.capacity circbuf.buf
          (slot circbuf.capacity circbuf.start circbuf.len) data } =
        data ++ (spare circbuf).drop data.length :=
      window_overwrite _ (slot_lt (by omega)) fits (Nat.sub_le ..)
    exact stored.trans (Option.some.inj h)
  · have room : circbuf.len + data.length ≤ circbuf.capacity := by omega
    exact window_storeWindow_before _ inside room

end

end

/-- Every call in range refines the queue. -/
theorem refines (wf : Wf circbuf) (small : circbuf.capacity < 2 ^ 31)
    (inRange : InRange circbuf op) : Refines circbuf op := by
  cases op with
  | write data => exact refines_write wf small data
  | read count => exact refines_read wf small count
  | copy startIdx count => exact refines_copy wf small inRange
  | advRead count => exact refines_advRead wf count
  | advWrite count => exact refines_advWrite wf inRange
  | fill data => exact refines_fill wf inRange
  | setLen len => exact refines_setLen wf inRange
  | reset => exact refines_reset wf
  | pack => exact refines_pack wf small

/-- Runs keep the buffer well formed and its capacity as it was. -/
theorem wf_run {capacity : Nat} (positive : 0 < capacity) (small : capacity < 2 ^ 31)
    {ops : List Op} (inRange : Run.Meets next InRange (create capacity) ops) :
    Wf (ops.foldl next (create capacity)) ∧
      (ops.foldl next (create capacity)).capacity = capacity := by
  have kept : ∀ circbuf op, Wf circbuf ∧ circbuf.capacity = capacity → InRange circbuf op →
      Wf (next circbuf op) ∧ (next circbuf op).capacity = capacity := by
    rintro circbuf op ⟨wf, same⟩ met
    have refined := refines wf (by omega) met
    exact ⟨refined.wf, refined.capacity.trans same⟩
  exact (Run.always kept ⟨wf_create positive (by omega), rfl⟩ inRange).last

/-- After every run of calls in range, each further call is a step of the bounded queue of
the same capacity, and changes nothing if it fails. The read pointer stays inside the
buffer, and a packed buffer holds its samples from the left edge on. Packing fails exactly
when the buffer is full and its front does not lie at the left edge. -/
theorem circBuf_refines_fifo {capacity : Nat} (positive : 0 < capacity)
    (small : capacity < 2 ^ 31) (ops : List Op) (op : Op)
    (inRange : Run.Meets next InRange (create capacity) (ops ++ [op])) :
    let circbuf := ops.foldl next (create capacity)
    let outcome := execute circbuf op
    (toFifo circbuf).Step capacity op outcome.status outcome.data (toFifo outcome.circbuf) ∧
      outcome.circbuf.start < capacity ∧
      (outcome.status = .etoobig → outcome.circbuf = circbuf) ∧
      (op = .pack → outcome.status = .success →
        span outcome.circbuf.buf 0 outcome.circbuf.len = contents circbuf) := by
  intro circbuf outcome
  have met := Run.meets_append.mp inRange
  have ⟨wf, same⟩ := wf_run positive small met.1
  have refined := refines wf (by omega) met.2.1
  have step := refined.step
  rw [same] at step
  have inside := refined.wf.inside
  rw [refined.capacity, same] at inside
  refine ⟨step, inside, refined.unchanged, ?_⟩
  intro packing succeeded
  subst packing
  have ⟨edge, kept, _, _, packed⟩ := packBuffer_success wf (by omega) succeeded
  have bounded := packed.bounded
  rw [← kept, contents, edge, window_of_fits _ (by omega)]
  rfl

/-- A run that writes, reads over the wrap and packs. -/
theorem circBuf_refines_fifo_packed :
    let circbuf := [Op.write [1, 2, 3], .read 2, .write [4, 5]].foldl next (create 4)
    let outcome := execute circbuf .pack
    (toFifo circbuf).Step 4 .pack outcome.status outcome.data (toFifo outcome.circbuf) ∧
      outcome.circbuf.start < 4 ∧
      (outcome.status = .etoobig → outcome.circbuf = circbuf) ∧
      (Op.pack = .pack → outcome.status = .success →
        span outcome.circbuf.buf 0 outcome.circbuf.len = contents circbuf) :=
  circBuf_refines_fifo (by decide) (by decide) [.write [1, 2, 3], .read 2, .write [4, 5]] .pack
    (by decide)

/-- A write of 2^31 samples stores none of them: the byte count of the copy wraps to 0. -/
theorem write_wraps {data : List Sample} (long : data.length = 2 ^ 31) :
    (write (create (2 ^ 31)) data).1 = .success ∧
      (contents (write (create (2 ^ 31)) data).2).head? = some 0 := by
  have regions : getWriteRegions (create (2 ^ 31)) = ⟨0, 2 ^ 31, none, 0⟩ := by decide
  have copied : copiedCount (2 ^ 31) = 0 := by decide
  have stored : storeSamples (create (2 ^ 31)).buf 0 data (2 ^ 31) = (create (2 ^ 31)).buf := by
    funext cell
    exact store_outside _ (Or.inr (Nat.zero_le cell))
  have written : write (create (2 ^ 31)) data =
      (.success, { create (2 ^ 31) with len := 2 ^ 31 }) := by
    have room : ¬u32 (((create (2 ^ 31)).capacity : Int) - (create (2 ^ 31)).len) < 2 ^ 31 := by
      decide
    have fits : ¬(create (2 ^ 31)).capacity <
        u32 (((2 ^ 31 : Nat) : Int) + (create (2 ^ 31)).len) := by decide
    have len : u32 (((create (2 ^ 31)).len : Int) + (2 ^ 31 : Nat)) = 2 ^ 31 := by decide
    unfold write advWritePtr
    simp only [long, regions, le_refl, if_true, stored]
    rw [if_neg room, if_neg fits, len]
  rw [written]
  exact ⟨rfl, List.head?_eq_getElem?.trans (getElem?_window _ _ (by decide))⟩

/-- Two full buffers of one capacity hold the same samples, yet only the one that starts at
the left edge can be packed. A copy and an advance whose sums wrap succeed although the
buffer has no such samples and no such room, and 2^31 samples are written without being
stored. -/
theorem packBuffer_etoobig_wrapped :
    (let wrapped := [Op.write [1, 2], .read 1, .write [3]].foldl next (create 2)
      let straight := [Op.write [2, 3]].foldl next (create 2)
      (contents wrapped = contents straight ∧ (execute wrapped .pack).status = .etoobig ∧
          (execute straight .pack).status = .success) ∧
        (execute straight (.copy (2 ^ 32 - 1) 2)).status = .success ∧
        (execute straight (.advWrite (2 ^ 32 - 1))).status = .success) ∧
      (write (create (2 ^ 31)) (List.replicate (2 ^ 31) 1)).1 = .success ∧
      (contents (write (create (2 ^ 31)) (List.replicate (2 ^ 31) 1)).2).head? = some 0 :=
  ⟨by decide, write_wraps List.length_replicate⟩

end Pjmedia.Circbuf
