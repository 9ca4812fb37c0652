import Mathlib.Data.Prod.Lex
import Pjproject.Lib.BinaryHeap

/-!
# Timer heap

The timer heap of `timer.c`. An entry is known by its address, and the fields of the entries are
part of the state. An array is what is at its indices below `max_size`; an access at or beyond
`max_size`, or a read of a place of `heap` that was never written, has no result. The arrays are
in memory, so that their sizes do not wrap. Group locks and the delay until the next expiry, which
no other function reads, are left out.
-/

namespace Pj
open Function

/-- `pj_time_val`. -/
structure TimeVal where
  sec : Int
  msec : Int
deriving DecidableEq, Repr

/-- `PJ_TIME_VAL_GT`. -/
def pjTimeValGt (t1 t2 : TimeVal) : Bool := t1.sec > t2.sec || t1.sec = t2.sec && t1.msec > t2.msec

/-- `PJ_TIME_VAL_EQ`. -/
def pjTimeValEq (t1 t2 : TimeVal) : Bool := t1.sec = t2.sec && t1.msec = t2.msec

/-- `PJ_TIME_VAL_GTE`. -/
def pjTimeValGte (t1 t2 : TimeVal) : Bool := pjTimeValGt t1 t2 || pjTimeValEq t1 t2

/-- `PJ_TIME_VAL_LT`. -/
def pjTimeValLt (t1 t2 : TimeVal) : Bool := !pjTimeValGte t1 t2

/-- `PJ_TIME_VAL_LTE`. -/
def pjTimeValLte (t1 t2 : TimeVal) : Bool := !pjTimeValGt t1 t2

/-- Times are ordered by the seconds first. -/
instance : LinearOrder TimeVal :=
  LinearOrder.lift' (fun t => toLex (t.sec, t.msec)) fun left right same => by
    have parts := toLex.injective same
    cases left
    cases right
    simpa using parts

section
variable (t1 t2 : TimeVal)
include t1 t2

theorem timeVal_lt_iff : t1 < t2 ↔ t1.sec < t2.sec ∨ t1.sec = t2.sec ∧ t1.msec < t2.msec :=
  Prod.Lex.toLex_lt_toLex

theorem pjTimeValGt_iff : pjTimeValGt t1 t2 = true ↔ t2 < t1 := by
  rw [timeVal_lt_iff]
  simp only [pjTimeValGt, Bool.or_eq_true, Bool.and_eq_true, decide_eq_true_eq]
  omega

theorem pjTimeValGte_iff : pjTimeValGte t1 t2 = true ↔ t2 ≤ t1 := by
  have equal : pjTimeValEq t1 t2 = true ↔ t1 = t2 := by
    cases t1
    cases t2
    simp [pjTimeValEq]
  rw [pjTimeValGte, Bool.or_eq_true, pjTimeValGt_iff, equal, le_iff_lt_or_eq, eq_comm (a := t1)]

@[simp] theorem pjTimeValLt_iff : pjTimeValLt t1 t2 = true ↔ t1 < t2 := by
  rw [pjTimeValLt, Bool.not_eq_true', ← Bool.not_eq_true, pjTimeValGte_iff, not_le]

@[simp] theorem pjTimeValLte_iff : pjTimeValLte t1 t2 = true ↔ t1 ≤ t2 := by
  rw [pjTimeValLte, Bool.not_eq_true', ← Bool.not_eq_true, pjTimeValGt_iff, not_lt]

end

/-- `pj_timer_heap_t`, and the fields of the timer entries. -/
structure TimerHeap (ε : Type) where
  maxSize : Nat
  curSize : Nat
  maxEntriesPerPoll : Nat
  heap : Nat → Option ε
  timerIds : Nat → Int
  timerIdsFreelist : Int
  /-- `_timer_id`. -/
  timerId : ε → Int
  /-- `_timer_value`. -/
  timerValue : ε → TimeVal

namespace Timer
open BinaryHeap

variable {ε : Type} [DecidableEq ε]

/-- `HEAP_PARENT`. -/
def heapParent (slot : Nat) : Nat := if slot = 0 then 0 else (slot - 1) / 2

/-- `HEAP_LEFT`. -/
def heapLeft (slot : Nat) : Nat := slot + slot + 1

/-- An element of `heap`. -/
def heapAt (ht : TimerHeap ε) (slot : Nat) : Option ε :=
  if slot < ht.maxSize then ht.heap slot else none

/-- An element of `timer_ids`. -/
def timerIdAt (ht : TimerHeap ε) (id : Int) : Option Int :=
  if 0 ≤ id ∧ id < ht.maxSize then some (ht.timerIds id.toNat) else none

/-- A write to `timer_ids`. -/
def setTimerId (ht : TimerHeap ε) (id value : Int) : Option (TimerHeap ε) :=
  if 0 ≤ id ∧ id < ht.maxSize then
    some { ht with timerIds := update ht.timerIds id.toNat value }
  else none

/-- `copy_node`. -/
def copyNode (ht : TimerHeap ε) (slot : Nat) (movedNode : ε) : Option (TimerHeap ε) :=
  if slot < ht.maxSize then
    setTimerId { ht with heap := update ht.heap slot (some movedNode) }
      (ht.timerId movedNode) slot
  else none

/-- `pop_freelist`. -/
def popFreelist (ht : TimerHeap ε) : Option (Int × TimerHeap ε) := do
  let newId := ht.timerIdsFreelist
  let next ← timerIdAt ht newId
  return (newId, { ht with timerIdsFreelist := -next })

/-- `push_freelist`. -/
def pushFreelist (ht : TimerHeap ε) (oldId : Int) : Option (TimerHeap ε) := do
  let ht ← setTimerId ht oldId (-ht.timerIdsFreelist)
  return { ht with timerIdsFreelist := oldId }

/-- The smaller one of two children, in `reheap_down`. -/
def smallerChild (ht : TimerHeap ε) (child : Nat) : Option Nat :=
  if child + 1 < ht.curSize then do
    let second ← heapAt ht (child + 1)
    let first ← heapAt ht child
    return if pjTimeValLt (ht.timerValue second) (ht.timerValue first) then child + 1 else child
  else some child

/-- `reheap_down`. A turn moves down one level, so the size of the heap is enough fuel. -/
def reheapDown (movedNode : ε) : Nat → TimerHeap ε → Nat → Nat → Option (TimerHeap ε)
  | 0, _, _, _ => none
  | fuel + 1, ht, slot, child =>
    if child < ht.curSize then do
      let child ← smallerChild ht child
      let smaller ← heapAt ht child
      if pjTimeValLt (ht.timerValue smaller) (ht.timerValue movedNode) then do
        let ht ← copyNode ht slot smaller
        reheapDown movedNode fuel ht child (heapLeft child)
      else copyNode ht slot movedNode
    else copyNode ht slot movedNode

/-- `reheap_up`. A turn moves up one level, so the slot is enough fuel. -/
def reheapUp (movedNode : ε) : Nat → TimerHeap ε → Nat → Nat → Option (TimerHeap ε)
  | 0, _, _, _ => none
  | fuel + 1, ht, slot, parent =>
    if 0 < slot then do
      let above ← heapAt ht parent
      if pjTimeValLt (ht.timerValue movedNode) (ht.timerValue above) then do
        let ht ← copyNode ht slot above
        reheapUp movedNode fuel ht parent (heapParent parent)
      else copyNode ht slot movedNode
    else copyNode ht slot movedNode

/-- The end of `remove_node`, which puts the last entry at the slot that is free. -/
def refill (ht : TimerHeap ε) (slot : Nat) : Option (TimerHeap ε) :=
  if slot < ht.curSize then do
    let movedNode ← heapAt ht ht.curSize
    let ht ← copyNode ht slot movedNode
    let parent := heapParent slot
    let above ← heapAt ht parent
    if pjTimeValGte (ht.timerValue movedNode) (ht.timerValue above) then
      reheapDown movedNode (ht.curSize + 1) ht slot (heapLeft slot)
    else reheapUp movedNode (slot + 1) ht slot parent
  else some ht

/-- `remove_node`. -/
def removeNode (ht : TimerHeap ε) (slot : Nat) : Option (ε × TimerHeap ε) := do
  let removedNode ← heapAt ht slot
  let ht ← pushFreelist ht (ht.timerId removedNode)
  let ht ← refill { ht with
    curSize := ht.curSize - 1, timerId := update ht.timerId removedNode (-1) } slot
  return (removedNode, ht)

/-- `grow_heap`. -/
def growHeap (ht : TimerHeap ε) : TimerHeap ε :=
  { ht with
    maxSize := ht.maxSize * 2
    timerIds := fun i =>
      if ht.maxSize ≤ i ∧ i < ht.maxSize * 2 then -((i : Int) + 1) else ht.timerIds i }

/-- `insert_node`. -/
def insertNode (ht : TimerHeap ε) (newNode : ε) : Option (TimerHeap ε) := do
  let ht := if ht.maxSize ≤ ht.curSize + 2 then growHeap ht else ht
  let ht ← reheapUp newNode (ht.curSize + 1) ht ht.curSize (heapParent ht.curSize)
  return { ht with curSize := ht.curSize + 1 }

/-- What `pj_timer_heap_schedule` returns: `PJ_SUCCESS`, `PJ_EINVALIDOP` or `-1`. -/
inductive ScheduleStatus
  | success
  | einvalidop
  | full
deriving DecidableEq, Repr

/-- `schedule_entry`. -/
def scheduleEntry (ht : TimerHeap ε) (entry : ε) (futureTime : TimeVal) :
    Option (ScheduleStatus × TimerHeap ε) :=
  if ht.curSize < ht.maxSize then do
    let (newId, ht) ← popFreelist ht
    let ht := { ht with
      timerId := update ht.timerId entry newId
      timerValue := update ht.timerValue entry futureTime }
    let ht ← insertNode ht entry
    return (.success, ht)
  else some (.full, ht)

/-- `pj_timer_heap_schedule`, with the time at which the delay expires. -/
def pjTimerHeapSchedule (ht : TimerHeap ε) (entry : ε) (expires : TimeVal) :
    Option (ScheduleStatus × TimerHeap ε) :=
  if ht.timerId entry < 1 then scheduleEntry ht entry expires else some (.einvalidop, ht)

/-- `cancel`, and `pj_timer_heap_cancel`, which adds nothing to it here. -/
def pjTimerHeapCancel (ht : TimerHeap ε) (entry : ε) : Option (Nat × TimerHeap ε) :=
  let gone := { ht with timerId := update ht.timerId entry (-1) }
  if ht.timerId entry < 0 ∨ ht.timerId entry > ht.maxSize then some (0, gone)
  else do
    let timerNodeSlot ← timerIdAt ht (ht.timerId entry)
    if timerNodeSlot < 0 then some (0, gone)
    else
      let there ← heapAt ht timerNodeSlot.toNat
      if entry ≠ there then some (0, gone)
      else
        let (_, ht) ← removeNode ht timerNodeSlot.toNat
        return (1, ht)

/-- `DEFAULT_MAX_TIMED_OUT_PER_POLL`. -/
def defaultMaxTimedOutPerPoll : Nat := 64

/-- `pj_timer_heap_create`, with all entries as `pj_timer_entry_init` leaves them. What the pool
gives for `heap` is not initialized. -/
def pjTimerHeapCreate (ε : Type) (size : Nat) : TimerHeap ε :=
  { maxSize := size + 2, curSize := 0, maxEntriesPerPoll := defaultMaxTimedOutPerPoll
    heap := fun _ => none, timerIds := fun i => -((i : Int) + 1), timerIdsFreelist := 1
    timerId := fun _ => -1, timerValue := fun _ => { sec := 0, msec := 0 } }

/-- `pj_timer_heap_set_max_timed_out_per_poll`. -/
def pjTimerHeapSetMaxTimedOutPerPoll (ht : TimerHeap ε) (count : Nat) : TimerHeap ε :=
  { ht with maxEntriesPerPoll := count }

/-- `pj_timer_heap_count`. -/
def pjTimerHeapCount (ht : TimerHeap ε) : Nat := ht.curSize

/-- The condition of the loop in `pj_timer_heap_poll`. -/
def due (ht : TimerHeap ε) (now : TimeVal) (count : Nat) : Option Bool :=
  if ht.curSize = 0 then some false
  else do
    let first ← heapAt ht 0
    return pjTimeValLte (ht.timerValue first) now && count < ht.maxEntriesPerPoll

/-- A turn of that loop up to the callback: the entry, and the id that is held back. -/
def takeFirst (ht : TimerHeap ε) : Option (ε × Int × TimerHeap ε) := do
  let (node, ht) ← removeNode ht 0
  let (nodeTimerId, ht) ← popFreelist ht
  return (node, nodeTimerId, ht)

end Timer

end Pj
