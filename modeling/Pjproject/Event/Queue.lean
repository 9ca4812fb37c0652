import Pjproject.Event.Manager

/-!
# What waits in an event queue

The events from the head of the ring on, in the order they were added.
-/

namespace Pjmedia.Event
open Pjnath.Stun

namespace EventQueue

variable {α : Type} {queue : EventQueue α} {event : MediaEvent α} {later : List (MediaEvent α)}

/-- The number of events in a queue. -/
def size (queue : EventQueue α) : Nat :=
  if queue.isFull then maxEvents else (queue.tail + maxEvents - queue.head) % maxEvents

/-- The events in a queue. -/
def waiting (queue : EventQueue α) : List (MediaEvent α) :=
  Circular.window maxEvents queue.events queue.head queue.size

/-- The indices of a queue are in the ring, and meet in one that is full. -/
structure Proper (queue : EventQueue α) : Prop where
  head : queue.head < maxEvents
  tail : queue.tail < maxEvents
  full : queue.isFull = true → queue.tail = queue.head

theorem length_waiting (queue : EventQueue α) : queue.waiting.length = queue.size :=
  Circular.length_window ..

/-- The indices of a queue that was set up. -/
theorem proper_of_zero (head : queue.head = 0) (tail : queue.tail = 0) : queue.Proper where
  head := by
    rw [head]
    decide
  tail := by
    rw [tail]
    decide
  full _ := tail.trans head.symm

theorem waiting_of_zero (head : queue.head = 0) (tail : queue.tail = 0) (room : queue.isFull = false) :
    queue.waiting = [] := by
  apply List.eq_nil_of_length_eq_zero
  rw [length_waiting, size, head, tail, room]
  decide

theorem size_le : queue.size ≤ maxEvents := by
  unfold size
  split
  · exact le_rfl
  · exact Nat.le_of_lt (Nat.mod_lt _ (by decide))

/-- The place behind the last event. -/
theorem Proper.tail_eq (proper : queue.Proper) :
    queue.tail = Circular.slot maxEvents queue.head queue.size := by
  have inside := proper.head
  have inside' := proper.tail
  unfold size Circular.slot
  split
  · rename_i full
    rw [Nat.add_mod_right, Nat.mod_eq_of_lt inside]
    exact proper.full full
  · unfold maxEvents at *
    omega

/-- A queue with room takes an event behind the others. -/
theorem Proper.addEvent (proper : queue.Proper) (room : queue.isFull = false) :
    (queue.addEvent event).2 = pjSuccess ∧ (queue.addEvent event).1.Proper ∧
      (queue.addEvent event).1.head = queue.head ∧
      (queue.addEvent event).1.waiting = queue.waiting ++ [event] := by
  have inside := proper.head
  have inside' := proper.tail
  have place := proper.tail_eq
  have small : queue.size < maxEvents := by
    rw [size, if_neg (by simp [room])]
    exact Nat.mod_lt _ (by decide)
  have added : queue.addEvent event =
      (⟨Function.update queue.events queue.tail event, queue.head, (queue.tail + 1) % maxEvents,
        decide ((queue.tail + 1) % maxEvents = queue.head)⟩, pjSuccess) := by
    rw [EventQueue.addEvent, if_neg (by simp [room])]
  have larger : (queue.addEvent event).1.size = queue.size + 1 := by
    rw [added]
    simp only [size, room, Bool.false_eq_true, if_false, decide_eq_true_eq]
    unfold maxEvents at *
    split <;> omega
  refine ⟨congrArg Prod.snd added, ?_, congrArg (·.1.head) added, ?_⟩
  · rw [added]
    exact ⟨inside, Nat.mod_lt _ (by decide), of_decide_eq_true⟩
  · rw [waiting, larger, added, Circular.window_add, waiting]
    congr 1
    · rw [place]
      exact Circular.window_update_outside _ _ le_rfl small
    · rw [← place, Circular.window_one _ inside']
      exact congrArg (fun found => [found]) (Function.update_self ..)

/-- Whether the publication goes on is whether an event waits. -/
theorem Proper.more_iff (proper : queue.Proper) :
    (queue.head ≠ queue.tail ∨ queue.isFull = true) ↔ queue.waiting ≠ [] := by
  have inside := proper.head
  have inside' := proper.tail
  have same : queue.waiting ≠ [] ↔ queue.size ≠ 0 := by
    rw [← length_waiting, ne_eq, ne_eq, List.length_eq_zero_iff]
  rw [same]
  unfold size
  by_cases full : queue.isFull = true
  · rw [if_pos full]
    exact iff_of_true (.inr full) (by decide)
  · rw [if_neg full, or_iff_left full]
    unfold maxEvents at *
    omega

/-- The event in front. -/
theorem front_of_waiting (waits : queue.waiting = event :: later) :
    queue.size = later.length + 1 ∧
      event :: later = Circular.window maxEvents queue.events queue.head (1 + later.length) := by
  have size : queue.size = later.length + 1 := by
    rw [← length_waiting, waits]
    rfl
  constructor
  · exact size
  · rw [← waits, waiting, size, Nat.add_comm]

theorem Proper.front (proper : queue.Proper) (waits : queue.waiting = event :: later) :
    queue.events queue.head = event := by
  have window := (front_of_waiting waits).2
  rw [Circular.window_add, Circular.window_one _ proper.head] at window
  exact (List.cons.inj window).1.symm

/-- The event in front leaves. -/
theorem Proper.pop (proper : queue.Proper) (waits : queue.waiting = event :: later) :
    queue.pop.Proper ∧ queue.pop.waiting = later := by
  have inside := proper.head
  have inside' := proper.tail
  have ⟨large, window⟩ := front_of_waiting waits
  have fits := queue.size_le
  have smaller : queue.pop.size = later.length := by
    have counted : queue.size = later.length + 1 := large
    have full := proper.full
    simp only [EventQueue.pop, size, Bool.false_eq_true, if_false] at counted ⊢
    unfold maxEvents at *
    by_cases isFull : queue.isFull = true
    · have meets := full isFull
      rw [if_pos isFull] at counted
      omega
    · rw [if_neg isFull] at counted
      omega
  constructor
  · constructor
    · exact Nat.mod_lt _ (by decide)
    · exact inside'
    · intro full
      cases full
  · rw [Circular.window_add, Circular.window_one _ inside] at window
    rw [waiting, smaller]
    exact (List.cons.inj window).2.symm

end EventQueue
end Pjmedia.Event
