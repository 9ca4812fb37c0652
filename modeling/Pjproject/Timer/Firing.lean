import Pjproject.Lib.Agenda
import Pjproject.Timer.Nested

/-!
# The timers that fire

The timer heap as an agenda. Schedules, cancels and whole polls, whose callbacks leave the heap
alone, are events of the agenda of the entries with an id. No id is held back between such calls,
so that there is always a free one.
-/

namespace Pj.Timer
open Option Function BinaryHeap

variable {ε : Type} [DecidableEq ε] {ht : TimerHeap ε} {slots : Nat → ε} {free : List Nat}

/-- The loop of `pj_timer_heap_poll`, which calls the entries back in this order. A turn removes
one entry, so the size of the heap and one more is enough fuel. -/
def pollFrom (now : TimeVal) : Nat → Nat → TimerHeap ε → Option (List ε × TimerHeap ε)
  | 0, _, _ => none
  | fuel + 1, count, ht => do
    if ← due ht now count then
      let (node, nodeTimerId, ht) ← takeFirst ht
      let ht ← pushFreelist ht nodeTimerId
      let (fired, ht) ← pollFrom now fuel (count + 1) ht
      return (node :: fired, ht)
    else return ([], ht)

/-- `pj_timer_heap_poll` at a time, with callbacks that leave the heap alone. It returns the number
of the entries. -/
def pjTimerHeapPoll (ht : TimerHeap ε) (now : TimeVal) : Option (List ε × TimerHeap ε) :=
  pollFrom now (ht.curSize + 1) 0 ht

/-- The calls. -/
inductive Call (ε : Type)
  | schedule (entry : ε) (expires : TimeVal)
  | cancel (entry : ε)
  | poll (now : TimeVal)

/-- A call, with what is seen of it. -/
def call (ht : TimerHeap ε) : Call ε → Option (Agenda.Event ε TimeVal × TimerHeap ε)
  | .schedule entry expires => do
    let (status, ht) ← pjTimerHeapSchedule ht entry expires
    return (.scheduled entry expires (status = .success), ht)
  | .cancel entry => do
    let (count, ht) ← pjTimerHeapCancel ht entry
    return (.cancelled entry count, ht)
  | .poll now => do
    let (fired, ht) ← pjTimerHeapPoll ht now
    return (.polled now fired, ht)

/-- A run of calls. -/
def calls (ht : TimerHeap ε) : List (Call ε) → Option (List (Agenda.Event ε TimeVal) × TimerHeap ε)
  | [] => some ([], ht)
  | first :: rest => do
    let (event, ht) ← call ht first
    let (events, ht) ← calls ht rest
    return (event :: events, ht)

/-- The entries with an id, and when they expire. -/
def pending (ht : TimerHeap ε) (entry : ε) : Option TimeVal :=
  if 0 < ht.timerId entry then some (ht.timerValue entry) else none

/-! ## The agenda -/

variable {ht' : TimerHeap ε}

variable {held : List Nat}

omit [DecidableEq ε] in
theorem Rep.pending_queued (h : Rep ht slots held free) {i : Nat} (bound : i < ht.curSize) :
    pending ht (slots i) = some (ht.timerValue (slots i)) :=
  if_pos (h.running i bound)

omit [DecidableEq ε] in
theorem Rep.pending_absent (h : Rep ht slots held free) {entry : ε}
    (absent : ∀ i < ht.curSize, slots i ≠ entry) : pending ht entry = none := by
  rw [pending, h.stopped entry absent]
  rfl

/-- What the agenda has is in the heap. -/
theorem Rep.pending_some (h : Rep ht slots held free) {entry : ε} {time : TimeVal}
    (scheduled : pending ht entry = some time) :
    ∃ i < ht.curSize, slots i = entry ∧ ht.timerValue (slots i) = time := by
  by_cases queued : ∃ i < ht.curSize, slots i = entry
  · obtain ⟨i, bound, rfl⟩ := queued
    exact ⟨i, bound, rfl, some.inj ((h.pending_queued bound).symm.trans scheduled)⟩
  · rw [h.pending_absent fun i bound same => queued ⟨i, bound, same⟩] at scheduled
    contradiction

/-- An entry that loses its id leaves the agenda. -/
theorem pending_released {entry : ε} (ids : ht'.timerId = update ht.timerId entry (-1))
    (values : ht'.timerValue = ht.timerValue) :
    pending ht' = update (pending ht) entry none := by
  funext other
  rw [pending, ids, values]
  by_cases same : other = entry
  · rw [same, update_self, update_self]
    rfl
  · rw [update_of_ne same, update_of_ne same]
    rfl

/-- An entry that gets an id enters it. -/
theorem pending_scheduled {entry : ε} {id : Nat} {time : TimeVal} (positive : 0 < id)
    (h : Scheduled ht ht' entry id time) :
    pending ht' = update (pending ht) entry (some time) := by
  funext other
  rw [pending, h.timerId, h.timerValue]
  by_cases same : other = entry
  · rw [same, update_self, update_self, update_self]
    exact if_pos (Int.natCast_pos.mpr positive)
  · rw [update_of_ne same, update_of_ne same, update_of_ne same]
    rfl

/-- The entries of the agenda are as many as the heap counts. -/
theorem Rep.pending_count (h : Rep ht slots held free) :
    ∃ queue : List ε, queue.Nodup ∧ queue.length = pjTimerHeapCount ht ∧
      ∀ entry, entry ∈ queue ↔ (pending ht entry).isSome := by
  refine ⟨(List.range ht.curSize).map slots, ?_, ?_, fun entry => ?_⟩
  · refine List.Nodup.map_on (fun i bound j bound' same => ?_) List.nodup_range
    have ids : index ht (slots i) = index ht (slots j) := congrArg (index ht) same
    exact h.inj (List.mem_range.mp bound) (List.mem_range.mp bound') ids
  · rw [List.length_map, List.length_range]
    rfl
  · rw [List.mem_map, isSome_iff_exists]
    constructor
    · rintro ⟨i, bound, rfl⟩
      exact ⟨_, h.pending_queued (List.mem_range.mp bound)⟩
    · rintro ⟨time, scheduled⟩
      have ⟨i, bound, same, _⟩ := h.pending_some scheduled
      exact ⟨i, List.mem_range.mpr bound, same⟩

/-! ## Calls -/

/-- What a call makes of a heap that holds nothing back. -/
def Meets (ht : TimerHeap ε) (event : Agenda.Event ε TimeVal) (ht' : TimerHeap ε) : Prop :=
  (∃ slots free, Rep ht' slots [] free) ∧ ht'.maxEntriesPerPoll = ht.maxEntriesPerPoll ∧
    Agenda.Step ht.maxEntriesPerPoll (pending ht) event (pending ht')

/-- An entry is scheduled unless it already is. -/
theorem Rep.call_schedule (h : Rep ht slots [] free) (entry : ε) (expires : TimeVal) :
    ∃ event ht', call ht (.schedule entry expires) = some (event, ht') ∧ Meets ht event ht' := by
  have room := h.room
  have count := h.count
  by_cases queued : ∃ i < ht.curSize, slots i = entry
  · obtain ⟨i, bound, rfl⟩ := queued
    have running := h.running i bound
    have scheduled := h.pending_queued bound
    refine ⟨.scheduled (slots i) expires false, ht, ?_, ⟨slots, free, h⟩, rfl, ?_, ?_⟩
    · rw [call, pjTimerHeapSchedule, if_neg (by omega)]
      rfl
    · rw [scheduled]
      rfl
    · rw [scheduled]
      rfl
  · have absent : ∀ i < ht.curSize, slots i ≠ entry :=
      fun i bound same => queued ⟨i, bound, same⟩
    have stopped := h.stopped entry absent
    have idle := h.pending_absent absent
    cases free with
    | nil =>
      simp only [List.length_nil] at count
      omega
    | cons id rest =>
      obtain ⟨slots', ht', free', result, rep, made⟩ := h.scheduleEntry_eq absent expires
      have range := h.id_range (by simp : id ∈ queuedIds ht slots ++ ([] ++ id :: rest))
      refine ⟨.scheduled entry expires true, ht', ?_, ⟨slots', free', rep⟩,
        made.maxEntriesPerPoll, ?_, ?_⟩
      · rw [call, pjTimerHeapSchedule, if_pos (by omega), result]
        rfl
      · rw [idle]
        rfl
      · rw [idle, if_pos isNone_none]
        exact pending_scheduled range.1 made

/-- An entry is cancelled if it is scheduled. -/
theorem Rep.call_cancel (h : Rep ht slots [] free) (entry : ε) :
    ∃ event ht', call ht (.cancel entry) = some (event, ht') ∧ Meets ht event ht' := by
  by_cases queued : ∃ i < ht.curSize, slots i = entry
  · obtain ⟨i, bound, rfl⟩ := queued
    have ⟨slots', heap, timerIds, result, rep⟩ := h.cancel_queued bound
    refine ⟨.cancelled (slots i) 1, _, ?_, ⟨slots', _, rep⟩, rfl, ?_, ?_⟩
    · rw [call, result]
      rfl
    · rw [h.pending_queued bound]
      rfl
    · exact pending_released rfl rfl
  · have absent : ∀ i < ht.curSize, slots i ≠ entry :=
      fun i bound same => queued ⟨i, bound, same⟩
    have idle := h.pending_absent absent
    refine ⟨.cancelled entry 0, ht, ?_, ⟨slots, free, h⟩, rfl, ?_, ?_⟩
    · rw [call, h.cancel_absent absent]
      rfl
    · rw [idle]
      rfl
    · rw [← idle, update_eq_self]

/-- The first entry is taken, and its id is free after its callback. -/
theorem Rep.fire_eq (h : Rep ht slots [] free) (queued : 0 < ht.curSize) :
    ∃ slots' ht₁ ht₂ free', takeFirst ht = some (slots 0, (index ht (slots 0) : Int), ht₁) ∧
      pushFreelist ht₁ (index ht (slots 0)) = some ht₂ ∧ Rep ht₂ slots' [] free' ∧
      ht₂.curSize = ht.curSize - 1 ∧ ht₂.maxEntriesPerPoll = ht.maxEntriesPerPoll ∧
      pending ht₂ = update (pending ht) (slots 0) none := by
  have ⟨slots', ht₁, taken, rep, size, limit, ids, values⟩ := h.takeFirst_eq queued
  have ⟨ht₂, pushed, rep', fields⟩ := rep.push
  refine ⟨slots', ht₁, ht₂, _, taken, pushed, rep', ?_, ?_, ?_⟩
  · rw [fields]
    exact size
  · rw [fields]
    exact limit
  · rw [fields]
    exact pending_released ids values

/-- A poll fires the entries that are due, up to the limit. -/
theorem Rep.pollFrom_eq (now : TimeVal) (fuel count : Nat) (h : Rep ht slots [] free)
    (enough : ht.curSize < fuel) :
    ∃ fired ht', pollFrom now fuel count ht = some (fired, ht') ∧
      (∃ slots' free', Rep ht' slots' [] free') ∧
      ht'.maxEntriesPerPoll = ht.maxEntriesPerPoll ∧
      Agenda.Fires (ht.maxEntriesPerPoll - count) now (pending ht) (pending ht') fired := by
  induction fuel generalizing ht slots free count with
  | zero => exact absurd enough (Nat.not_lt_zero _)
  | succ fuel ih =>
    rw [pollFrom, h.due_eq, bind_eq_bind, bind_some]
    by_cases goesOn : 0 < ht.curSize ∧ ht.timerValue (slots 0) ≤ now ∧
        count < ht.maxEntriesPerPoll
    · have ⟨queued, isDue, more⟩ := goesOn
      have ⟨slots₁, ht₁, ht₂, free₁, taken, pushed, rep, size, limit, released⟩ :=
        h.fire_eq queued
      have ⟨fired, ht', result, rep', limit', fires⟩ := ih (count + 1) rep (by omega)
      refine ⟨slots 0 :: fired, ht', ?_, rep', limit'.trans limit, ?_⟩
      · rw [if_pos (decide_eq_true ⟨queued, isDue, more⟩), taken, bind_eq_bind,
          bind_some]
        dsimp only
        rw [pushed, bind_eq_bind, bind_some, result]
        rfl
      · have left : ht.maxEntriesPerPoll - count = ht₂.maxEntriesPerPoll - (count + 1) + 1 := by
          omega
        rw [left]
        rw [released] at fires
        refine .cons (h.pending_queued queued) isDue (fun other time member => ?_) fires
        obtain ⟨i, bound, _, rfl⟩ := h.pending_some member
        exact h.ordered.root_le bound
    · refine ⟨[], ht, ?_, ⟨slots, free, h⟩, rfl, .nil ?_⟩
      · exact if_neg (by simp only [decide_eq_false goesOn, Bool.false_eq_true, not_false_eq_true])
      · -- The loop ends at the limit, or at a first entry that is not due.
        rcases Nat.lt_or_ge count ht.maxEntriesPerPoll with more | full
        · refine .inr fun entry time member => ?_
          obtain ⟨i, bound, _, rfl⟩ := h.pending_some member
          have least := h.ordered.root_le bound
          refine lt_of_not_ge fun isDue => goesOn ⟨by omega, least.trans isDue, more⟩
        · exact .inl (by omega)

/-- Every call is an event of the agenda. -/
theorem Rep.call_meets (h : Rep ht slots [] free) (made : Call ε) :
    ∃ event ht', call ht made = some (event, ht') ∧ Meets ht event ht' := by
  cases made with
  | schedule entry expires => exact h.call_schedule entry expires
  | cancel entry => exact h.call_cancel entry
  | poll now =>
    have ⟨fired, ht', result, rep, limit, fires⟩ :=
      h.pollFrom_eq now (ht.curSize + 1) 0 (Nat.lt_succ_self _)
    refine ⟨.polled now fired, ht', ?_, rep, limit, fires⟩
    rw [call, pjTimerHeapPoll, result]
    rfl

/-- A run of calls is a trace of the agenda. -/
theorem Rep.calls_trace (h : Rep ht slots [] free) (made : List (Call ε)) :
    ∃ events ht', calls ht made = some (events, ht') ∧
      (∃ slots' free', Rep ht' slots' [] free') ∧
      Agenda.Trace ht.maxEntriesPerPoll (pending ht) events (pending ht') := by
  induction made generalizing ht slots free with
  | nil => exact ⟨[], ht, rfl, ⟨slots, free, h⟩, rfl⟩
  | cons first rest ih =>
    have ⟨event, ht₁, called, ⟨slots₁, free₁, rep⟩, limit, step⟩ := h.call_meets first
    have ⟨events, ht', result, rep', trace⟩ := ih rep
    rw [limit] at trace
    refine ⟨event :: events, ht', ?_, rep', pending ht₁, step, trace⟩
    rw [calls, called, bind_eq_bind, bind_some]
    dsimp only
    rw [result]
    rfl

/-- Along every run of calls an entry is called back once, by the first poll that gets to it, in
the order of the times, unless it is cancelled before, and the count is that of the entries that
are still to be called back. -/
theorem timers_fire_once [Inhabited ε] (size limit : Nat) (made : List (Call ε)) :
    ∃ events ht, calls (pjTimerHeapSetMaxTimedOutPerPoll (pjTimerHeapCreate ε size) limit) made =
        some (events, ht) ∧
      Agenda.Trace limit (fun _ => none) events (pending ht) ∧
      (∀ entry, Agenda.Follows limit entry none events) ∧
      ∃ queue : List ε, queue.Nodup ∧ queue.length = pjTimerHeapCount ht ∧
        ∀ entry, entry ∈ queue ↔ (pending ht entry).isSome := by
  have created := pjTimerHeapCreate_rep ε size fun _ => default
  have rep : Rep (pjTimerHeapSetMaxTimedOutPerPoll (pjTimerHeapCreate ε size) limit)
      (fun _ => default) [] (List.range' 1 (size + 1)) := { created with }
  have ⟨events, ht, result, ⟨slots, free, final⟩, trace⟩ := rep.calls_trace made
  exact ⟨events, ht, result, trace, fun entry => Agenda.Trace.follows trace entry,
    final.pending_count⟩

end Pj.Timer
