import Pjproject.Lib.Run
import Pjproject.Timer.Operations

/-!
# A timer heap under its callbacks

Polls run step by step: a turn of a poll takes an entry and holds its id back until the callback
returns, and meanwhile the callback, or another thread, schedules and cancels entries and polls
again. The invariant holds along exactly those runs in which an entry is scheduled only while an id
is free. The heap grows by its size alone, so that the ids that are held back can be the last ones.
-/

namespace Pj.Timer
open Option List BinaryHeap

/-- A call of `pj_timer_heap_poll` between two turns of its loop, or during a callback. -/
structure Poll where
  now : TimeVal
  count : Nat
  /-- `node_timer_id` during the callback. -/
  nodeTimerId : Option Int
deriving DecidableEq, Repr

/-- A timer heap and the polls that run on it. -/
structure Machine (ε : Type) where
  ht : TimerHeap ε
  polls : List Poll

/-- The steps: what a callback or another thread does, a poll that begins, a turn of its loop, and
the end of the callback of that turn. -/
inductive Op (ε : Type)
  | schedule (entry : ε) (expires : TimeVal)
  | cancel (entry : ε)
  | poll (now : TimeVal)
  | turn (index : Nat)
  | callbackReturn (index : Nat)

variable {ε : Type} [DecidableEq ε]

/-- A turn of the loop in `pj_timer_heap_poll` up to the callback, or the end of the loop. -/
def pollTurn (ht : TimerHeap ε) (poll : Poll) : Option (Option Poll × TimerHeap ε) := do
  if ← due ht poll.now poll.count then
    let (_, nodeTimerId, ht) ← takeFirst ht
    return (some { poll with count := poll.count + 1, nodeTimerId := some nodeTimerId }, ht)
  else return (none, ht)

/-- One step; a step of a poll that is not there, or not so far, does nothing. -/
def Machine.step (m : Machine ε) : Op ε → Option (Machine ε)
  | .schedule entry expires => do
    let (_, ht) ← pjTimerHeapSchedule m.ht entry expires
    return { m with ht := ht }
  | .cancel entry => do
    let (_, ht) ← pjTimerHeapCancel m.ht entry
    return { m with ht := ht }
  | .poll now =>
    some { m with polls := m.polls ++ [{ now := now, count := 0, nodeTimerId := none }] }
  | .turn index =>
    match m.polls[index]? with
    | some { now := now, count := count, nodeTimerId := none } => do
      let (next, ht) ← pollTurn m.ht { now := now, count := count, nodeTimerId := none }
      match next with
      | some poll => return { ht := ht, polls := m.polls.set index poll }
      | none => return { ht := ht, polls := m.polls.eraseIdx index }
    | _ => some m
  | .callbackReturn index =>
    match m.polls[index]? with
    | some { now := now, count := count, nodeTimerId := some id } => do
      let ht ← pushFreelist m.ht id
      return { ht := ht, polls := m.polls.set index { now, count, nodeTimerId := none } }
    | _ => some m

/-- A step of a run, which ends with an access beyond the arrays. -/
def stepRun (state : Option (Machine ε)) (op : Op ε) : Option (Machine ε) :=
  state.bind fun m => m.step op

/-- A heap that was created, without polls. -/
def start (ε : Type) (size : Nat) : Machine ε := { ht := pjTimerHeapCreate ε size, polls := [] }

/-- The ids that polls hold back. -/
def heldBack (polls : List Poll) : List Nat :=
  polls.filterMap fun poll => poll.nodeTimerId.map Int.toNat

def Machine.held (m : Machine ε) : List Nat := heldBack m.polls

/-- The invariant, with the ids that the polls hold back. -/
def Machine.Inv (m : Machine ε) : Prop :=
  (∃ slots free, Rep m.ht slots m.held free) ∧
    ∀ poll ∈ m.polls, ∀ id ∈ poll.nodeTimerId, 0 ≤ id

/-- The run goes on, and the invariant holds. -/
def Sound (state : Option (Machine ε)) : Prop := ∃ m ∈ state, m.Inv

/-- An entry that is scheduled finds an id that is neither in use nor held back. -/
def IdFree (state : Option (Machine ε)) : Op ε → Prop
  | .schedule entry _ => ∀ m ∈ state, m.ht.timerId entry < 1 →
      m.ht.curSize + m.held.length + 1 < m.ht.maxSize
  | _ => True

/-! ## Polls -/

/-- A running poll, and those before and after it. -/
theorem polls_parts {polls : List Poll} {index : Nat} {poll : Poll}
    (found : polls[index]? = some poll) :
    ∃ before after, polls = before ++ poll :: after ∧
      (∀ poll', polls.set index poll' = before ++ poll' :: after) ∧
      polls.eraseIdx index = before ++ after := by
  obtain ⟨bound, rfl⟩ := List.getElem?_eq_some_iff.mp found
  refine ⟨polls.take index, polls.drop (index + 1), ?_, fun poll' => ?_, ?_⟩
  · rw [← drop_eq_getElem_cons bound, take_append_drop]
  · exact set_eq_take_append_cons_drop.trans (if_pos bound)
  · exact eraseIdx_eq_take_drop_succ _ _

/-- A poll that is not in a callback holds nothing back. -/
theorem heldBack_idle (before after : List Poll) (now : TimeVal) (count : Nat) :
    heldBack (before ++ { now := now, count := count, nodeTimerId := none } :: after) =
      heldBack (before ++ after) := by
  rw [heldBack, heldBack, filterMap_append, filterMap_append]
  rfl

/-- A poll in a callback holds one id back. -/
theorem heldBack_callback (before after : List Poll) (now : TimeVal) (count : Nat) (id : Int) :
    (heldBack (before ++ { now := now, count := count, nodeTimerId := some id } :: after)).Perm
      (id.toNat :: heldBack (before ++ after)) := by
  rw [heldBack, heldBack, filterMap_append, filterMap_append]
  exact perm_middle

/-- A heap that was created holds nothing. -/
theorem pjTimerHeapCreate_rep (ε : Type) [DecidableEq ε] (size : Nat) (slots : Nat → ε) :
    Rep (pjTimerHeapCreate ε size) slots [] (List.range' 1 (size + 1)) where
  room := by
    show 0 + 1 < size + 2
    omega
  heap i bound := absurd bound (Nat.not_lt_zero i)
  slot i bound := absurd bound (Nat.not_lt_zero i)
  running i bound := absurd bound (Nat.not_lt_zero i)
  stopped _ _ := rfl
  ids := List.Perm.refl _
  chain := by
    have fresh : FreeChain (pjTimerHeapCreate ε size).timerIds (1 + (size + 1)) (1 : Nat)
        (List.range' 1 (size + 1)) := .fresh (size + 1) fun id _ _ => rfl
    have total : 1 + (size + 1) = size + 2 := by omega
    rw [total] at fresh
    exact fresh
  ordered i _ bound := absurd bound (Nat.not_lt_zero i)

/-! ## Steps -/

variable {ht : TimerHeap ε} {slots : Nat → ε} {expires : TimeVal} {state : Option (Machine ε)}

variable {m : Machine ε}

/-- An entry that can be scheduled is not in the heap. -/
theorem Rep.absent_of_idle {held free : List Nat} (h : Rep ht slots held free) {entry : ε}
    (idle : ht.timerId entry < 1) :
    ∀ i < ht.curSize, slots i ≠ entry := by
  rintro i bound rfl
  have running := h.running i bound
  omega

/-- Scheduling keeps the invariant while an id is free. -/
theorem Machine.Inv.schedule (h : m.Inv) {entry : ε}
    (free : m.ht.timerId entry < 1 → m.ht.curSize + m.held.length + 1 < m.ht.maxSize) :
    ∃ m' ∈ m.step (.schedule entry expires), m'.Inv := by
  have ⟨⟨slots, ids, rep⟩, nonneg⟩ := h
  have count := rep.count
  rw [Machine.step, pjTimerHeapSchedule]
  by_cases idle : m.ht.timerId entry < 1
  · rw [if_pos idle]
    have more := free idle
    match ids, rep, count with
    | [], _, count =>
      simp only [length_nil] at count
      omega
    | id :: rest, rep, _ =>
      have ⟨slots', ht', free', result, rep', _⟩ :=
        rep.scheduleEntry_eq (rep.absent_of_idle idle) expires
      rw [result]
      exact ⟨_, rfl, ⟨slots', free', rep'⟩, nonneg⟩
  · rw [if_neg idle]
    exact ⟨_, rfl, ⟨slots, ids, rep⟩, nonneg⟩

/-- Without a free id the array is read at its size. -/
theorem Machine.Inv.schedule_none (h : m.Inv) {entry : ε} (idle : m.ht.timerId entry < 1)
    (full : ¬m.ht.curSize + m.held.length + 1 < m.ht.maxSize) :
    m.step (.schedule entry expires) = none := by
  have ⟨⟨slots, ids, rep⟩, _⟩ := h
  have count := rep.count
  match ids, rep, count with
  | [], rep, _ =>
    rw [Machine.step, pjTimerHeapSchedule, if_pos idle, rep.scheduleEntry_none]
    rfl
  | id :: rest, _, count =>
    simp only [length_cons] at count
    omega

/-- Cancelling keeps the invariant. -/
theorem Machine.Inv.cancel (h : m.Inv) (entry : ε) :
    ∃ m' ∈ m.step (.cancel entry), m'.Inv := by
  have ⟨⟨slots, free, rep⟩, nonneg⟩ := h
  rw [Machine.step]
  by_cases queued : ∃ i < m.ht.curSize, slots i = entry
  · obtain ⟨i, bound, rfl⟩ := queued
    have ⟨slots', heap, timerIds, result, rep'⟩ := rep.cancel_queued bound
    rw [result]
    exact ⟨_, rfl, ⟨slots', _, rep'⟩, nonneg⟩
  · rw [rep.cancel_absent fun i bound same => queued ⟨i, bound, same⟩]
    exact ⟨_, rfl, ⟨slots, free, rep⟩, nonneg⟩

/-- The condition of the loop reads the first entry only if there is one. -/
theorem Rep.due_eq {held free : List Nat} (h : Rep ht slots held free) (now : TimeVal)
    (count : Nat) :
    due ht now count = some (decide (0 < ht.curSize ∧ ht.timerValue (slots 0) ≤ now ∧
      count < ht.maxEntriesPerPoll)) := by
  have room := h.room
  unfold due
  by_cases empty : ht.curSize = 0
  · simp [empty]
  · have first : heapAt ht 0 = some (slots 0) := by
      rw [heapAt, if_pos (by omega), h.heap 0 (by omega)]
    have positive : 0 < ht.curSize := Nat.pos_of_ne_zero empty
    rw [if_neg empty, first]
    simp only [bind_eq_bind, bind_some, Option.pure_def, Option.some.injEq]
    rw [Bool.eq_iff_iff]
    simp [positive]

/-- What a turn of a poll does. -/
theorem Rep.pollTurn_eq {held free : List Nat} (h : Rep ht slots held free) (poll : Poll) :
    (∃ slots' ht', ∃ id : Nat, pollTurn ht poll =
        some (some { poll with count := poll.count + 1, nodeTimerId := some (id : Int) }, ht') ∧
          Rep ht' slots' (id :: held) free) ∨
      pollTurn ht poll = some (none, ht) := by
  unfold pollTurn
  rw [h.due_eq, bind_eq_bind, bind_some]
  by_cases goesOn : 0 < ht.curSize ∧ ht.timerValue (slots 0) ≤ poll.now ∧
      poll.count < ht.maxEntriesPerPoll
  · have ⟨slots', ht', result, rep, _⟩ := h.takeFirst_eq goesOn.1
    refine .inl ⟨slots', ht', _, ?_, rep⟩
    rw [if_pos (decide_eq_true goesOn), result]
    rfl
  · exact .inr (if_neg (by simp only [decide_eq_false goesOn, Bool.false_eq_true,
      not_false_eq_true]))

/-- A turn of a poll keeps the invariant. -/
theorem Machine.Inv.turn (h : m.Inv) (index : Nat) :
    ∃ m' ∈ m.step (.turn index), m'.Inv := by
  have ⟨⟨slots, free, rep⟩, nonneg⟩ := h
  rw [Machine.step]
  split
  · next now count found =>
    have ⟨before, after, parts, replaced, erased⟩ := polls_parts found
    rw [parts] at nonneg
    rw [Machine.held, parts, heldBack_idle] at rep
    rcases rep.pollTurn_eq { now := now, count := count, nodeTimerId := none } with
      ⟨slots', ht', id, result, rep'⟩ | result
    · rw [result, bind_eq_bind, bind_some]
      dsimp only
      rw [replaced]
      refine ⟨_, rfl, ⟨slots', free, rep'.held_perm (heldBack_callback _ _ _ _ _)⟩,
        fun poll member held isHeld => ?_⟩
      rcases mem_append.mp member with member | member
      · exact nonneg poll (by simp [member]) held isHeld
      · rcases mem_cons.mp member with rfl | member
        · obtain rfl := some.inj isHeld
          exact Int.natCast_nonneg id
        · exact nonneg poll (by simp [member]) held isHeld
    · rw [result, bind_eq_bind, bind_some]
      rw [erased]
      refine ⟨_, rfl, ⟨slots, free, rep⟩, fun poll member => nonneg poll ?_⟩
      rcases mem_append.mp member with member | member
      · simp [member]
      · simp [member]
  · exact ⟨m, rfl, ⟨slots, free, rep⟩, nonneg⟩

/-- The end of a callback keeps the invariant. -/
theorem Machine.Inv.callbackReturn (h : m.Inv) (index : Nat) :
    ∃ m' ∈ m.step (.callbackReturn index), m'.Inv := by
  have ⟨⟨slots, free, rep⟩, nonneg⟩ := h
  rw [Machine.step]
  split
  · next now count id found =>
    have ⟨before, after, parts, replaced, _⟩ := polls_parts found
    rw [parts] at nonneg
    obtain ⟨number, rfl⟩ := Int.eq_ofNat_of_zero_le (nonneg
      { now := now, count := count, nodeTimerId := some id } (by simp) id rfl)
    rw [Machine.held, parts] at rep
    have ⟨ht', pushed, rep', _⟩ :=
      (rep.held_perm (heldBack_callback before after now count number).symm).push
    rw [Int.toNat_natCast] at pushed
    rw [pushed, bind_eq_bind, bind_some, replaced]
    refine ⟨_, rfl, ⟨slots, number :: free, ?_⟩, fun poll member held isHeld => ?_⟩
    · rw [Machine.held, heldBack_idle]
      exact rep'
    · rcases mem_append.mp member with member | member
      · exact nonneg poll (by simp [member]) held isHeld
      · rcases mem_cons.mp member with rfl | member
        · contradiction
        · exact nonneg poll (by simp [member]) held isHeld
  · exact ⟨m, rfl, ⟨slots, free, rep⟩, nonneg⟩

/-- A step that finds a free id keeps the invariant. -/
theorem sound_step {op : Op ε} (h : Sound state) (free : IdFree state op) :
    Sound (stepRun state op) := by
  obtain ⟨m, rfl, inv⟩ := h
  cases op with
  | schedule entry expires => exact inv.schedule (free m rfl)
  | cancel entry => exact inv.cancel entry
  | poll now =>
    have ⟨⟨slots, ids, rep⟩, nonneg⟩ := inv
    refine ⟨_, rfl, ⟨slots, ids, ?_⟩, fun poll member => ?_⟩
    · rw [Machine.held, heldBack_idle, append_nil]
      exact rep
    · rcases mem_append.mp member with member | member
      · exact nonneg poll member
      · rw [mem_singleton.mp member]
        exact nofun
  | turn index => exact inv.turn index
  | callbackReturn index => exact inv.callbackReturn index

/-- A step that does not find one breaks it. -/
theorem not_sound_step {op : Op ε} (h : Sound state) (full : ¬IdFree state op) :
    ¬Sound (stepRun state op) := by
  obtain ⟨m, rfl, inv⟩ := h
  cases op with
  | schedule entry expires =>
    by_cases idle : m.ht.timerId entry < 1
    · have none : ¬m.ht.curSize + m.held.length + 1 < m.ht.maxSize := fun more =>
        full fun m' same _ => some.inj same ▸ more
      rw [stepRun, bind_some, inv.schedule_none idle none]
      rintro ⟨_, absent, _⟩
      contradiction
    · exact absurd (fun m' same idle' => absurd (some.inj same ▸ idle') idle) full
  | cancel entry => exact absurd trivial full
  | poll now => exact absurd trivial full
  | turn index => exact absurd trivial full
  | callbackReturn index => exact absurd trivial full

/-- The invariant holds along a run exactly if every entry that is scheduled finds a free id. -/
theorem timer_heap_sound_iff [Inhabited ε] (size : Nat) (ops : List (Op ε)) :
    Run.Always stepRun Sound (some (start ε size)) ops ↔
      Run.Meets stepRun IdFree (some (start ε size)) ops := by
  have created : Sound (some (start ε size)) :=
    ⟨_, rfl, ⟨_, _, pjTimerHeapCreate_rep ε size fun _ => default⟩, nofun⟩
  exact Run.always_iff (fun _ _ => sound_step) (fun _ sound => sound)
    (fun _ _ => not_sound_step) created

/-- A heap for one entry. The callback of the entry schedules two others. -/
theorem timer_heap_unsound :
    let time : TimeVal := { sec := 1, msec := 0 }
    ¬Run.Always stepRun Sound (some (start Nat 1))
      [.schedule 0 time, .poll time, .turn 0, .schedule 1 time, .schedule 2 time] := by
  intro time h
  have ⟨m, same, _⟩ := h.last
  have none : ([.schedule 0 time, .poll time, .turn 0, .schedule 1 time,
      .schedule 2 time].foldl stepRun (some (start Nat 1))).isNone = true := by decide
  contradiction

end Pj.Timer
