import Mathlib.Data.List.Nodup
import Mathlib.Tactic.Ring

/-!
# Agendas

An agenda is a map from entries to the times at which they are due. An entry is scheduled, unless
it already is, or cancelled, and a poll fires entries that are due, the earliest ones first and only
so many of them. A trace of such events determines what becomes of each entry: it is fired once, by
the first poll that gets to it, unless it is cancelled before.
-/

namespace Agenda
open Function

variable {ε τ : Type*}

/-- What happened to an agenda. -/
inductive Event (ε τ : Type*)
  | scheduled (entry : ε) (time : τ) (accepted : Bool)
  | cancelled (entry : ε) (count : Nat)
  | polled (now : τ) (fired : List ε)

variable [DecidableEq ε] [LinearOrder τ]

/-- The entries that a poll fires. -/
structure Fires (limit : Nat) (now : τ) (before after : ε → Option τ) (fired : List ε) : Prop where
  /-- They were due. -/
  due : ∀ entry ∈ fired, ∃ time ∈ before entry, time ≤ now
  once : fired.Nodup
  /-- In the order of their times. -/
  ordered : fired.Pairwise fun entry later =>
    ∀ time ∈ before entry, ∀ time' ∈ before later, time ≤ time'
  /-- None that stays is earlier. -/
  earliest : ∀ entry ∈ fired, ∀ time ∈ before entry, ∀ other, ∀ time' ∈ after other, time ≤ time'
  limited : fired.length ≤ limit
  /-- None that is due stays, unless the limit was reached. -/
  complete : fired.length < limit → ∀ entry, ∀ time ∈ after entry, now < time
  rest : ∀ entry, after entry = if entry ∈ fired then none else before entry

/-- An event and what it makes of an agenda. -/
def Step (limit : Nat) (before : ε → Option τ) : Event ε τ → (ε → Option τ) → Prop
  | .scheduled entry time accepted, after =>
    accepted = (before entry).isNone ∧
      after = if (before entry).isNone then update before entry (some time) else before
  | .cancelled entry count, after =>
    count = (if (before entry).isSome then 1 else 0) ∧ after = update before entry none
  | .polled now fired, after => Fires limit now before after fired

/-- A sequence of events. -/
def Trace (limit : Nat) : (ε → Option τ) → List (Event ε τ) → (ε → Option τ) → Prop
  | before, [], after => before = after
  | before, event :: rest, after => ∃ next, Step limit before event next ∧ Trace limit next rest after

/-- What becomes of one entry, which is due at a time or is not scheduled: it is fired by the first
poll at that time or later that does not reach its limit before, unless it is cancelled, and not
again before it is scheduled again. -/
def Follows (limit : Nat) (entry : ε) : Option τ → List (Event ε τ) → Prop
  | _, [] => True
  | due, .scheduled other time accepted :: rest =>
    if other = entry then
      accepted = due.isNone ∧ Follows limit entry (if due.isNone then some time else due) rest
    else Follows limit entry due rest
  | due, .cancelled other count :: rest =>
    if other = entry then
      count = (if due.isSome then 1 else 0) ∧ Follows limit entry none rest
    else Follows limit entry due rest
  | none, .polled _ fired :: rest => entry ∉ fired ∧ Follows limit entry none rest
  | some time, .polled now fired :: rest =>
    if entry ∈ fired then time ≤ now ∧ fired.count entry = 1 ∧ Follows limit entry none rest
    else (now < time ∨ fired.length = limit) ∧ Follows limit entry (some time) rest

/-! ## Polls -/

variable {limit : Nat}

variable {before after : ε → Option τ}

/-- A poll that fires nothing. -/
theorem Fires.nil {now : τ} {agenda : ε → Option τ}
    (none : limit = 0 ∨ ∀ entry, ∀ time ∈ agenda entry, now < time) :
    Fires limit now agenda agenda [] where
  due := nofun
  once := List.nodup_nil
  ordered := .nil
  earliest := nofun
  limited := Nat.zero_le _
  complete more := none.resolve_left (Nat.ne_of_gt more)
  rest _ := (if_neg List.not_mem_nil).symm

/-- A poll that fires the earliest entry first. -/
theorem Fires.cons {limit : Nat} {now time : τ} {first : ε} {fired : List ε}
    (scheduled : before first = some time) (due : time ≤ now)
    (least : ∀ other, ∀ time' ∈ before other, time ≤ time')
    (h : Fires limit now (update before first none) after fired) :
    Fires (limit + 1) now before after (first :: fired) := by
  have absent : first ∉ fired := by
    intro member
    have ⟨_, same, _⟩ := h.due first member
    rw [update_self] at same
    contradiction
  have kept : ∀ entry ∈ fired, update before first none entry = before entry :=
    fun entry member => update_of_ne (by rintro rfl; exact absent member) _ _
  have stays : ∀ other, ∀ time' ∈ after other, time' ∈ before other := by
    intro other time' member
    rw [h.rest other] at member
    split at member
    · contradiction
    · by_cases same : other = first
      · rw [same, update_self] at member
        contradiction
      · rwa [update_of_ne same] at member
  refine ⟨?_, List.nodup_cons.mpr ⟨absent, h.once⟩, ?_, ?_, ?_, ?_, ?_⟩
  · refine List.forall_mem_cons.mpr ⟨⟨time, scheduled, due⟩, fun entry member => ?_⟩
    rw [← kept entry member]
    exact h.due entry member
  · refine List.pairwise_cons.mpr ⟨fun later _ => ?_, h.ordered.imp_of_mem ?_⟩
    · intro time' isFirst time'' member
      obtain rfl := Option.some.inj (scheduled.symm.trans isFirst)
      exact least later time'' member
    · intro entry later member member' ordered
      rw [kept entry member, kept later member'] at ordered
      exact ordered
  · refine List.forall_mem_cons.mpr ⟨fun time' isFirst other time'' member => ?_,
      fun entry member => ?_⟩
    · obtain rfl := Option.some.inj (scheduled.symm.trans isFirst)
      exact least other time'' (stays other time'' member)
    · rw [← kept entry member]
      exact h.earliest entry member
  · exact Nat.succ_le_succ h.limited
  · exact fun more => h.complete (Nat.lt_of_succ_lt_succ more)
  · intro entry
    rw [h.rest entry]
    by_cases same : entry = first
    · rw [same, if_neg absent, update_self, if_pos List.mem_cons_self]
    · have members : entry ∈ first :: fired ↔ entry ∈ fired :=
        List.mem_cons.trans (or_iff_right same)
      rw [update_of_ne same]
      by_cases member : entry ∈ fired
      · rw [if_pos member, if_pos (members.mpr member)]
      · rw [if_neg member, if_neg fun more => member (members.mp more)]

/-- An entry that is due stays only if the limit is reached. -/
theorem Fires.stays {now time : τ} {fired : List ε} (h : Fires limit now before after fired)
    {entry : ε} (scheduled : before entry = some time) (absent : entry ∉ fired) :
    now < time ∨ fired.length = limit := by
  rcases Nat.lt_or_eq_of_le h.limited with more | full
  · refine .inl (h.complete more entry time ?_)
    rw [h.rest entry, if_neg absent]
    exact scheduled
  · exact .inr full

/-! ## Traces -/

/-- What becomes of each entry along a trace. -/
theorem Trace.follows {events : List (Event ε τ)} (h : Trace limit before events after)
    (entry : ε) :
    Follows limit entry (before entry) events := by
  induction events generalizing before with
  | nil => exact trivial
  | cons event rest ih =>
    have ⟨next, step, later⟩ := h
    have follows := ih later
    cases event with
    | scheduled other time accepted =>
      obtain ⟨answer, rfl⟩ := step
      rw [Follows]
      by_cases same : other = entry
      · rw [if_pos same, ← same]
        refine ⟨answer, ?_⟩
        rw [← same] at follows
        by_cases idle : (before other).isNone
        · rw [if_pos idle] at follows ⊢
          rwa [update_self] at follows
        · rwa [if_neg idle] at follows ⊢
      · rw [if_neg same]
        by_cases idle : (before other).isNone
        · rw [if_pos idle, update_of_ne (Ne.symm same)] at follows
          exact follows
        · rwa [if_neg idle] at follows
    | cancelled other count =>
      obtain ⟨answer, rfl⟩ := step
      rw [Follows]
      by_cases same : other = entry
      · rw [if_pos same, ← same]
        rw [← same, update_self] at follows
        exact ⟨answer, follows⟩
      · rw [if_neg same]
        rwa [update_of_ne (Ne.symm same)] at follows
    | polled now fired =>
      have fires : Fires limit now before next fired := step
      cases scheduled : before entry with
      | none =>
        have absent : entry ∉ fired := by
          intro member
          have ⟨time, same, _⟩ := fires.due entry member
          rw [scheduled] at same
          contradiction
        rw [fires.rest entry, if_neg absent, scheduled] at follows
        exact ⟨absent, follows⟩
      | some time =>
        rw [Follows]
        by_cases member : entry ∈ fired
        · have ⟨time', same, due⟩ := fires.due entry member
          obtain rfl := Option.some.inj (scheduled.symm.trans same)
          rw [fires.rest entry, if_pos member] at follows
          rw [if_pos member]
          exact ⟨due, fires.once.count.trans (if_pos member), follows⟩
        · rw [fires.rest entry, if_neg member, scheduled] at follows
          rw [if_neg member]
          exact ⟨fires.stays scheduled member, follows⟩

end Agenda
