import Mathlib.Data.List.Perm.Subperm
import Pjproject.Timer.Reheap

/-!
# The invariant of a timer heap

The heap, the array of ids and the list of free ids in it hang together: the array has the slot of
an entry at the id of the entry, and at a free id the next free one, negated. Every id is that of
an entry in the heap, is held back by a poll, or is free. Each operation is told what it makes of
this.
-/

namespace Pj.Timer
open Function List BinaryHeap

variable {ε : Type} [DecidableEq ε] {ht : TimerHeap ε} {slots : Nat → ε} {held free : List Nat}

/-- The free ids, from the first one on. The last one leads to the size of the array. -/
def FreeChain (timerIds : Nat → Int) (maxSize : Nat) : Int → List Nat → Prop
  | start, [] => start = maxSize
  | start, id :: rest => start = id ∧ FreeChain timerIds maxSize (-timerIds id) rest

/-- The id of an entry, as an index. -/
def index (ht : TimerHeap ε) (entry : ε) : Nat := (ht.timerId entry).toNat

/-- The ids of the entries in the heap. -/
def queuedIds (ht : TimerHeap ε) (slots : Nat → ε) : List Nat :=
  (List.range ht.curSize).map fun i => index ht (slots i)

/-- The invariant, with the entries at the slots, the ids that polls hold back, and the free
ids. -/
structure Rep (ht : TimerHeap ε) (slots : Nat → ε) (held free : List Nat) : Prop where
  room : ht.curSize + 1 < ht.maxSize
  heap : ∀ i < ht.curSize, ht.heap i = some (slots i)
  slot : ∀ i < ht.curSize, ht.timerIds (index ht (slots i)) = i
  running : ∀ i < ht.curSize, 0 < ht.timerId (slots i)
  stopped : ∀ entry, (∀ i < ht.curSize, slots i ≠ entry) → ht.timerId entry = -1
  ids : (queuedIds ht slots ++ (held ++ free)).Perm (List.range' 1 (ht.maxSize - 1))
  chain : FreeChain ht.timerIds ht.maxSize ht.timerIdsFreelist free
  ordered : Ordered (fun i => ht.timerValue (slots i)) ht.curSize

/-! ## The list of free ids -/

variable {maxSize : Nat}

variable {timerIds : Nat → Int}

theorem FreeChain.congr {timerIds' : Nat → Int} {start : Int}
    (h : FreeChain timerIds maxSize start free) (same : ∀ id ∈ free, timerIds' id = timerIds id) :
    FreeChain timerIds' maxSize start free := by
  induction free generalizing start with
  | nil => exact h
  | cons id rest ih =>
    have ⟨first, later⟩ := h
    refine ⟨first, ?_⟩
    rw [same id mem_cons_self]
    exact ih later fun id' member => same id' (mem_cons_of_mem _ member)

/-- New ids that lead to one another. -/
theorem FreeChain.fresh (count : Nat) {start : Nat}
    (next : ∀ id, start ≤ id → id < start + count → timerIds id = -((id : Int) + 1)) :
    FreeChain timerIds (start + count) start (List.range' start count) := by
  induction count generalizing start with
  | zero => exact rfl
  | succ count ih =>
    refine ⟨rfl, ?_⟩
    have value : -timerIds start = ((start + 1 : Nat) : Int) := by
      rw [next start le_rfl (by omega)]
      omega
    have sum : start + (count + 1) = start + 1 + count := by omega
    rw [value, sum]
    exact ih fun id lower upper => next id (by omega) (by omega)

/-- A chain that leads to another one. -/
theorem FreeChain.append {maxSize' : Nat} {start : Int} {free' : List Nat}
    (h : FreeChain timerIds maxSize start free) (h' : FreeChain timerIds maxSize' maxSize free') :
    FreeChain timerIds maxSize' start (free ++ free') := by
  induction free generalizing start with
  | nil =>
    rw [h]
    exact h'
  | cons id rest ih => exact ⟨h.1, ih h.2⟩

/-! ## Ids -/

variable {i : Nat}

variable {id : Nat}

/-- Every id is between 1 and the size of the array. -/
theorem Rep.id_range (h : Rep ht slots held free)
    (member : id ∈ queuedIds ht slots ++ (held ++ free)) : 1 ≤ id ∧ id < ht.maxSize := by
  have inside := mem_range'_1.mp (h.ids.mem_iff.mp member)
  have room := h.room
  omega

theorem Rep.nodup (h : Rep ht slots held free) :
    (queuedIds ht slots ++ (held ++ free)).Nodup :=
  h.ids.nodup_iff.mpr nodup_range'

/-- The ids that are in use and those that are not. -/
theorem Rep.count (h : Rep ht slots held free) :
    ht.curSize + held.length + free.length + 1 = ht.maxSize := by
  have length := h.ids.length_eq
  have room := h.room
  rw [length_append, length_append, queuedIds, length_map, length_range,
    length_range'] at length
  omega

theorem Rep.queued_mem (bound : i < ht.curSize) :
    index ht (slots i) ∈ queuedIds ht slots :=
  mem_map.mpr ⟨i, mem_range.mpr bound, rfl⟩

/-- The id of an entry in the heap is not free. -/
theorem Rep.queued_not_free (h : Rep ht slots held free) (bound : i < ht.curSize)
    (member : id ∈ free) : index ht (slots i) ≠ id := by
  have apart := (nodup_append.mp h.nodup).2.2
  exact apart _ (Rep.queued_mem bound) _ (mem_append_right _ member)

/-- Different slots have different ids. -/
theorem Rep.inj (h : Rep ht slots held free) {j : Nat} (bound : i < ht.curSize)
    (bound' : j < ht.curSize) (same : index ht (slots i) = index ht (slots j)) : i = j := by
  have left := h.slot i bound
  rw [same, h.slot j bound'] at left
  exact (Int.ofNat.inj left).symm

theorem Rep.timerId_eq (h : Rep ht slots held free) (bound : i < ht.curSize) :
    ht.timerId (slots i) = index ht (slots i) := by
  have running := h.running i bound
  rw [index]
  omega

/-- The id of an entry in the heap is an index of the array. -/
theorem Rep.id_lt (h : Rep ht slots held free) (bound : i < ht.curSize) :
    0 ≤ ht.timerId (slots i) ∧ ht.timerId (slots i) < ht.maxSize := by
  have range := h.id_range (mem_append_left _ (Rep.queued_mem bound))
  rw [h.timerId_eq bound]
  omega

/-- The order of the ids that are held back does not matter. -/
theorem Rep.held_perm (h : Rep ht slots held free) {held' : List Nat} (perm : held'.Perm held) :
    Rep ht slots held' free :=
  { h with ids := ((perm.append_right free).append_left _).trans h.ids }

/-! ## Taking and returning an id -/

/-- The first free id is taken. -/
theorem Rep.popFreelist_eq {rest : List Nat} (h : Rep ht slots held (id :: rest)) :
    popFreelist ht = some ((id : Int), { ht with timerIdsFreelist := -ht.timerIds id }) ∧
      Rep { ht with timerIdsFreelist := -ht.timerIds id } slots (id :: held) rest := by
  have range := h.id_range (by simp : id ∈ queuedIds ht slots ++ (held ++ id :: rest))
  have ⟨first, later⟩ := h.chain
  constructor
  · rw [popFreelist, timerIdAt, first, if_pos (by omega)]
    rfl
  · exact { h with
      ids := (perm_middle.symm.append_left (queuedIds ht slots)).trans h.ids
      chain := later }

/-- There is no free id to take. -/
theorem Rep.popFreelist_none (h : Rep ht slots held []) : popFreelist ht = none := by
  have stop : ht.timerIdsFreelist = ht.maxSize := h.chain
  rw [popFreelist, timerIdAt, stop, if_neg (by omega)]
  rfl

/-- An id is the first free one from then on. -/
theorem pushFreelist_eq (bound : id < ht.maxSize) :
    pushFreelist ht id = some { ht with
      timerIds := update ht.timerIds id (-ht.timerIdsFreelist), timerIdsFreelist := id } := by
  rw [pushFreelist, setTimerId, if_pos (by omega)]
  rfl

theorem FreeChain.push {start : Int} (h : FreeChain timerIds maxSize start free) (new : id ∉ free) :
    FreeChain (update timerIds id (-start)) maxSize id (id :: free) := by
  refine ⟨rfl, ?_⟩
  rw [update_self, Int.neg_neg]
  refine h.congr fun other member => update_of_ne ?_ _ _
  exact fun same => new (same ▸ member)

/-- An id that was held back is free again. -/
theorem Rep.push (h : Rep ht slots (id :: held) free) :
    ∃ ht', pushFreelist ht id = some ht' ∧ Rep ht' slots held (id :: free) ∧
      ht' = { ht with timerIds := ht'.timerIds, timerIdsFreelist := id } := by
  have range := h.id_range (by simp : id ∈ queuedIds ht slots ++ (id :: held ++ free))
  have nodup := h.nodup
  refine ⟨_, pushFreelist_eq range.2, ?_, rfl⟩
  have notFree : id ∉ free := by
    have inner := (nodup_append.mp nodup).2.1
    rw [cons_append, nodup_cons] at inner
    exact fun member => inner.1 (mem_append_right _ member)
  refine { h with
    slot := fun i bound => ?_
    ids := (perm_middle.append_left (queuedIds ht slots)).trans h.ids
    chain := h.chain.push notFree }
  have other : index ht (slots i) ≠ id :=
    (nodup_append.mp nodup).2.2 _ (Rep.queued_mem bound) _ mem_cons_self
  exact (update_of_ne other _ _).trans (h.slot i bound)

end Pj.Timer
