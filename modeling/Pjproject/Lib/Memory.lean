import Mathlib.Data.List.Basic
import Mathlib.Tactic.Ring

/-!
# Stretches of a memory

A memory maps cell numbers to values. A stretch of it is the list of some consecutive
cells. Storing a list replaces a stretch, and moving a stretch stores what another stretch,
which may overlap it, held before.
-/

namespace Memory

variable {α : Type*}

/-- The values of the `count` cells from `first` on. -/
def span (mem : Nat → α) (first count : Nat) : List α :=
  (List.range count).map fun offset => mem (first + offset)

/-- The memory with `data` in the cells from `first` on. -/
def store (mem : Nat → α) (first : Nat) (data : List α) : Nat → α := fun cell =>
  if first ≤ cell then (data[cell - first]?).getD (mem cell) else mem cell

/-- The memory with the `count` cells from `src` on copied to the cells from `dst` on. -/
def move (mem : Nat → α) (dst src count : Nat) : Nat → α := store mem dst (span mem src count)

section
variable (mem : Nat → α)
include mem

@[simp] theorem length_span (first count : Nat) : (span mem first count).length = count := by
  simp [span]

@[simp] theorem span_zero (first : Nat) : span mem first 0 = [] := rfl

@[simp] theorem getElem_span (first count offset : Nat)
    (h : offset < (span mem first count).length) :
    (span mem first count)[offset] = mem (first + offset) := by
  simp [span]

/-- A longer stretch is the shorter one and the stretch that starts where it ends. -/
theorem span_add (first left right : Nat) :
    span mem first (left + right) = span mem first left ++ span mem (first + left) right := by
  simp only [span, List.range_add, List.map_append, List.map_map]
  congr 1
  apply List.map_congr_left
  intro offset _
  simp [Nat.add_assoc]

end

variable {count : Nat}

section
variable {left : Nat} (mem : Nat → α) (first : Nat) (h : left ≤ count)
include mem first h

/-- The front of a stretch. -/
theorem span_take : (span mem first count).take left = span mem first left := by
  obtain ⟨right, rfl⟩ := Nat.exists_eq_add_of_le h
  rw [span_add]
  simp

/-- The rest of a stretch. -/
theorem span_drop : (span mem first count).drop left = span mem (first + left) (count - left) := by
  obtain ⟨right, rfl⟩ := Nat.exists_eq_add_of_le h
  rw [span_add, Nat.add_sub_cancel_left]
  simp

end

/-- Memories that agree on a stretch have the same stretch. -/
theorem span_congr {mem mem' : Nat → α} {first : Nat}
    (h : ∀ offset, offset < count → mem' (first + offset) = mem (first + offset)) :
    span mem' first count = span mem first count := by
  apply List.map_congr_left
  intro offset hoffset
  exact h offset (List.mem_range.mp hoffset)

section
variable (mem : Nat → α)
include mem

variable {data : List α}

/-- A stored value is read back. -/
theorem store_inside {offset : Nat} (first : Nat) (h : offset < data.length) :
    store mem first data (first + offset) = data[offset] := by
  simp [store, h]

/-- The cells before and behind the stored list keep their values. -/
theorem store_outside {first cell : Nat} (h : cell < first ∨ first + data.length ≤ cell) :
    store mem first data cell = mem cell := by
  unfold store
  split
  · have behind : data.length ≤ cell - first := by omega
    rw [List.getElem?_eq_none behind]
    rfl
  · rfl

/-- The stretch that was stored. -/
theorem span_store (first : Nat) (data : List α) :
    span (store mem first data) first data.length = data := by
  apply List.ext_getElem
  · simp
  · intro offset _ hoffset
    rw [getElem_span, store_inside mem first hoffset]

variable {dst : Nat}

/-- A stretch apart from the stored one. -/
theorem span_store_apart {first : Nat} (h : first + count ≤ dst ∨ dst + data.length ≤ first) :
    span (store mem dst data) first count = span mem first count := by
  apply span_congr
  intro offset hoffset
  apply store_outside
  omega

/-- The stretch that was moved. -/
theorem span_move (dst src count : Nat) :
    span (move mem dst src count) dst count = span mem src count := by
  have moved := span_store mem dst (span mem src count)
  rwa [length_span] at moved

/-- A stretch apart from the moved one. -/
theorem span_move_apart {first moved : Nat} (src : Nat)
    (h : first + count ≤ dst ∨ dst + moved ≤ first) :
    span (move mem dst src moved) first count = span mem first count := by
  apply span_store_apart
  rwa [length_span]

/-- The cells before and behind the moved stretch keep their values. -/
theorem move_outside {cell : Nat} (src : Nat) (h : cell < dst ∨ dst + count ≤ cell) :
    move mem dst src count cell = mem cell := by
  apply store_outside
  rwa [length_span]

end

end Memory
