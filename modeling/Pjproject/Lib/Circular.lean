import Mathlib.Data.Nat.ModEq
import Pjproject.Lib.Memory

/-!
# Windows of a circular array

A circular array of `cap` slots is read through a window: the `size` slots from `head`
on, wrapping past the last slot. The window is a list, and each operation of a queue
kept in such an array is an operation on that list: taking from the front moves the
head, writing inside replaces an element, and a larger size appends.
-/

namespace Circular
open List

variable {α : Type*}

/-- The slot `offset` places after `head`. -/
def slot (cap head offset : Nat) : Nat := (head + offset) % cap

/-- The elements of the `size` slots from `head` on. -/
def window (cap : Nat) (slots : Nat → α) (head size : Nat) : List α :=
  (List.range size).map fun offset => slots (slot cap head offset)

variable {cap head : Nat}

/-- The head is its own slot at offset 0. -/
theorem slot_zero (inside : head < cap) : slot cap head 0 = head := by
  simp [slot, Nat.mod_eq_of_lt inside]

variable {offset : Nat}

/-- Slots are inside the array. -/
theorem slot_lt (positive : 0 < cap) : slot cap head offset < cap :=
  Nat.mod_lt _ positive

/-- Moving the head moves every later offset. -/
theorem slot_slot (cap head first second : Nat) :
    slot cap (slot cap head first) second = slot cap head (first + second) := by
  simp [slot, Nat.add_assoc]

/-- Two offsets of one revolution that meet in a slot are equal. -/
theorem slot_inj {first second : Nat} (h : slot cap head first = slot cap head second)
    (hfirst : first < cap) (hsecond : second < cap) : first = second := by
  have shifted : first ≡ second [MOD cap] := Nat.ModEq.add_left_cancel' head h
  exact Nat.ModEq.eq_of_lt_of_lt shifted hfirst hsecond

@[simp] theorem length_window (cap : Nat) (slots : Nat → α) (head size : Nat) :
    (window cap slots head size).length = size := by
  simp [window]

@[simp] theorem getElem_window (cap : Nat) (slots : Nat → α) (head size offset : Nat)
    (h : offset < (window cap slots head size).length) :
    (window cap slots head size)[offset] = slots (slot cap head offset) := by
  simp [window]

variable {size : Nat}

/-- An element inside the window, as an optional read. -/
theorem getElem?_window (slots : Nat → α) (head : Nat) (h : offset < size) :
    (window cap slots head size)[offset]? = some (slots (slot cap head offset)) := by
  simp [window, h]

/-- A larger window is the smaller one and the window that starts where it ends. -/
theorem window_add (cap : Nat) (slots : Nat → α) (head first second : Nat) :
    window cap slots head (first + second) =
      window cap slots head first ++ window cap slots (slot cap head first) second := by
  simp only [window, range_add, map_append, map_map]
  congr 1
  apply map_congr_left
  intro offset _
  simp [slot_slot]

/-- A window of one slot. -/
theorem window_one (slots : Nat → α) (inside : head < cap) :
    window cap slots head 1 = [slots head] := by
  simp [window, slot_zero inside]

/-- Moving the head by part of the window drops that part. -/
theorem window_drop {count : Nat} (cap : Nat) (slots : Nat → α) (head : Nat) (h : count ≤ size) :
    window cap slots (slot cap head count) (size - count) =
      (window cap slots head size).drop count := by
  obtain ⟨rest, rfl⟩ := Nat.exists_eq_add_of_le h
  rw [window_add, Nat.add_sub_cancel_left]
  simp

/-- The front of a window is the smaller window at the same head. -/
theorem window_take {count : Nat} (cap : Nat) (slots : Nat → α) (head : Nat) (h : count ≤ size) :
    (window cap slots head size).take count = window cap slots head count := by
  obtain ⟨rest, rfl⟩ := Nat.exists_eq_add_of_le h
  rw [window_add]
  simp

variable {slots : Nat → α}

variable {slots' : Nat → α}

/-- Arrays that agree on the slots of a window have the same window. -/
theorem window_congr
    (h : ∀ offset, offset < size → slots' (slot cap head offset) = slots (slot cap head offset)) :
    window cap slots' head size = window cap slots head size := by
  apply map_congr_left
  intro offset hoffset
  exact h offset (mem_range.mp hoffset)

/-- Writing inside the window replaces one element of it. -/
theorem window_update_inside (slots : Nat → α) (value : α) (h : offset < size) (fits : size ≤ cap) :
    window cap (Function.update slots (slot cap head offset) value) head size =
      (window cap slots head size).set offset value := by
  apply ext_getElem
  · simp
  · intro other hother _
    simp only [length_window] at hother
    by_cases same : offset = other
    · subst same
      simp
    · have apart : slot cap head other ≠ slot cap head offset := by
        intro e
        exact same (slot_inj e (by omega) (by omega)).symm
      simp [same, apart]

/-- Writing behind the window leaves it as it is. -/
theorem window_update_outside (slots : Nat → α) (value : α) (h : size ≤ offset)
    (fits : offset < cap) :
    window cap (Function.update slots (slot cap head offset) value) head size =
      window cap slots head size := by
  apply window_congr
  intro other hother
  have apart : slot cap head other ≠ slot cap head offset := by
    intro e
    have := slot_inj e (by omega) fits
    omega
  simp [apart]

/-- A slot before the end of the array. -/
theorem slot_of_lt (h : head + offset < cap) :
    slot cap head offset = head + offset :=
  Nat.mod_eq_of_lt h

/-- A slot past the end of the array wraps to its left edge. -/
theorem slot_of_ge (h : cap ≤ head + offset) (once : head + offset < 2 * cap) :
    slot cap head offset = head + offset - cap := by
  unfold slot
  rw [Nat.mod_eq_sub_mod h, Nat.mod_eq_of_lt]
  omega

/-- A window that does not reach past the end of the array is a stretch of it. -/
theorem window_of_fits (slots : Nat → α) (fits : head + size ≤ cap) :
    window cap slots head size = Memory.span slots head size := by
  apply map_congr_left
  intro offset hoffset
  have inside := mem_range.mp hoffset
  rw [slot_of_lt (by omega)]

/-- A window that wraps is the stretch up to the end of the array and one from its left
edge. -/
theorem window_of_wraps (slots : Nat → α) (inside : head < cap) (wraps : cap < head + size)
    (once : size ≤ cap) :
    window cap slots head size =
      Memory.span slots head (cap - head) ++ Memory.span slots 0 (size - (cap - head)) := by
  have parts : size = (cap - head) + (size - (cap - head)) := by omega
  have edge : slot cap head (cap - head) = 0 := by
    rw [slot_of_ge (by omega) (by omega)]
    omega
  have split := window_add cap slots head (cap - head) (size - (cap - head))
  rw [← parts] at split
  rw [split, edge, window_of_fits slots (by omega), window_of_fits slots (by omega)]

/-- The array with `data` in the slots from `head` on. -/
def storeWindow (cap : Nat) (slots : Nat → α) (head : Nat) (data : List α) : Nat → α :=
  if head + data.length ≤ cap then Memory.store slots head data
  else Memory.store (Memory.store slots head (data.take (cap - head))) 0 (data.drop (cap - head))

variable {data : List α}

/-- The window that was stored. -/
theorem window_storeWindow (slots : Nat → α) (inside : head < cap) (fits : data.length ≤ cap) :
    window cap (storeWindow cap slots head data) head data.length = data := by
  unfold storeWindow
  by_cases contiguous : head + data.length ≤ cap
  · rw [if_pos contiguous, window_of_fits _ contiguous, Memory.span_store]
  · have front : (data.take (cap - head)).length = cap - head := by
      rw [length_take]
      omega
    have back : (data.drop (cap - head)).length = data.length - (cap - head) :=
      length_drop
    rw [if_neg contiguous, window_of_wraps _ inside (by omega) fits,
      Memory.span_store_apart _ (by omega), ← back, Memory.span_store]
    have stored := Memory.span_store slots head (data.take (cap - head))
    rw [front] at stored
    rw [stored, take_append_drop]

/-- The slots behind the stored window keep their elements. -/
theorem storeWindow_outside (slots : Nat → α) (inside : head < cap)
    (behind : data.length ≤ offset) (once : offset < cap) :
    storeWindow cap slots head data (slot cap head offset) = slots (slot cap head offset) := by
  unfold storeWindow
  by_cases contiguous : head + data.length ≤ cap
  · rw [if_pos contiguous]
    apply Memory.store_outside
    by_cases before : head + offset < cap
    · rw [slot_of_lt before]
      omega
    · rw [slot_of_ge (by omega) (by omega)]
      omega
  · rw [if_neg contiguous, slot_of_ge (by omega) (by omega)]
    rw [Memory.store_outside, Memory.store_outside]
    · omega
    · rw [length_drop]
      omega

/-- Storing behind a window leaves it as it is. -/
theorem window_storeWindow_before (slots : Nat → α) (inside : head < cap)
    (fits : size + data.length ≤ cap) :
    window cap (storeWindow cap slots (slot cap head size) data) head size =
      window cap slots head size := by
  have positive : 0 < cap := by omega
  apply window_congr
  intro offset hoffset
  -- seen from the end of the window, its slots lie behind the stored ones
  have turn : slot cap head offset = slot cap (slot cap head size) (cap - size + offset) := by
    have round : size + (cap - size + offset) = offset + cap := by omega
    rw [slot_slot, round]
    simp [slot, ← Nat.add_assoc]
  rw [turn]
  apply storeWindow_outside slots (slot_lt positive)
  · omega
  · omega

/-- Storing leaves the window behind the stored list as it is. -/
theorem window_storeWindow_after {count : Nat} (slots : Nat → α) (inside : head < cap)
    (fits : data.length + count ≤ cap) :
    window cap (storeWindow cap slots head data) (slot cap head data.length) count =
      window cap slots (slot cap head data.length) count := by
  apply window_congr
  intro offset hoffset
  rw [slot_slot]
  apply storeWindow_outside slots inside
  · omega
  · omega

/-- Storing behind a window appends to it. -/
theorem window_append (slots : Nat → α) (inside : head < cap) (fits : size + data.length ≤ cap) :
    window cap (storeWindow cap slots (slot cap head size) data) head (size + data.length) =
      window cap slots head size ++ data := by
  have positive : 0 < cap := by omega
  rw [window_add, window_storeWindow slots (slot_lt positive) (by omega),
    window_storeWindow_before slots inside fits]

/-- Storing at the start of a window replaces its front. -/
theorem window_overwrite (slots : Nat → α) (inside : head < cap) (fits : data.length ≤ size)
    (once : size ≤ cap) :
    window cap (storeWindow cap slots head data) head size =
      data ++ (window cap slots head size).drop data.length := by
  obtain ⟨rest, rfl⟩ := Nat.exists_eq_add_of_le fits
  rw [window_add, window_storeWindow slots inside (by omega),
    window_storeWindow_after slots inside once, ← window_drop _ _ _ fits,
    Nat.add_sub_cancel_left]

/-- Every slot outside the window satisfies `p`. -/
def Outside (p : α → Prop) (cap : Nat) (slots : Nat → α) (head size : Nat) : Prop :=
  ∀ offset, size ≤ offset → offset < cap → p (slots (slot cap head offset))

section
variable {p : α → Prop} (h : Outside p cap slots head size)
include h

/-- A larger window has fewer slots outside. -/
theorem Outside.grow {size' : Nat} (larger : size ≤ size') : Outside p cap slots head size' := by
  intro offset hlow hhigh
  exact h offset (by omega) hhigh

/-- Writing inside the window changes nothing outside it. -/
theorem Outside.update {value : α} (inside : offset < size) (fits : size ≤ cap) :
    Outside p cap (Function.update slots (slot cap head offset) value) head size := by
  intro other hlow hhigh
  have apart : slot cap head other ≠ slot cap head offset := by
    intro e
    have := slot_inj e hhigh (by omega)
    omega
  rw [Function.update_of_ne apart]
  exact h other hlow hhigh

/-- Moving the head over slots that now satisfy `p` keeps the slots outside the rest of
the window satisfying it. -/
theorem Outside.advance {count : Nat} (hcount : count ≤ size)
    (cleared : ∀ offset, offset < count → p (slots' (slot cap head offset)))
    (kept : ∀ offset, count ≤ offset → offset < cap →
      slots' (slot cap head offset) = slots (slot cap head offset)) :
    Outside p cap slots' (slot cap head count) (size - count) := by
  intro offset hlow hhigh
  rw [slot_slot]
  by_cases wrapped : count + offset < cap
  · rw [kept _ (by omega) wrapped]
    exact h _ (by omega) wrapped
  · have same : slot cap head (count + offset) = slot cap head (count + offset - cap) := by
      unfold slot
      have e : head + (count + offset) = head + (count + offset - cap) + cap := by omega
      rw [e, Nat.add_mod_right]
    rw [same]
    exact cleared _ (by omega)

end

end Circular
