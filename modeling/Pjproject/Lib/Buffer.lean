import Mathlib.Data.List.Basic
import Mathlib.Tactic.Ring

/-!
# Writes to a buffer

A buffer of a fixed length is a list. A write replaces a stretch of it, and has no result if the
stretch is not inside the buffer.
-/

namespace Buffer

variable {α : Type*} {buf after : List α} {offset : Nat} {data : List α}

/-- The buffer with `data` from `offset` on. -/
def write (buf : List α) (offset : Nat) (data : List α) : Option (List α) :=
  if offset + data.length ≤ buf.length then
    some (buf.take offset ++ data ++ buf.drop (offset + data.length))
  else none

theorem write_inside (h : offset + data.length ≤ buf.length) :
    write buf offset data = some (buf.take offset ++ data ++ buf.drop (offset + data.length)) :=
  if_pos h

section
variable (h : write buf offset data = some after)
include h

/-- A write that has a result is inside the buffer. -/
theorem inside_of_write : offset + data.length ≤ buf.length := by
  by_contra outside
  rw [write, if_neg outside] at h
  cases h

theorem eq_of_write : after = buf.take offset ++ data ++ buf.drop (offset + data.length) := by
  rw [write_inside (inside_of_write h)] at h
  exact (Option.some.inj h).symm

/-- A write keeps the length. -/
theorem length_write : after.length = buf.length := by
  have inside := inside_of_write h
  rw [eq_of_write h]
  simp only [List.length_append, List.length_take, List.length_drop]
  omega

/-- What stands before the end of a write: what stood before it, and what it wrote. -/
theorem take_write : after.take (offset + data.length) = buf.take offset ++ data := by
  have inside := inside_of_write h
  have length : (buf.take offset ++ data).length = offset + data.length := by
    rw [List.length_append, List.length_take, Nat.min_eq_left (by omega)]
  rw [eq_of_write h, ← length]
  exact List.take_left

end

end Buffer
