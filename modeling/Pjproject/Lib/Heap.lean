import Mathlib.Data.List.Basic
import Mathlib.Tactic.Ring

/-!
# A heap without deallocation

Objects are allocated in a pool and addressed by their position. A pointer is an optional
address. A set of roots is apart if its pointers are valid and no two of them have the same
address: a write through one root is then seen through no other one, and an allocation through
none.
-/

/-- The objects of a heap. -/
abbrev Heap (α : Type*) := List α

namespace Heap

variable {α : Type*} {heap : Heap α}

/-- A pointer, which may be null. -/
abbrev Ptr := Option Nat

/-- A new object at the end. -/
def alloc (heap : Heap α) (object : α) : Heap α := heap ++ [object]

/-- The pointer to the object that `alloc` adds. -/
def fresh (heap : Heap α) : Ptr := some heap.length

/-- What a pointer points to. -/
def read (heap : Heap α) (ptr : Ptr) : Option α := ptr.bind fun address => heap[address]?

/-- A change of what a pointer points to. -/
def write (heap : Heap α) (ptr : Ptr) (object : α) : Heap α :=
  ptr.elim heap fun address => heap.set address object

/-- The pointer is null or points to an object. -/
def Valid (heap : Heap α) (ptr : Ptr) : Prop := ∀ address ∈ ptr, address < heap.length

/-- One of the pointers is null, or they differ. -/
def Apart (left right : Ptr) : Prop := ∀ address ∈ left, right ≠ some address

@[simp] theorem length_alloc (heap : Heap α) (object : α) :
    (alloc heap object).length = heap.length + 1 := by
  simp [alloc]

@[simp] theorem length_write (heap : Heap α) (ptr : Ptr) (object : α) :
    (write heap ptr object).length = heap.length := by
  cases ptr <;> simp [write]

@[simp] theorem valid_none (heap : Heap α) : Valid heap none := nofun

variable {ptr : Ptr}

@[simp] theorem Valid.alloc (h : Valid heap ptr) (object : α) :
    Valid (Heap.alloc heap object) ptr :=
  fun address member => by
    rw [length_alloc]
    exact Nat.lt_succ_of_lt (h address member)

@[simp] theorem Valid.write (h : Valid heap ptr) (target : Ptr) (object : α) :
    Valid (Heap.write heap target object) ptr :=
  fun address member => by
    rw [length_write]
    exact h address member

@[simp] theorem valid_fresh (heap : Heap α) (object : α) :
    Valid (alloc heap object) (fresh heap) := by
  intro address member
  obtain rfl := Option.some.inj member
  simp

/-- A pointer that reads an object is not null. -/
theorem ne_none_of_read {object : α} (h : read heap ptr = some object) :
    ptr ≠ none := by
  intro null
  rw [null] at h
  contradiction

/-- A valid pointer that is not null reads an object. -/
theorem Valid.read_eq_none (h : Valid heap ptr) :
    read heap ptr = none ↔ ptr = none := by
  cases ptr with
  | none => exact iff_of_true rfl rfl
  | some address => simp [read, h address rfl]

@[simp] theorem read_alloc_fresh (heap : Heap α) (object : α) :
    read (alloc heap object) (fresh heap) = some object := by
  simp [read, alloc, fresh]

/-- An allocation does not change what is read through a valid pointer. -/
@[simp] theorem Valid.read_alloc (h : Valid heap ptr) (object : α) :
    read (Heap.alloc heap object) ptr = read heap ptr := by
  cases ptr with
  | none => rfl
  | some address => exact List.getElem?_append_left (h address rfl)

theorem Valid.read_write (h : Valid heap ptr) (nonnull : ptr ≠ none) (object : α) :
    read (Heap.write heap ptr object) ptr = some object := by
  cases ptr with
  | none => exact absurd rfl nonnull
  | some address => simp [read, Heap.write, h address rfl]

@[simp] theorem Apart.none_left (ptr : Ptr) : Apart none ptr := nofun

@[simp] theorem Apart.none_right (ptr : Ptr) : Apart ptr none := nofun

theorem Apart.symm {left right : Ptr} (h : Apart left right) : Apart right left :=
  fun address member other => h address other member

/-- A fresh pointer is apart from the valid ones. -/
@[simp] theorem Valid.apart_fresh (h : Valid heap ptr) : Apart ptr (fresh heap) := by
  intro address member same
  have bound := h address member
  have address_eq := Option.some.inj same
  omega

@[simp] theorem Valid.fresh_apart (h : Valid heap ptr) : Apart (fresh heap) ptr :=
  h.apart_fresh.symm

/-- A write through one pointer is not seen through another one. -/
theorem Apart.read_write {left right : Ptr} (h : Apart left right) (object : α) :
    read (write heap left object) right = read heap right := by
  cases left with
  | none => rfl
  | some target =>
    cases right with
    | none => rfl
    | some address =>
      have differ : target ≠ address := fun same => h target rfl (congrArg some same.symm)
      simp [read, write, List.getElem?_set_ne differ]

/-! ## Roots -/

/-- The roots are valid and apart from each other. -/
structure Separate (heap : Heap α) (roots : List Ptr) : Prop where
  valid : ∀ ptr ∈ roots, Valid heap ptr
  apart : roots.Pairwise Apart

theorem Separate.write {roots : List Ptr} (h : Separate heap roots) (target : Ptr) (object : α) :
    Separate (Heap.write heap target object) roots :=
  { valid := fun ptr member => (h.valid ptr member).write target object, apart := h.apart }

end Heap
