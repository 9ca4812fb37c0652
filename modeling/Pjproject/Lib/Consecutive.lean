import Mathlib.Data.List.Basic
import Mathlib.Tactic.Ring

/-!
# Consecutive stretches

Items that each take a stretch of addresses are consecutive from a lower to an upper address if
the first one starts at the lower address, every other one where the one before it stops, and the
last one stops at the upper address.
-/

namespace Consecutive

variable {α : Type*} {start stop : α → Nat}

/-- The items take the addresses from `lower` to `upper`, in this order and without a gap. -/
def Chain (start stop : α → Nat) : Nat → Nat → List α → Prop
  | lower, upper, [] => lower = upper
  | lower, upper, item :: rest =>
    start item = lower ∧ start item < stop item ∧ Chain start stop (stop item) upper rest

variable {lower upper : Nat}

@[simp] theorem chain_nil :
    Chain start stop lower upper [] ↔ lower = upper := Iff.rfl

variable {item : α}

theorem chain_cons {rest : List α} :
    Chain start stop lower upper (item :: rest) ↔
      start item = lower ∧ start item < stop item ∧ Chain start stop (stop item) upper rest :=
  Iff.rfl

variable {items : List α}

/-- One item behind the others. -/
theorem chain_concat :
    Chain start stop lower upper (items ++ [item]) ↔
      Chain start stop lower (start item) items ∧ start item < stop item ∧
        stop item = upper := by
  induction items generalizing lower with
  | nil => simp only [List.nil_append, chain_cons, chain_nil, eq_comm]
  | cons first rest ih => simp only [List.cons_append, chain_cons, ih, and_assoc]

/-- Items go upwards. -/
theorem Chain.le (h : Chain start stop lower upper items) :
    lower ≤ upper := by
  induction items generalizing lower with
  | nil => exact Nat.le_of_eq h
  | cons item rest ih =>
    have ⟨first, size, later⟩ := h
    have bound := ih later
    omega

/-- One item or more take some addresses. -/
theorem Chain.lt (h : Chain start stop lower upper items) (some : items ≠ []) : lower < upper := by
  cases items with
  | nil => exact absurd rfl some
  | cons item rest =>
    have ⟨first, size, later⟩ := h
    have bound := later.le
    omega

/-- No addresses, no items. -/
theorem Chain.eq_nil (h : Chain start stop lower lower items) :
    items = [] := by
  by_contra some
  exact Nat.lt_irrefl lower (h.lt some)

/-- Each item is between the ends. -/
theorem Chain.bounds (h : Chain start stop lower upper items) (member : item ∈ items) :
    lower ≤ start item ∧ start item < stop item ∧ stop item ≤ upper := by
  induction items generalizing lower with
  | nil => contradiction
  | cons first rest ih =>
    have ⟨here, size, later⟩ := h
    have bound := later.le
    rcases List.mem_cons.mp member with rfl | member
    · omega
    · have inside := ih later member
      omega

/-- Each item stops before the later ones start. -/
theorem Chain.pairwise (h : Chain start stop lower upper items) :
    items.Pairwise fun item later => stop item ≤ start later := by
  induction items generalizing lower with
  | nil => exact .nil
  | cons item rest ih =>
    have ⟨_, _, later⟩ := h
    exact .cons (fun other member => (later.bounds member).1) (ih later)

end Consecutive
