import Mathlib.Algebra.BigOperators.Group.Finset.Piecewise

/-!
# Directed graphs as adjacency lists

The vertices are the numbers below a bound, and every vertex has the list of its successors.
The number of arcs and the in-degrees change by what one list changes by, and removing a
vertex takes off its in-degree and its own successors.
-/

namespace Adjacency
open Function

/-- The number of arcs. -/
def arcs (bound : Nat) (out : Nat → List Nat) : Nat :=
  ∑ vertex ∈ Finset.range bound, (out vertex).length

/-- The number of vertices that have a vertex among their successors. -/
def inDegree (bound : Nat) (out : Nat → List Nat) (vertex : Nat) : Nat :=
  ((Finset.range bound).filter fun source => vertex ∈ out source).card

variable {bound : Nat}

variable {vertex : Nat}

/-- A sum over the vertices after one value was replaced. -/
theorem sum_update (value : Nat → Nat) (inside : vertex < bound) (new : Nat) :
    (∑ other ∈ Finset.range bound, update value vertex new other) + value vertex =
      (∑ other ∈ Finset.range bound, value other) + new := by
  have member := Finset.mem_range.mpr inside
  have others := Finset.add_sum_erase (Finset.range bound) value member
  rw [Finset.sum_update_of_mem member, Finset.sdiff_singleton_eq_erase]
  omega

/-- The arcs after one list was replaced. -/
theorem arcs_update (out : Nat → List Nat) (inside : vertex < bound) (list : List Nat) :
    arcs bound (update out vertex list) + (out vertex).length =
      arcs bound out + list.length := by
  have sum := sum_update (fun other => (out other).length) inside list.length
  have lengths : (fun other => (update out vertex list other).length) =
      update (fun other => (out other).length) vertex list.length := by
    funext other
    by_cases same : other = vertex
    · subst same
      simp
    · simp [same]
  unfold arcs
  rw [lengths]
  exact sum

/-- An in-degree after one list was replaced. -/
theorem inDegree_update (out : Nat → List Nat) {source : Nat} (inside : source < bound)
    (list : List Nat) (vertex : Nat) :
    inDegree bound (update out source list) vertex +
        (if vertex ∈ out source then 1 else 0) =
      inDegree bound out vertex + (if vertex ∈ list then 1 else 0) := by
  have sum := sum_update (fun other => if vertex ∈ out other then 1 else 0) inside
    (if vertex ∈ list then 1 else 0)
  have indicators : (fun other => if vertex ∈ update out source list other then 1 else 0) =
      update (fun other => if vertex ∈ out other then 1 else 0) source
        (if vertex ∈ list then 1 else 0) := by
    funext other
    by_cases same : other = source
    · subst same
      simp
    · simp [same]
  unfold inDegree
  rw [Finset.card_filter, Finset.card_filter, indicators]
  exact sum

/-- A vertex that is nowhere a successor has no in-degree. -/
theorem inDegree_eq_zero {out : Nat → List Nat}
    (h : ∀ source, source < bound → vertex ∉ out source) :
    inDegree bound out vertex = 0 := by
  rw [inDegree, Finset.card_eq_zero, Finset.filter_eq_empty_iff]
  intro source member
  exact h source (Finset.mem_range.mp member)

/-- One more vertex may be a source. -/
theorem inDegree_succ (out : Nat → List Nat) (vertex : Nat) :
    inDegree (bound + 1) out vertex =
      inDegree bound out vertex + (if vertex ∈ out bound then 1 else 0) := by
  unfold inDegree
  rw [Finset.card_filter, Finset.card_filter, Finset.sum_range_succ]

/-- Taking a vertex out of all lists takes off its in-degree. -/
theorem arcs_erase (bound : Nat) (out : Nat → List Nat) (vertex : Nat) :
    arcs bound (fun source => (out source).erase vertex) + inDegree bound out vertex =
      arcs bound out := by
  unfold arcs inDegree
  rw [Finset.card_filter, ← Finset.sum_add_distrib]
  apply Finset.sum_congr rfl
  intro source _
  dsimp only
  by_cases member : vertex ∈ out source
  · have positive := List.length_pos_of_mem member
    rw [List.length_erase_of_mem member, if_pos member]
    omega
  · rw [List.erase_of_not_mem member, if_neg member, Nat.add_zero]

end Adjacency
