import Mathlib.Algebra.GroupWithZero.Nat
import Mathlib.Order.Interval.Finset.Nat

/-!
# Regions of an address space

A region is a start address and a size. Regions that are apart from each other are no larger
together than the addresses they lie in.
-/

/-- Consecutive addresses. -/
structure Region where
  start : Nat
  size : Nat
deriving DecidableEq, Repr

namespace Region

/-- The address behind the region. -/
def stop (region : Region) : Nat := region.start + region.size

/-- No address is in both regions, and one is behind the other. -/
def Apart (left right : Region) : Prop := left.stop ≤ right.start ∨ right.stop ≤ left.start

instance (left right : Region) : Decidable (Apart left right) :=
  inferInstanceAs (Decidable (_ ∨ _))

theorem Apart.symm {left right : Region} (h : Apart left right) : Apart right left := Or.symm h

/-- A region inside another one. -/
def Inside (inner outer : Region) : Prop := outer.start ≤ inner.start ∧ inner.stop ≤ outer.stop

/-- Regions inside ones that are apart are apart. -/
theorem Apart.inside {left right inner inner' : Region} (h : Apart left right)
    (hleft : Inside inner left) (hright : Inside inner' right) : Apart inner inner' := by
  have ⟨start, stop⟩ := hleft
  have ⟨start', stop'⟩ := hright
  rcases h with below | above
  · exact .inl (by omega)
  · exact .inr (by omega)

/-- The addresses of some regions. -/
def addresses (regions : List Region) : Finset Nat :=
  regions.foldr (fun region rest => Finset.Ico region.start region.stop ∪ rest) ∅

variable {regions : List Region}

theorem mem_addresses {address : Nat} :
    address ∈ addresses regions ↔
      ∃ region ∈ regions, region.start ≤ address ∧ address < region.stop := by
  induction regions with
  | nil => simp [addresses]
  | cons region rest ih =>
    rw [addresses, List.foldr_cons, ← addresses, Finset.mem_union, Finset.mem_Ico, ih]
    simp

/-- Regions that are apart have as many addresses as their sizes together. -/
theorem card_addresses (apart : regions.Pairwise Apart) :
    (addresses regions).card = (regions.map size).sum := by
  induction regions with
  | nil => rfl
  | cons region rest ih =>
    have ⟨others, later⟩ := List.pairwise_cons.mp apart
    have disjoint : Disjoint (Finset.Ico region.start region.stop) (addresses rest) := by
      rw [Finset.disjoint_left]
      intro address here there
      have ⟨lower, upper⟩ := Finset.mem_Ico.mp here
      have ⟨other, member, lower', upper'⟩ := mem_addresses.mp there
      have order := others other member
      unfold Apart at order
      omega
    rw [addresses, List.foldr_cons, ← addresses, Finset.card_union_of_disjoint disjoint, ih later,
      Nat.card_Ico, List.map_cons, List.sum_cons, stop, Nat.add_sub_cancel_left]

/-- Regions that are apart are no larger together than what they lie in. -/
theorem sum_size_le (apart : regions.Pairwise Apart) (lower upper : Nat)
    (inside : ∀ region ∈ regions, lower ≤ region.start ∧ region.stop ≤ upper) :
    (regions.map size).sum ≤ upper - lower := by
  rw [← card_addresses apart, ← Nat.card_Ico]
  refine Finset.card_le_card fun address member => ?_
  have ⟨region, inRegions, start, stop⟩ := mem_addresses.mp member
  have bounds := inside region inRegions
  exact Finset.mem_Ico.mpr (by omega)

end Region
