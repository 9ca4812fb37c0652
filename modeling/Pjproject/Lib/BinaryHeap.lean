import Mathlib.Data.List.Nodup
import Mathlib.Tactic.Ring

/-!
# Binary heaps in an array

The first `count` places of an array are a binary tree: the parent of a place is at half its
position. A heap is ordered if no key is smaller than that of its parent. Where one place breaks
the order, exchanging it with its parent, or with the smaller one of its children, moves the
break, until the heap is ordered.
-/

namespace BinaryHeap
open Function List

/-- The parent of a place; the root is its own. -/
def parent (place : Nat) : Nat := (place - 1) / 2

/-- The first child of a place. -/
def left (place : Nat) : Nat := 2 * place + 1

variable {place : Nat}

theorem parent_lt (h : 0 < place) : parent place < place := by
  unfold parent
  omega

theorem parent_le (place : Nat) : parent place ≤ place := by
  unfold parent
  omega

theorem parent_left (place : Nat) : parent (left place) = place := by
  unfold parent left
  omega

/-- A place with a parent is one of the two children. -/
theorem eq_left_of_parent {child : Nat} (h : 0 < child) (childOf : parent child = place) :
    child = left place ∨ child = left place + 1 := by
  unfold parent at childOf
  unfold left
  omega

/-! ## Order -/

section Order

variable {τ : Type*} [LinearOrder τ] {key : Nat → τ} {count : Nat}

/-- No key is smaller than that of its parent. -/
def Ordered (key : Nat → τ) (count : Nat) : Prop :=
  ∀ i, 0 < i → i < count → key (parent i) ≤ key i

/-- Only the key at a place may be smaller than that of its parent. -/
structure UpTo (key : Nat → τ) (count place : Nat) : Prop where
  others : ∀ i, 0 < i → i < count → i ≠ place → key (parent i) ≤ key i
  grand : 0 < place → ∀ i, 0 < i → i < count → parent i = place → key (parent place) ≤ key i

/-- Only the key at a place may be larger than those of its children. -/
structure DownTo (key : Nat → τ) (count place : Nat) : Prop where
  others : ∀ i, 0 < i → i < count → parent i ≠ place → key (parent i) ≤ key i
  grand : 0 < place → ∀ i, 0 < i → i < count → parent i = place → key (parent place) ≤ key i

/-- The root has the smallest key. -/
theorem Ordered.root_le (h : Ordered key count) {i : Nat} (bound : i < count) : key 0 ≤ key i := by
  induction i using Nat.strongRecOn with
  | ind i ih =>
    rcases Nat.eq_zero_or_pos i with rfl | positive
    · exact le_rfl
    · have smaller := parent_lt positive
      exact (ih (parent i) smaller (by omega)).trans (h i positive bound)

theorem Ordered.mono (h : Ordered key count) {count' : Nat} (le : count' ≤ count) :
    Ordered key count' := fun i positive bound => h i positive (by omega)

/-- A new place at the end. -/
theorem Ordered.insert (h : Ordered key count) : UpTo key (count + 1) count where
  others i positive bound other := h i positive (by omega)
  grand _ i positive bound childOf := by
    have smaller := parent_lt positive
    omega

section
variable {key' : Nat → τ} (h : Ordered key count) (bound : place < count)
  (others : ∀ i, i ≠ place → key' i = key i)
include h bound others

/-- A place gets a key that is not smaller than that of its parent. -/
theorem Ordered.replace_down (above : key' (parent place) ≤ key' place) :
    DownTo key' count place where
  others i positive bound' notChild := by
    by_cases same : i = place
    · rw [same]
      exact above
    · rw [others i same, others _ notChild]
      exact h i positive bound'
  grand positive i positive' bound' childOf := by
    have smaller := parent_lt positive
    have smaller' := parent_lt positive'
    rw [others _ (by omega), others i (by omega)]
    exact (h place positive bound).trans (childOf ▸ h i positive' bound')

/-- A place gets a key that is not larger than those of its children. -/
theorem Ordered.replace_up (below : key' place ≤ key place) :
    UpTo key' count place where
  others i positive bound' other := by
    rw [others i other]
    by_cases childOf : parent i = place
    · rw [childOf]
      exact below.trans (childOf ▸ h i positive bound')
    · rw [others _ childOf]
      exact h i positive bound'
  grand positive i positive' bound' childOf := by
    have smaller := parent_lt positive
    have smaller' := parent_lt positive'
    rw [others _ (by omega), others i (by omega)]
    exact (h place positive bound).trans (childOf ▸ h i positive' bound')

end

theorem UpTo.ordered (h : UpTo key count place)
    (settled : 0 < place → key (parent place) ≤ key place) : Ordered key count := by
  intro i positive bound
  by_cases same : i = place
  · rw [same] at positive ⊢
    exact settled positive
  · exact h.others i positive bound same

theorem DownTo.ordered (h : DownTo key count place)
    (settled : ∀ i, 0 < i → i < count → parent i = place → key place ≤ key i) :
    Ordered key count := by
  intro i positive bound
  by_cases childOf : parent i = place
  · rw [childOf]
    exact settled i positive bound childOf
  · exact h.others i positive bound childOf

/-- The break moves up. -/
theorem UpTo.exchange (h : UpTo key count place) (positive : 0 < place) (bound : place < count)
    (smaller : key place < key (parent place)) :
    UpTo (key ∘ Equiv.swap place (parent place)) count (parent place) where
  others i positive' bound' other := by
    have less := parent_lt positive
    have less' := parent_lt positive'
    simp only [comp_apply]
    rw [Equiv.swap_apply_def, Equiv.swap_apply_def]
    by_cases same : i = place
    · rw [if_pos same, same, if_neg (by omega), if_pos rfl]
      exact smaller.le
    · rw [if_neg same, if_neg other]
      by_cases child : parent i = place
      · rw [if_pos child]
        exact h.grand positive i positive' bound' child
      · rw [if_neg child]
        by_cases sibling : parent i = parent place
        · rw [if_pos sibling]
          exact smaller.le.trans (sibling ▸ h.others i positive' bound' same)
        · rw [if_neg sibling]
          exact h.others i positive' bound' same
  grand positive' i positiveI bound' childOf := by
    have less := parent_lt positive
    have less' := parent_lt positive'
    have lessI := parent_lt positiveI
    have above := h.others (parent place) positive' (by omega) (by omega)
    simp only [comp_apply]
    rw [Equiv.swap_apply_of_ne_of_ne (by omega) (by omega), Equiv.swap_apply_def]
    by_cases same : i = place
    · rw [if_pos same]
      exact above
    · rw [if_neg same, if_neg (by omega)]
      exact above.trans (childOf ▸ h.others i positiveI bound' same)

/-- The break moves down to the smaller child. -/
theorem DownTo.exchange {child : Nat} (h : DownTo key count place) (positive : 0 < child)
    (bound : child < count) (childOf : parent child = place)
    (least : ∀ i, 0 < i → i < count → parent i = place → key child ≤ key i)
    (smaller : key child < key place) :
    DownTo (key ∘ Equiv.swap place child) count child where
  others i positive' bound' notChild := by
    have less := parent_lt positive
    have less' := parent_lt positive'
    simp only [comp_apply]
    rw [Equiv.swap_apply_def, Equiv.swap_apply_def, if_neg notChild]
    by_cases below : parent i = place
    · rw [if_pos below, if_neg (by omega)]
      by_cases same : i = child
      · rw [if_pos same]
        exact smaller.le
      · rw [if_neg same]
        exact least i positive' bound' below
    · rw [if_neg below]
      have notSame : i ≠ child := fun same => below (same ▸ childOf)
      by_cases here : i = place
      · rw [if_pos here, here]
        exact h.grand (here ▸ positive') child positive bound childOf
      · rw [if_neg here, if_neg notSame]
        exact h.others i positive' bound' below
  grand _ i positive' bound' below := by
    have less := parent_lt positive
    have less' := parent_lt positive'
    simp only [comp_apply]
    rw [childOf, Equiv.swap_apply_left, Equiv.swap_apply_of_ne_of_ne (by omega) (by omega)]
    rw [← below]
    exact h.others i positive' bound' (by omega)

end Order

/-! ## Rearrangements -/

section Rearranged

variable {α β : Type*} {count : Nat} {items items' items'' : Nat → α}

/-- The first places of an array hold the same items in another order. -/
def Rearranged (count : Nat) (items items' : Nat → α) : Prop :=
  ∃ places : Equiv.Perm Nat, (∀ i, places i < count ↔ i < count) ∧ items' = items ∘ places

theorem Rearranged.refl (count : Nat) (items : Nat → α) : Rearranged count items items :=
  ⟨Equiv.refl Nat, fun _ => Iff.rfl, rfl⟩

theorem Rearranged.trans (h : Rearranged count items items')
    (h' : Rearranged count items' items'') : Rearranged count items items'' := by
  obtain ⟨places, inside, rfl⟩ := h
  obtain ⟨places', inside', rfl⟩ := h'
  exact ⟨places'.trans places, fun i => (inside (places' i)).trans (inside' i), rfl⟩

theorem Rearranged.swap {place' : Nat} (bound : place < count) (bound' : place' < count)
    (items : Nat → α) : Rearranged count items (items ∘ Equiv.swap place place') := by
  refine ⟨Equiv.swap place place', fun i => ?_, rfl⟩
  rw [Equiv.swap_apply_def]
  split
  · omega
  · split <;> omega

/-- The items are the same. -/
theorem Rearranged.exists_iff (h : Rearranged count items items') (item : α) :
    (∃ i < count, items' i = item) ↔ ∃ i < count, items i = item := by
  obtain ⟨places, inside, rfl⟩ := h
  constructor
  · rintro ⟨i, bound, same⟩
    exact ⟨places i, (inside i).mpr bound, same⟩
  · rintro ⟨i, bound, same⟩
    refine ⟨places.symm i, (inside _).mp ?_, ?_⟩
    · rwa [Equiv.apply_symm_apply]
    · rwa [comp_apply, Equiv.apply_symm_apply]

theorem Rearranged.perm (h : Rearranged count items items') (f : α → β) :
    ((List.range count).map fun i => f (items' i)).Perm
      ((List.range count).map fun i => f (items i)) := by
  obtain ⟨places, inside, rfl⟩ := h
  have range : ((List.range count).map places).Perm (List.range count) := by
    refine (perm_ext_iff_of_nodup (nodup_range.map places.injective)
      nodup_range).mpr fun i => ?_
    rw [mem_map, mem_range]
    constructor
    · rintro ⟨j, member, rfl⟩
      exact (inside j).mpr (mem_range.mp member)
    · intro bound
      refine ⟨places.symm i, mem_range.mpr ((inside _).mp ?_), places.apply_symm_apply i⟩
      rwa [Equiv.apply_symm_apply]
  have mapped := range.map fun i => f (items i)
  rwa [map_map] at mapped

/-- An item at the end. -/
theorem map_range_insert (count : Nat) (f : Nat → β) (item : β) :
    (List.range (count + 1)).map (update f count item) =
      (List.range count).map f ++ [item] := by
  have before : (List.range count).map (update f count item) =
      (List.range count).map f := by
    refine map_congr_left fun i member => update_of_ne ?_ _ _
    exact Nat.ne_of_lt (mem_range.mp member)
  rw [range_succ, map_append, before, map_singleton, update_self]

/-- The last item takes the place of one that is removed. -/
theorem map_range_remove (bound : place ≤ count) (f : Nat → β) :
    (f place :: (List.range count).map (update f place (f count))).Perm
      ((List.range (count + 1)).map f) := by
  have swapped := (Rearranged.swap (Nat.lt_succ_of_le bound) (Nat.lt_succ_self count) f).perm id
  have before : (List.range count).map (fun i => id ((f ∘ Equiv.swap place count) i)) =
      (List.range count).map (update f place (f count)) := by
    refine map_congr_left fun i member => ?_
    have less : i ≠ count := Nat.ne_of_lt (mem_range.mp member)
    by_cases here : i = place
    · rw [here, update_self, id, comp_apply, Equiv.swap_apply_left]
    · rw [update_of_ne here, id, comp_apply,
        Equiv.swap_apply_of_ne_of_ne here less]
  rw [range_succ, map_append, before, map_singleton, id, comp_apply,
    Equiv.swap_apply_right, ← range_succ] at swapped
  exact (perm_append_singleton _ _).symm.trans swapped

end Rearranged

end BinaryHeap
