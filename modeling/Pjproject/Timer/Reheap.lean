import Pjproject.Timer.TimerHeap

/-!
# Restoring the order of a timer heap

While `reheap_up` and `reheap_down` run, one slot of the heap is a hole, for the entry that is
moved. Each turn copies an entry into the hole, which is the exchange of the two entries as long as
the moved one is taken to be in the hole. The loops end with an ordered heap of the same entries,
each with its slot at its id.
-/

namespace Pj.Timer
open Option Function BinaryHeap

variable {ε : Type} [DecidableEq ε] {ht : TimerHeap ε} {slots : Nat → ε} {count hole : Nat}

@[simp] theorem heapParent_eq (slot : Nat) : heapParent slot = parent slot := by
  unfold heapParent parent
  split
  · next zero => rw [zero]
  · rfl

@[simp] theorem heapLeft_eq (slot : Nat) : heapLeft slot = left slot := by
  unfold heapLeft left
  omega

/-- The entries of the heap while one of them, with its slot, is yet to be written. -/
structure Sifting (ht : TimerHeap ε) (slots : Nat → ε) (count hole : Nat) : Prop where
  hole_lt : hole < count
  fits : count ≤ ht.maxSize
  heap : ∀ i < count, i ≠ hole → ht.heap i = some (slots i)
  slot : ∀ i < count, i ≠ hole → ht.timerIds (ht.timerId (slots i)).toNat = i
  ids : ∀ i < count, 0 ≤ ht.timerId (slots i) ∧ ht.timerId (slots i) < ht.maxSize
  inj : ∀ i < count, ∀ j < count, ht.timerId (slots i) = ht.timerId (slots j) → i = j

/-- The arrays with an entry written to a slot. -/
def written (ht : TimerHeap ε) (slot : Nat) (entry : ε) : TimerHeap ε :=
  { ht with
    heap := update ht.heap slot (some entry)
    timerIds := update ht.timerIds (ht.timerId entry).toNat slot }

theorem Sifting.copyNode_eq (h : Sifting ht slots count hole) {place : Nat} (bound : place < count) :
    copyNode ht hole (slots place) = some (written ht hole (slots place)) := by
  have inside := Nat.lt_of_lt_of_le h.hole_lt h.fits
  have id := h.ids place bound
  rw [copyNode, if_pos inside, setTimerId, if_pos id]
  rfl

theorem Sifting.heapAt_eq (h : Sifting ht slots count hole) {place : Nat} (bound : place < count)
    (other : place ≠ hole) : heapAt ht place = some (slots place) := by
  rw [heapAt, if_pos (Nat.lt_of_lt_of_le bound h.fits), h.heap place bound other]

/-- Different entries have different ids, also as indices. -/
theorem Sifting.index_ne (h : Sifting ht slots count hole) {i j : Nat} (bound : i < count)
    (bound' : j < count) (other : i ≠ j) :
    (ht.timerId (slots i)).toNat ≠ (ht.timerId (slots j)).toNat := by
  intro same
  have left := (h.ids i bound).1
  have right := (h.ids j bound').1
  exact other (h.inj i bound j bound' (by omega))

/-- A turn moves the hole. -/
theorem Sifting.copy (h : Sifting ht slots count hole) {place : Nat} (bound : place < count)
    (other : place ≠ hole) :
    Sifting (written ht hole (slots place)) (slots ∘ Equiv.swap hole place) count place where
  hole_lt := bound
  fits := h.fits
  heap i bound' notPlace := by
    show update ht.heap hole (some (slots place)) i = some (slots (Equiv.swap hole place i))
    by_cases here : i = hole
    · rw [here, update_self, Equiv.swap_apply_left]
    · rw [update_of_ne here, Equiv.swap_apply_of_ne_of_ne here notPlace]
      exact h.heap i bound' here
  slot i bound' notPlace := by
    show update ht.timerIds (ht.timerId (slots place)).toNat hole
      (ht.timerId (slots (Equiv.swap hole place i))).toNat = i
    by_cases here : i = hole
    · rw [here, Equiv.swap_apply_left, update_self]
    · rw [Equiv.swap_apply_of_ne_of_ne here notPlace,
        update_of_ne (h.index_ne bound' bound notPlace)]
      exact h.slot i bound' here
  ids i bound' := by
    obtain ⟨j, inside, same⟩ :=
      ((Rearranged.swap h.hole_lt bound slots).exists_iff _).mp ⟨i, bound', rfl⟩
    show 0 ≤ ht.timerId (slots (Equiv.swap hole place i)) ∧
      ht.timerId (slots (Equiv.swap hole place i)) < ht.maxSize
    rw [← comp_apply (f := slots), ← same]
    exact h.ids j inside
  inj i bound' j bound'' same := by
    have inside : ∀ i < count, Equiv.swap hole place i < count := by
      intro i bound'
      have lt := h.hole_lt
      rw [Equiv.swap_apply_def]
      split
      · exact bound
      · split <;> omega
    exact (Equiv.swap hole place).injective (h.inj _ (inside i bound') _ (inside j bound'') same)

/-- What the loops make of the arrays. -/
structure Reheaped (ht : TimerHeap ε) (count : Nat) (slots slots' : Nat → ε)
    (heap : Nat → Option ε) (timerIds : Nat → Int) : Prop where
  same : Rearranged count slots slots'
  heap : ∀ i < count, heap i = some (slots' i)
  slot : ∀ i < count, timerIds (ht.timerId (slots' i)).toNat = i
  others : ∀ id, (∀ i < count, (ht.timerId (slots i)).toNat ≠ id) → timerIds id = ht.timerIds id
  ordered : Ordered (fun i => ht.timerValue (slots' i)) count

/-- The moved entry is written to the hole. -/
theorem Sifting.finish (h : Sifting ht slots count hole)
    (ordered : Ordered (fun i => ht.timerValue (slots i)) count) :
    Reheaped ht count slots slots (written ht hole (slots hole)).heap
      (written ht hole (slots hole)).timerIds where
  same := Rearranged.refl count slots
  heap i bound := by
    show update ht.heap hole (some (slots hole)) i = some (slots i)
    by_cases here : i = hole
    · rw [here, update_self]
    · rw [update_of_ne here]
      exact h.heap i bound here
  slot i bound := by
    show update ht.timerIds (ht.timerId (slots hole)).toNat hole
      (ht.timerId (slots i)).toNat = i
    by_cases here : i = hole
    · rw [here, update_self]
    · rw [update_of_ne (h.index_ne bound h.hole_lt here)]
      exact h.slot i bound here
  others id other := update_of_ne (other hole h.hole_lt).symm _ _
  ordered := ordered

/-- A turn before the loop ends. -/
theorem Reheaped.of_copy (h : Sifting ht slots count hole) {place : Nat} (bound : place < count)
    {slots' : Nat → ε} {heap : Nat → Option ε} {timerIds : Nat → Int}
    (rest : Reheaped (written ht hole (slots place)) count (slots ∘ Equiv.swap hole place) slots'
      heap timerIds) :
    Reheaped ht count slots slots' heap timerIds where
  same := (Rearranged.swap h.hole_lt bound slots).trans rest.same
  heap := rest.heap
  slot := rest.slot
  others id other := by
    refine (rest.others id fun i bound' => ?_).trans
      (update_of_ne (other place bound).symm _ _)
    obtain ⟨j, inside, same⟩ :=
      ((Rearranged.swap h.hole_lt bound slots).exists_iff _).mp ⟨i, bound', rfl⟩
    rw [← same]
    exact other j inside
  ordered := rest.ordered

/-- `reheap_up` restores the order. -/
theorem reheapUp_spec (fuel : Nat) (h : Sifting ht slots count hole)
    (order : UpTo (fun i => ht.timerValue (slots i)) count hole) (enough : hole < fuel) :
    ∃ slots' heap timerIds, reheapUp (slots hole) fuel ht hole (parent hole) =
        some { ht with heap := heap, timerIds := timerIds } ∧
      Reheaped ht count slots slots' heap timerIds := by
  induction fuel generalizing ht slots hole with
  | zero => omega
  | succ fuel ih =>
    have stop : Ordered (fun i => ht.timerValue (slots i)) count →
        ∃ slots' heap timerIds, copyNode ht hole (slots hole) =
            some { ht with heap := heap, timerIds := timerIds } ∧
          Reheaped ht count slots slots' heap timerIds := fun ordered =>
      ⟨slots, _, _, h.copyNode_eq h.hole_lt, h.finish ordered⟩
    rw [reheapUp]
    by_cases positive : 0 < hole
    · have smaller := parent_lt positive
      have bound : parent hole < count := smaller.trans h.hole_lt
      rw [if_pos positive, h.heapAt_eq bound smaller.ne, bind_eq_bind, bind_some]
      by_cases less : ht.timerValue (slots hole) < ht.timerValue (slots (parent hole))
      · have moved : (slots ∘ Equiv.swap hole (parent hole)) (parent hole) = slots hole := by
          rw [comp_apply, Equiv.swap_apply_right]
        have ⟨slots', heap, timerIds, result, reheaped⟩ := ih (h.copy bound smaller.ne)
          (order.exchange positive h.hole_lt less) (by omega)
        rw [moved] at result
        rw [if_pos (by simpa using less), h.copyNode_eq bound, bind_eq_bind,
          bind_some, heapParent_eq]
        exact ⟨slots', heap, timerIds, result, .of_copy h bound reheaped⟩
      · rw [if_neg (by simpa using less)]
        exact stop (order.ordered fun _ => not_lt.mp less)
    · rw [if_neg positive]
      exact stop (order.ordered fun more => absurd more positive)

/-- The smaller child is found. -/
theorem Sifting.smallerChild_spec (h : Sifting ht slots count hole) (size : ht.curSize = count)
    (bound : left hole < count) :
    ∃ child, smallerChild ht (left hole) = some child ∧ child < count ∧ 0 < child ∧
      parent child = hole ∧ ∀ i, 0 < i → i < count → parent i = hole →
        ht.timerValue (slots child) ≤ ht.timerValue (slots i) := by
  have first : heapAt ht (left hole) = some (slots (left hole)) :=
    h.heapAt_eq bound (by unfold left; omega)
  have childOf := parent_left hole
  have positive : 0 < left hole := by
    unfold left
    omega
  rw [smallerChild, size]
  by_cases both : left hole + 1 < count
  · have second : heapAt ht (left hole + 1) = some (slots (left hole + 1)) :=
      h.heapAt_eq both (by unfold left; omega)
    have childOf' : parent (left hole + 1) = hole := by
      unfold parent left
      omega
    rw [if_pos both, second, first]
    simp only [bind_eq_bind, bind_some, Option.pure_def, pjTimeValLt_iff]
    by_cases less : ht.timerValue (slots (left hole + 1)) < ht.timerValue (slots (left hole))
    · rw [if_pos less]
      refine ⟨_, rfl, both, by omega, childOf', fun i positive' _ below => ?_⟩
      rcases eq_left_of_parent positive' below with rfl | rfl
      · exact less.le
      · exact le_rfl
    · rw [if_neg less]
      refine ⟨_, rfl, bound, positive, childOf, fun i positive' _ below => ?_⟩
      rcases eq_left_of_parent positive' below with rfl | rfl
      · exact le_rfl
      · exact not_lt.mp less
  · rw [if_neg both]
    refine ⟨_, rfl, bound, positive, childOf, fun i positive' bound' below => ?_⟩
    rcases eq_left_of_parent positive' below with rfl | rfl
    · exact le_rfl
    · omega

/-- `reheap_down` restores the order. -/
theorem reheapDown_spec (fuel : Nat) (h : Sifting ht slots count hole) (size : ht.curSize = count)
    (order : DownTo (fun i => ht.timerValue (slots i)) count hole)
    (enough : count ≤ hole + fuel) (positive : 0 < fuel) :
    ∃ slots' heap timerIds, reheapDown (slots hole) fuel ht hole (left hole) =
        some { ht with heap := heap, timerIds := timerIds } ∧
      Reheaped ht count slots slots' heap timerIds := by
  induction fuel generalizing ht slots hole with
  | zero => omega
  | succ fuel ih =>
    have stop : Ordered (fun i => ht.timerValue (slots i)) count →
        ∃ slots' heap timerIds, copyNode ht hole (slots hole) =
            some { ht with heap := heap, timerIds := timerIds } ∧
          Reheaped ht count slots slots' heap timerIds := fun ordered =>
      ⟨slots, _, _, h.copyNode_eq h.hole_lt, h.finish ordered⟩
    rw [reheapDown]
    by_cases inside : left hole < count
    · have ⟨child, found, bound, positiveChild, childOf, least⟩ := h.smallerChild_spec size inside
      have above := parent_lt positiveChild
      rw [if_pos (by omega), found, bind_eq_bind, bind_some,
        h.heapAt_eq bound (by omega), bind_eq_bind, bind_some]
      by_cases less : ht.timerValue (slots child) < ht.timerValue (slots hole)
      · have moved : (slots ∘ Equiv.swap hole child) child = slots hole := by
          rw [comp_apply, Equiv.swap_apply_right]
        have ⟨slots', heap, timerIds, result, reheaped⟩ := ih (h.copy bound (by omega)) size
          (order.exchange positiveChild bound childOf least less) (by omega) (by omega)
        rw [moved] at result
        rw [if_pos (by simpa using less), h.copyNode_eq bound, bind_eq_bind,
          bind_some, heapLeft_eq]
        exact ⟨slots', heap, timerIds, result, .of_copy h bound reheaped⟩
      · rw [if_neg (by simpa using less)]
        exact stop (order.ordered fun i positive' bound' below =>
          (not_lt.mp less).trans (least i positive' bound' below))
    · rw [if_neg (by omega)]
      refine stop (order.ordered fun i positive' bound' below => ?_)
      rcases eq_left_of_parent positive' below with rfl | rfl <;> omega

end Pj.Timer
