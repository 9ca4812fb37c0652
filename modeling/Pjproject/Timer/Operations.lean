import Pjproject.Timer.Invariant

/-!
# Operations of a timer heap

Scheduling an entry takes a free id and cannot do without one; nothing else can fail. Removing an
entry returns its id.
-/

namespace Pj.Timer
open Option Function List BinaryHeap

variable {ε : Type} [DecidableEq ε] {ht : TimerHeap ε} {slots : Nat → ε} {held free : List Nat}

/-! ## Removing an entry -/

variable {place : Nat}

/-- The heap after the id of a removed entry is returned. -/
def released (ht : TimerHeap ε) (entry : ε) : TimerHeap ε :=
  { ht with
    curSize := ht.curSize - 1
    timerIds := update ht.timerIds (index ht entry) (-ht.timerIdsFreelist)
    timerIdsFreelist := index ht entry
    timerId := update ht.timerId entry (-1) }

/-- The slots with the last entry at the place of a removed one. -/
def filled (slots : Nat → ε) (place last : Nat) : Nat → ε :=
  update slots place (slots last)

/-- An entry that stays is one of the old ones. -/
theorem filled_cases (slots : Nat → ε) {last i : Nat} (bound : place ≤ last) (h : i < last) :
    ∃ j < last + 1, j ≠ place ∧ filled slots place last i = slots j := by
  by_cases here : i = place
  · exact ⟨last, by omega, by omega, by rw [filled, here, update_self]⟩
  · exact ⟨i, by omega, here, update_of_ne here _ _⟩

/-- The other entries keep their ids. -/
theorem Rep.released_timerId (h : Rep ht slots held free) {j : Nat} (bound : place < ht.curSize)
    (bound' : j < ht.curSize) (other : j ≠ place) :
    (released ht (slots place)).timerId (slots j) = ht.timerId (slots j) := by
  refine update_of_ne (fun equal => other ?_) _ _
  exact h.inj bound' bound (by rw [equal])

/-- The invariant once the other entries are in order again. -/
theorem Rep.removed (h : Rep ht slots held free) {last : Nat} (bound : place ≤ last)
    (size : ht.curSize = last + 1) {slots' : Nat → ε} {heap : Nat → Option ε}
    {timerIds : Nat → Int} (same : Rearranged last (filled slots place last) slots')
    (heapEq : ∀ i < last, heap i = some (slots' i))
    (slotEq : ∀ i < last, timerIds (index ht (slots' i)) = i)
    (others : ∀ id, (∀ i < last, index ht (filled slots place last i) ≠ id) →
      timerIds id = (released ht (slots place)).timerIds id)
    (ordered : Ordered (fun i => ht.timerValue (slots' i)) last) :
    Rep { released ht (slots place) with heap := heap, timerIds := timerIds } slots' held
      (index ht (slots place) :: free) := by
  have inside : place < ht.curSize := by omega
  have lastEq : ht.curSize - 1 = last := by omega
  have old : ∀ i < last, ∃ j < ht.curSize, j ≠ place ∧ slots' i = slots j := by
    intro i bound'
    have ⟨k, bound'', same'⟩ := (same.exists_iff _).mp ⟨i, bound', rfl⟩
    have ⟨j, boundJ, other, found⟩ := filled_cases slots bound bound''
    exact ⟨j, by omega, other, same'.symm.trans found⟩
  have keeps : ∀ i < last, update ht.timerId (slots place) (-1) (slots' i) =
      ht.timerId (slots' i) := by
    intro i bound'
    have ⟨j, boundJ, other, found⟩ := old i bound'
    rw [found]
    exact h.released_timerId inside boundJ other
  have keepsIndex : ∀ i < last,
      index { released ht (slots place) with heap := heap, timerIds := timerIds } (slots' i) =
        index ht (slots' i) := fun i bound' => congrArg Int.toNat (keeps i bound')
  have notQueued : ∀ id ∈ index ht (slots place) :: free, ∀ i < last,
      index ht (filled slots place last i) ≠ id := by
    intro id member i bound' equal
    have ⟨j, boundJ, other, found⟩ := filled_cases slots bound bound'
    rw [found] at equal
    rw [← size] at boundJ
    rcases mem_cons.mp member with rfl | member
    · exact other (h.inj boundJ inside equal)
    · exact h.queued_not_free boundJ member equal
  refine ⟨?_, ?_, ?_, ?_, ?_, ?_, ?_, ?_⟩
  · have room := h.room
    show ht.curSize - 1 + 1 < ht.maxSize
    omega
  · intro i bound'
    exact heapEq i (by rwa [← lastEq])
  · intro i bound'
    have bound' : i < last := by rwa [← lastEq]
    rw [keepsIndex i bound']
    exact slotEq i bound'
  · intro i bound'
    have bound' : i < last := by rwa [← lastEq]
    have ⟨j, boundJ, _, found⟩ := old i bound'
    show 0 < update ht.timerId (slots place) (-1) (slots' i)
    rw [keeps i bound', found]
    exact h.running j boundJ
  · intro entry absent
    show update ht.timerId (slots place) (-1) entry = -1
    by_cases removed : entry = slots place
    · rw [removed, update_self]
    · rw [update_of_ne removed]
      refine h.stopped entry fun j boundJ found => ?_
      have stayed : ∃ i < last, filled slots place last i = entry := by
        have other : j ≠ place := fun here => removed (by rw [← found, here])
        by_cases atEnd : j = last
        · refine ⟨place, by omega, ?_⟩
          rw [filled, update_self, ← atEnd, found]
        · exact ⟨j, by omega, (update_of_ne other _ _).trans found⟩
      have ⟨i, bound', here⟩ := (same.exists_iff entry).mpr stayed
      exact absent i (by rw [← lastEq] at bound'; exact bound') here
  · have kept : queuedIds { released ht (slots place) with heap := heap, timerIds := timerIds }
        slots' = (List.range last).map fun i => index ht (slots' i) := by
      rw [← lastEq]
      refine map_congr_left fun i member => keepsIndex i ?_
      rw [← lastEq]
      exact mem_range.mp member
    have moved := same.perm (index ht)
    have parts := map_range_remove bound fun i => index ht (slots i)
    have comp : (fun i => index ht (filled slots place last i)) =
        update (fun i => index ht (slots i)) place (index ht (slots last)) := by
      funext i
      by_cases here : i = place
      · rw [here, filled, update_self, update_self]
      · rw [filled, update_of_ne here, update_of_ne here]
    have all : queuedIds ht slots = (List.range (last + 1)).map fun i => index ht (slots i) := by
      rw [queuedIds, size]
    have ids := h.ids
    rw [all] at ids
    rw [comp] at moved
    rw [kept]
    refine List.Perm.trans ?_ ids
    have front := ((moved.cons (index ht (slots place))).trans parts).append_right (held ++ free)
    refine List.Perm.trans ?_ front
    refine (List.Perm.append_left _ perm_middle).trans ?_
    exact perm_middle
  · have new : index ht (slots place) ∉ free := fun member =>
      h.queued_not_free inside member rfl
    have pushed := h.chain.push new
    exact pushed.congr fun id member => others id (notQueued id member)
  · rw [show (released ht (slots place)).curSize = last from lastEq]
    exact ordered

/-- The last entry is put at the place of the removed one. -/
theorem Rep.sifting_filled (h : Rep ht slots held free) {last : Nat} (bound : place < last)
    (size : ht.curSize = last + 1) :
    Sifting (written (released ht (slots place)) place (slots last)) (filled slots place last) last
      place where
  hole_lt := bound
  fits := by
    have room := h.room
    show last ≤ ht.maxSize
    omega
  heap i bound' other := by
    show update ht.heap place (some (slots last)) i = some (filled slots place last i)
    rw [filled, update_of_ne other, update_of_ne other]
    exact h.heap i (by omega)
  slot i bound' other := by
    have filledEq : filled slots place last i = slots i := update_of_ne other _ _
    have inside : place < ht.curSize := by omega
    show update (update ht.timerIds (index ht (slots place))
      (-ht.timerIdsFreelist)) ((released ht (slots place)).timerId (slots last)).toNat place
        ((released ht (slots place)).timerId (filled slots place last i)).toNat = i
    rw [filledEq, h.released_timerId inside (by omega) other,
      h.released_timerId inside (by omega) (by omega)]
    have notLast : index ht (slots i) ≠ index ht (slots last) := fun same => by
      have := h.inj (by omega) (by omega) same
      omega
    have notPlace : index ht (slots i) ≠ index ht (slots place) := fun same =>
      other (h.inj (by omega) inside same)
    exact (update_of_ne notLast _ _).trans ((update_of_ne notPlace _ _).trans
      (h.slot i (by omega)))
  ids i bound' := by
    have ⟨j, boundJ, other, found⟩ := filled_cases slots bound.le bound'
    show 0 ≤ (released ht (slots place)).timerId (filled slots place last i) ∧
      (released ht (slots place)).timerId (filled slots place last i) < ht.maxSize
    rw [found, h.released_timerId (by omega) (by omega) other]
    exact h.id_lt (by omega)
  inj i bound' j bound'' same := by
    have same : (released ht (slots place)).timerId (filled slots place last i) =
        (released ht (slots place)).timerId (filled slots place last j) := same
    have eq : ∀ i < last, ∃ k < ht.curSize, (i = place ∧ k = last ∨ i ≠ place ∧ k = i) ∧
        (released ht (slots place)).timerId (filled slots place last i) = index ht (slots k) := by
      intro i bound'
      by_cases here : i = place
      · refine ⟨last, by omega, .inl ⟨here, rfl⟩, ?_⟩
        rw [here, filled, update_self, h.released_timerId (by omega) (by omega) (by omega),
          h.timerId_eq (by omega)]
      · refine ⟨i, by omega, .inr ⟨here, rfl⟩, ?_⟩
        rw [filled, update_of_ne here, h.released_timerId (by omega) (by omega) here,
          h.timerId_eq (by omega)]
    have ⟨k, boundK, placeK, first⟩ := eq i bound'
    have ⟨l, boundL, placeL, second⟩ := eq j bound''
    rw [first, second] at same
    have equal := h.inj boundK boundL (Int.ofNat.inj same)
    omega

/-- The end of `remove_node`: the other entries are in order again. -/
theorem Rep.refill_eq (h : Rep ht slots held free) (bound : place < ht.curSize) :
    ∃ slots' heap timerIds,
      refill (released ht (slots place)) place =
        some { released ht (slots place) with heap := heap, timerIds := timerIds } ∧
      Rep { released ht (slots place) with heap := heap, timerIds := timerIds } slots' held
        (index ht (slots place) :: free) := by
  have room := h.room
  obtain ⟨last, size⟩ : ∃ last, ht.curSize = last + 1 := ⟨ht.curSize - 1, by omega⟩
  have lastEq : (released ht (slots place)).curSize = last := by
    show ht.curSize - 1 = last
    omega
  have ordered := h.ordered.mono (by omega : last ≤ ht.curSize)
  rw [refill, lastEq]
  by_cases middle : place < last
  · have sifting := h.sifting_filled middle size
    have filledEq : filled slots place last place = slots last := update_self _ _ _
    have moved : heapAt (released ht (slots place)) last = some (slots last) := by
      rw [heapAt, if_pos (by show last < ht.maxSize; omega)]
      exact h.heap last (by omega)
    have copied : copyNode (released ht (slots place)) place (slots last) =
        some (written (released ht (slots place)) place (slots last)) := by
      have id := h.id_lt (by omega : last < ht.curSize)
      rw [copyNode, if_pos (by show place < ht.maxSize; omega), setTimerId, if_pos]
      · rfl
      · rw [h.released_timerId bound (by omega) (by omega)]
        exact id
    have above : heapAt (written (released ht (slots place)) place (slots last)) (parent place) =
        some (filled slots place last (parent place)) := by
      by_cases root : parent place = place
      · rw [root, heapAt, if_pos (by show place < ht.maxSize; omega), filledEq]
        exact update_self _ _ _
      · exact sifting.heapAt_eq (Nat.lt_of_le_of_lt (parent_le place) middle) root
    have others : ∀ i, i ≠ place → ht.timerValue (filled slots place last i) =
        ht.timerValue (slots i) := fun i other =>
      congrArg ht.timerValue (update_of_ne other _ _)
    have finish : ∀ {slots' : Nat → ε} {heap : Nat → Option ε} {timerIds : Nat → Int},
        Reheaped (written (released ht (slots place)) place (slots last)) last
          (filled slots place last) slots' heap timerIds →
        Rep { released ht (slots place) with heap := heap, timerIds := timerIds } slots' held
          (index ht (slots place) :: free) := by
      intro slots' heap timerIds reheaped
      have keeps : ∀ i < last, ((released ht (slots place)).timerId
          (filled slots place last i)).toNat = index ht (filled slots place last i) := by
        intro i bound'
        obtain ⟨j, boundJ, other, found⟩ := filled_cases slots middle.le bound'
        rw [found, h.released_timerId bound (by omega) other]
        rfl
      refine h.removed middle.le size reheaped.same reheaped.heap (fun i bound' => ?_)
        (fun id other => ?_) reheaped.ordered
      · obtain ⟨k, boundK, found⟩ := (reheaped.same.exists_iff _).mp ⟨i, bound', rfl⟩
        rw [← found, ← keeps k boundK, found]
        exact reheaped.slot i bound'
      · have notMoved : id ≠ ((released ht (slots place)).timerId (slots last)).toNat := by
          rw [← filledEq, keeps place middle]
          exact (other place middle).symm
        refine (reheaped.others id fun i bound' => ?_).trans (update_of_ne notMoved _ _)
        have index := keeps i bound'
        exact fun same => other i bound' (index.symm.trans same)
    rw [if_pos middle, moved, bind_eq_bind, bind_some, copied, bind_eq_bind,
      bind_some, heapParent_eq]
    dsimp only
    rw [above, bind_some]
    by_cases down : ht.timerValue (filled slots place last (parent place)) ≤
        ht.timerValue (slots last)
    · have order : DownTo (fun i => ht.timerValue (filled slots place last i)) last place :=
        ordered.replace_down middle others (by rw [filledEq]; exact down)
      obtain ⟨slots', heap, timerIds, result, reheaped⟩ :=
        reheapDown_spec (last + 1) sifting lastEq order (by omega) (by omega)
      have gte : pjTimeValGte
          ((written (released ht (slots place)) place (slots last)).timerValue (slots last))
          ((written (released ht (slots place)) place (slots last)).timerValue
            (filled slots place last (parent place))) = true := (pjTimeValGte_iff _ _).mpr down
      rw [filledEq] at result
      rw [if_pos gte, heapLeft_eq]
      have size' : (written (released ht (slots place)) place (slots last)).curSize = last := lastEq
      rw [size']
      exact ⟨slots', heap, timerIds, result, finish reheaped⟩
    · have notRoot : 0 < place := by
        rcases Nat.eq_zero_or_pos place with rfl | positive
        · exact absurd (by rw [show parent 0 = 0 from rfl, filledEq]) down
        · exact positive
      have less := not_le.mp down
      have order : UpTo (fun i => ht.timerValue (filled slots place last i)) last place := by
        apply ordered.replace_up middle others
        rw [others _ (parent_lt notRoot).ne] at less
        rw [filledEq]
        exact less.le.trans (h.ordered place notRoot bound)
      obtain ⟨slots', heap, timerIds, result, reheaped⟩ :=
        reheapUp_spec (place + 1) sifting order (by omega)
      have gte : ¬pjTimeValGte
          ((written (released ht (slots place)) place (slots last)).timerValue (slots last))
          ((written (released ht (slots place)) place (slots last)).timerValue
            (filled slots place last (parent place))) = true :=
        fun gte => down ((pjTimeValGte_iff _ _).mp gte)
      rw [filledEq] at result
      rw [if_neg gte]
      exact ⟨slots', heap, timerIds, result, finish reheaped⟩
  · have atEnd : place = last := by omega
    have same : filled slots place last = slots := by
      rw [filled, atEnd, update_eq_self]
    rw [if_neg middle]
    refine ⟨slots, ht.heap, (released ht (slots place)).timerIds, rfl, ?_⟩
    refine h.removed (by omega) size (by rw [same]; exact .refl _ _) (fun i bound' => ?_)
      (fun i bound' => ?_) (fun _ _ => rfl) ordered
    · exact h.heap i (by omega)
    · have other : index ht (slots i) ≠ index ht (slots place) := fun same => by
        have := h.inj (by omega) bound same
        omega
      exact (update_of_ne other _ _).trans (h.slot i (by omega))

/-- `remove_node`, of the entry at a slot. -/
theorem Rep.removeNode_eq (h : Rep ht slots held free) (bound : place < ht.curSize) :
    ∃ slots' heap timerIds,
      removeNode ht place = some (slots place,
        { released ht (slots place) with heap := heap, timerIds := timerIds }) ∧
      Rep { released ht (slots place) with heap := heap, timerIds := timerIds } slots' held
        (index ht (slots place) :: free) := by
  have ⟨slots', heap, timerIds, result, rep⟩ := h.refill_eq bound
  have room := h.room
  have range := h.id_range (mem_append_left _ (Rep.queued_mem bound))
  have read : heapAt ht place = some (slots place) := by
    rw [heapAt, if_pos (by omega), h.heap place bound]
  refine ⟨slots', heap, timerIds, ?_, rep⟩
  rw [removeNode, read, bind_eq_bind, bind_some, h.timerId_eq bound,
    pushFreelist_eq range.2, bind_eq_bind, bind_some]
  have refilled : (refill (released ht (slots place)) place).bind
      (fun ht' => some (slots place, ht')) = some (slots place,
        { released ht (slots place) with heap := heap, timerIds := timerIds }) := by
    rw [result]
    rfl
  exact refilled

/-! ## Scheduling an entry -/

variable {id : Nat}

/-- The arrays with twice the elements. -/
theorem Rep.grow (h : Rep ht slots held free) :
    Rep (growHeap ht) slots held (free ++ List.range' ht.maxSize ht.maxSize) := by
  have room := h.room
  have old : ∀ id < ht.maxSize, (growHeap ht).timerIds id = ht.timerIds id := fun id bound =>
    if_neg (by omega)
  refine { h with
    room := ?_
    slot := fun i bound => ?_
    ids := ?_
    chain := ?_ }
  · show ht.curSize + 1 < ht.maxSize * 2
    omega
  · have range := h.id_range (mem_append_left _ (Rep.queued_mem bound))
    exact (old _ range.2).trans (h.slot i bound)
  · have ids := h.ids.append_right (List.range' ht.maxSize ht.maxSize)
    have first : 1 + 1 * (ht.maxSize - 1) = ht.maxSize := by omega
    have whole : List.range' 1 (ht.maxSize - 1) ++ List.range' (1 + 1 * (ht.maxSize - 1))
        ht.maxSize = List.range' 1 (ht.maxSize - 1 + ht.maxSize) := range'_append
    rw [first] at whole
    rw [whole, append_assoc, append_assoc] at ids
    have size : (growHeap ht).maxSize - 1 = ht.maxSize - 1 + ht.maxSize := by
      show ht.maxSize * 2 - 1 = _
      omega
    rw [size]
    exact ids
  · have kept := h.chain.congr fun id member =>
      old id (h.id_range (mem_append_right _ (mem_append_right _ member))).2
    have fresh : FreeChain (growHeap ht).timerIds (ht.maxSize + ht.maxSize) ht.maxSize
        (List.range' ht.maxSize ht.maxSize) :=
      .fresh ht.maxSize fun id lower upper => if_pos (by omega)
    rw [← Nat.mul_two] at fresh
    exact kept.append fresh

/-- The heap that `insert_node` works on. -/
def roomy (ht : TimerHeap ε) : TimerHeap ε :=
  if ht.maxSize ≤ ht.curSize + 2 then growHeap ht else ht

theorem Rep.roomy (h : Rep ht slots held free) :
    ∃ free', Rep (roomy ht) slots held free' ∧
      (Timer.roomy ht).curSize + 2 < (Timer.roomy ht).maxSize := by
  have room := h.room
  unfold Timer.roomy
  split
  · refine ⟨_, h.grow, ?_⟩
    show ht.curSize + 2 < ht.maxSize * 2
    omega
  · exact ⟨free, h, by omega⟩

/-- The heap with an entry that is to be inserted. -/
def entered (ht : TimerHeap ε) (entry : ε) (id : Nat) (futureTime : TimeVal) : TimerHeap ε :=
  { ht with
    timerId := update ht.timerId entry id
    timerValue := update ht.timerValue entry futureTime }

/-- The new entry is put at the end of the heap. -/
theorem Rep.sifting_entered (h : Rep ht slots (id :: held) free) {entry : ε}
    (absent : ∀ i < ht.curSize, slots i ≠ entry) (futureTime : TimeVal) :
    Sifting (entered ht entry id futureTime) (update slots ht.curSize entry)
      (ht.curSize + 1) ht.curSize := by
  have room := h.room
  have range := h.id_range (by simp : id ∈ queuedIds ht slots ++ (id :: held ++ free))
  have apart := (nodup_append.mp h.nodup).2.2
  have old : ∀ i < ht.curSize, update slots ht.curSize entry i = slots i :=
    fun i bound => update_of_ne bound.ne _ _
  have oldId : ∀ i < ht.curSize, update ht.timerId entry (id : Int) (slots i) =
      ht.timerId (slots i) := fun i bound => update_of_ne (absent i bound) _ _
  have here : update slots ht.curSize entry ht.curSize = entry :=
    update_self _ _ _
  have newId : update ht.timerId entry (id : Int) entry = id := update_self _ _ _
  refine ⟨Nat.lt_succ_self _, by show ht.curSize + 1 ≤ ht.maxSize; omega, ?_, ?_, ?_, ?_⟩
  · intro i bound other
    rw [old i (by omega)]
    exact h.heap i (by omega)
  · intro i bound other
    show ht.timerIds (update ht.timerId entry (id : Int)
      (update slots ht.curSize entry i)).toNat = i
    rw [old i (by omega), oldId i (by omega)]
    exact h.slot i (by omega)
  · intro i bound
    show 0 ≤ update ht.timerId entry (id : Int) (update slots ht.curSize entry i) ∧
      update ht.timerId entry (id : Int) (update slots ht.curSize entry i) <
        ht.maxSize
    by_cases last : i = ht.curSize
    · rw [last, here, newId]
      omega
    · rw [old i (by omega), oldId i (by omega)]
      exact h.id_lt (by omega)
  · intro i bound j bound' same
    have same : update ht.timerId entry (id : Int)
        (update slots ht.curSize entry i) =
          update ht.timerId entry (id : Int)
            (update slots ht.curSize entry j) := same
    have notNew : ∀ i < ht.curSize, ht.timerId (slots i) ≠ id := by
      intro i bound equal
      rw [h.timerId_eq bound] at equal
      exact apart _ (Rep.queued_mem bound) _ mem_cons_self (Int.ofNat.inj equal)
    by_cases last : i = ht.curSize
    · by_cases last' : j = ht.curSize
      · rw [last, last']
      · rw [last, here, newId, old j (by omega), oldId j (by omega)] at same
        exact absurd same.symm (notNew j (by omega))
    · by_cases last' : j = ht.curSize
      · rw [last', here, newId, old i (by omega), oldId i (by omega)] at same
        exact absurd same (notNew i (by omega))
      · rw [old i (by omega), oldId i (by omega), old j (by omega), oldId j (by omega)] at same
        exact h.inj (by omega) (by omega) (congrArg Int.toNat same)

/-- The new entry is put in order. -/
theorem Rep.reheapUp_eq (h : Rep ht slots (id :: held) free) {entry : ε}
    (absent : ∀ i < ht.curSize, slots i ≠ entry) (room : ht.curSize + 2 < ht.maxSize)
    (futureTime : TimeVal) :
    ∃ slots' heap timerIds,
      reheapUp entry (ht.curSize + 1) (entered ht entry id futureTime) ht.curSize
          (heapParent ht.curSize) =
        some { entered ht entry id futureTime with heap := heap, timerIds := timerIds } ∧
      Rep { entered ht entry id futureTime with
        heap := heap, timerIds := timerIds, curSize := ht.curSize + 1 } slots' held free := by
  have range := h.id_range (by simp : id ∈ queuedIds ht slots ++ (id :: held ++ free))
  have sifting := h.sifting_entered absent futureTime
  have old : ∀ i < ht.curSize, update slots ht.curSize entry i = slots i :=
    fun i bound => update_of_ne bound.ne _ _
  have here : update slots ht.curSize entry ht.curSize = entry :=
    update_self _ _ _
  have oldId : ∀ i < ht.curSize, update ht.timerId entry (id : Int) (slots i) =
      ht.timerId (slots i) := fun i bound => update_of_ne (absent i bound) _ _
  have newId : update ht.timerId entry (id : Int) entry = id := update_self _ _ _
  have order : UpTo (fun i => (entered ht entry id futureTime).timerValue
      (update slots ht.curSize entry i)) (ht.curSize + 1) ht.curSize := by
    refine Ordered.insert fun i positive bound => ?_
    show update ht.timerValue entry futureTime
        (update slots ht.curSize entry (parent i)) ≤
      update ht.timerValue entry futureTime (update slots ht.curSize entry i)
    have bound' : parent i < ht.curSize := (parent_lt positive).trans bound
    rw [old i bound, old _ bound', update_of_ne (absent i bound),
      update_of_ne (absent _ bound')]
    exact h.ordered i positive bound
  have ⟨slots', heap, timerIds, result, reheaped⟩ :=
    reheapUp_spec (ht.curSize + 1) sifting order (Nat.lt_succ_self _)
  rw [here] at result
  refine ⟨slots', heap, timerIds, ?_, ?_⟩
  · rw [heapParent_eq]
    exact result
  · have members := reheaped.same.exists_iff
    refine ⟨room, reheaped.heap, reheaped.slot, ?_, ?_, ?_, ?_, reheaped.ordered⟩
    · intro i bound
      have ⟨j, boundJ, found⟩ := (members _).mp ⟨i, bound, rfl⟩
      show 0 < update ht.timerId entry (id : Int) (slots' i)
      rw [← found]
      by_cases last : j = ht.curSize
      · rw [last, here, newId]
        omega
      · rw [old j (by omega), oldId j (by omega)]
        exact h.running j (by omega)
    · intro other gone
      have gone : ∀ i < ht.curSize + 1, update slots ht.curSize entry i ≠ other := by
        intro i bound found
        have ⟨j, boundJ, found⟩ := (members other).mpr ⟨i, bound, found⟩
        exact gone j boundJ found
      have notNew : other ≠ entry := fun same =>
        gone ht.curSize (Nat.lt_succ_self _) (here.trans same.symm)
      show update ht.timerId entry (id : Int) other = -1
      rw [update_of_ne notNew]
      refine h.stopped other fun i bound found => gone i (by omega) ?_
      rw [old i bound, found]
    · have moved := reheaped.same.perm (index (entered ht entry id futureTime))
      have comp : (fun i => index (entered ht entry id futureTime)
          (update slots ht.curSize entry i)) =
            update (fun i => index (entered ht entry id futureTime) (slots i))
              ht.curSize id := by
        funext i
        by_cases last : i = ht.curSize
        · rw [last, here, update_self]
          exact congrArg Int.toNat newId
        · rw [update_of_ne last, update_of_ne last]
      have kept : ((List.range ht.curSize).map fun i =>
          index (entered ht entry id futureTime) (slots i)) = queuedIds ht slots :=
        map_congr_left fun i member =>
          congrArg Int.toNat (oldId i (mem_range.mp member))
      rw [comp, map_range_insert, kept] at moved
      refine (moved.append_right (held ++ free)).trans ?_
      rw [append_assoc, singleton_append]
      exact h.ids
    · refine h.chain.congr fun other member => reheaped.others other fun i bound => ?_
      have free := mem_append_right (id :: held) member
      by_cases last : i = ht.curSize
      · rw [last, here]
        have apart := (nodup_cons.mp (nodup_append.mp h.nodup).2.1).1
        have value : ((entered ht entry id futureTime).timerId entry).toNat = id :=
          congrArg Int.toNat newId
        rw [value]
        exact fun same => apart (same ▸ mem_append_right held member)
      · rw [old i (by omega)]
        have value : ((entered ht entry id futureTime).timerId (slots i)).toNat =
            index ht (slots i) := congrArg Int.toNat (oldId i (by omega))
        rw [value]
        exact h.queued_not_free (by omega) member

/-- The heap grows with the new entry as without it. -/
theorem roomy_entered (ht : TimerHeap ε) (entry : ε) (id : Nat) (futureTime : TimeVal) :
    roomy (entered ht entry id futureTime) = entered (roomy ht) entry id futureTime := by
  by_cases small : ht.maxSize ≤ ht.curSize + 2
  · have grown : roomy ht = growHeap ht := if_pos small
    have grown' : roomy (entered ht entry id futureTime) =
        growHeap (entered ht entry id futureTime) := if_pos small
    rw [grown, grown']
    rfl
  · have kept : roomy ht = ht := if_neg small
    have kept' : roomy (entered ht entry id futureTime) = entered ht entry id futureTime :=
      if_neg small
    rw [kept, kept']

omit [DecidableEq ε] in
theorem roomy_fields (ht : TimerHeap ε) :
    (roomy ht).curSize = ht.curSize ∧ (roomy ht).maxEntriesPerPoll = ht.maxEntriesPerPoll ∧
      (roomy ht).timerId = ht.timerId ∧ (roomy ht).timerValue = ht.timerValue := by
  unfold roomy
  split <;> exact ⟨rfl, rfl, rfl, rfl⟩

/-- What `schedule_entry` makes of a heap. -/
structure Scheduled (ht ht' : TimerHeap ε) (entry : ε) (id : Nat) (futureTime : TimeVal) :
    Prop where
  curSize : ht'.curSize = ht.curSize + 1
  maxEntriesPerPoll : ht'.maxEntriesPerPoll = ht.maxEntriesPerPoll
  timerId : ht'.timerId = update ht.timerId entry id
  timerValue : ht'.timerValue = update ht.timerValue entry futureTime

/-- `schedule_entry` of an entry that is not in the heap takes the first free id. -/
theorem Rep.scheduleEntry_eq {rest : List Nat} (h : Rep ht slots held (id :: rest)) {entry : ε}
    (absent : ∀ i < ht.curSize, slots i ≠ entry) (futureTime : TimeVal) :
    ∃ slots' ht' free', scheduleEntry ht entry futureTime = some (.success, ht') ∧
      Rep ht' slots' held free' ∧ Scheduled ht ht' entry id futureTime := by
  have room := h.room
  have ⟨popped, rep⟩ := h.popFreelist_eq
  generalize made : ({ ht with timerIdsFreelist := -ht.timerIds id } : TimerHeap ε) = ht₁ at *
  have fields : ht₁.curSize = ht.curSize ∧ ht₁.maxEntriesPerPoll = ht.maxEntriesPerPoll ∧
      ht₁.timerId = ht.timerId ∧ ht₁.timerValue = ht.timerValue := by
    rw [← made]
    exact ⟨rfl, rfl, rfl, rfl⟩
  have ⟨free', grown, space⟩ := rep.roomy
  have ⟨size, limit, ids, values⟩ := roomy_fields ht₁
  obtain ⟨slots', heap, timerIds, result, rep'⟩ :=
    grown.reheapUp_eq (by rw [size, fields.1]; exact absent) space futureTime
  refine ⟨slots', _, free', ?_, rep', ?_⟩
  · have inserted : insertNode (entered ht₁ entry id futureTime) entry =
        some { entered (Timer.roomy ht₁) entry id futureTime with
          heap := heap, timerIds := timerIds, curSize := (Timer.roomy ht₁).curSize + 1 } := by
      have same := roomy_entered ht₁ entry id futureTime
      unfold Timer.roomy at same
      rw [insertNode, same]
      exact congrArg (fun result => result.bind fun ht =>
        some { ht with curSize := ht.curSize + 1 }) result
    rw [scheduleEntry, if_pos (by omega), popped, bind_eq_bind, bind_some]
    have bound : (insertNode (entered ht₁ entry id futureTime) entry).bind
        (fun ht => some (ScheduleStatus.success, ht)) = some (ScheduleStatus.success,
          { entered (Timer.roomy ht₁) entry id futureTime with
            heap := heap, timerIds := timerIds, curSize := (Timer.roomy ht₁).curSize + 1 }) := by
      rw [inserted]
      rfl
    exact bound
  · refine ⟨?_, ?_, ?_, ?_⟩
    · rw [size, fields.1]
    · exact limit.trans fields.2.1
    · show update (Timer.roomy ht₁).timerId entry (id : Int) = _
      rw [ids, fields.2.2.1]
    · show update (Timer.roomy ht₁).timerValue entry futureTime = _
      rw [values, fields.2.2.2]

/-- `schedule_entry` without a free id reads past the array of ids. -/
theorem Rep.scheduleEntry_none (h : Rep ht slots held []) (entry : ε) (futureTime : TimeVal) :
    scheduleEntry ht entry futureTime = none := by
  have room := h.room
  rw [scheduleEntry, if_pos (by omega), h.popFreelist_none]
  rfl

/-! ## Cancelling an entry -/

/-- `pj_timer_heap_cancel` of an entry in the heap removes it. -/
theorem Rep.cancel_queued (h : Rep ht slots held free) (bound : place < ht.curSize) :
    ∃ slots' heap timerIds,
      pjTimerHeapCancel ht (slots place) = some (1,
        { released ht (slots place) with heap := heap, timerIds := timerIds }) ∧
      Rep { released ht (slots place) with heap := heap, timerIds := timerIds } slots' held
        (index ht (slots place) :: free) := by
  have ⟨slots', heap, timerIds, result, rep⟩ := h.removeNode_eq bound
  have id := h.id_lt bound
  have room := h.room
  have slot : timerIdAt ht (ht.timerId (slots place)) = some (place : Int) := by
    rw [timerIdAt, if_pos id]
    exact congrArg some (h.slot place bound)
  have there : heapAt ht place = some (slots place) := by
    rw [heapAt, if_pos (by omega), h.heap place bound]
  refine ⟨slots', heap, timerIds, ?_, rep⟩
  unfold pjTimerHeapCancel
  rw [if_neg (by omega), slot]
  simp [there, result]

/-- `pj_timer_heap_cancel` of an entry that is not in the heap changes nothing. -/
theorem Rep.cancel_absent (h : Rep ht slots held free) {entry : ε}
    (absent : ∀ i < ht.curSize, slots i ≠ entry) :
    pjTimerHeapCancel ht entry = some (0, ht) := by
  have stopped := h.stopped entry absent
  have same : ({ ht with timerId := update ht.timerId entry (-1) } : TimerHeap ε) = ht := by
    rw [← stopped, update_eq_self]
  unfold pjTimerHeapCancel
  rw [if_pos (.inl (by omega)), same]

/-! ## Taking the first entry -/

/-- The entry with the earliest expiry is taken, and its id is held back. -/
theorem Rep.takeFirst_eq (h : Rep ht slots held free) (queued : 0 < ht.curSize) :
    ∃ slots' ht', takeFirst ht = some (slots 0, (index ht (slots 0) : Int), ht') ∧
      Rep ht' slots' (index ht (slots 0) :: held) free ∧ ht'.curSize = ht.curSize - 1 ∧
      ht'.maxEntriesPerPoll = ht.maxEntriesPerPoll ∧
      ht'.timerId = update ht.timerId (slots 0) (-1) ∧
      ht'.timerValue = ht.timerValue := by
  have ⟨slots', heap, timerIds, result, rep⟩ := h.removeNode_eq queued
  have ⟨popped, rep'⟩ := rep.popFreelist_eq
  refine ⟨slots', _, ?_, rep', rfl, rfl, rfl, rfl⟩
  rw [takeFirst, result, bind_eq_bind, bind_some]
  dsimp only
  rw [popped, bind_eq_bind, bind_some]
  rfl

end Pj.Timer
