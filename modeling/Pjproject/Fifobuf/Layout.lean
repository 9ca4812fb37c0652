import Pjproject.Fifobuf.Buffer
import Pjproject.Lib.Consecutive

/-!
# Layout of a FIFO buffer

Where the live chunks of a buffer are. They take consecutive addresses, from the start of the used
part to its end, or in two parts, of which the older one goes on to a gap at the end of the buffer
and the newer one begins at the start of the buffer.
-/

namespace Pj.Fifobuf
open List Consecutive

/-- Chunks without a gap. -/
abbrev Chunks (lower upper : Nat) (chunks : List Chunk) : Prop :=
  Chain Chunk.start Chunk.stop lower upper chunks

/-- A chunk takes four bytes or more. -/
theorem Chunk.start_lt_stop (chunk : Chunk) : chunk.start < chunk.stop := by
  rw [Chunk.stop, sz]
  omega

/-- The live chunks of a buffer, the oldest first. -/
inductive Layout (fifobuf : Fifobuf) : List Chunk → Prop
  /-- No chunk. -/
  | empty (ubegin : fifobuf.ubegin = fifobuf.first) (uend : fifobuf.uend = fifobuf.first)
    (full : fifobuf.full = false) : Layout fifobuf []
  /-- One part, which ends before the end of the buffer. -/
  | straight {chunks : List Chunk} (some : chunks ≠ []) (lower : fifobuf.first ≤ fifobuf.ubegin)
    (upper : fifobuf.uend < fifobuf.last) (used : Chunks fifobuf.ubegin fifobuf.uend chunks)
    (full : fifobuf.full = false) : Layout fifobuf chunks
  /-- The whole buffer. -/
  | filled {chunks : List Chunk} (some : chunks ≠ []) (ubegin : fifobuf.ubegin = fifobuf.first)
    (uend : fifobuf.uend = fifobuf.first) (used : Chunks fifobuf.first fifobuf.last chunks)
    (full : fifobuf.full = true) : Layout fifobuf chunks
  /-- Two parts, one of which may be empty. -/
  | wrapped {old new : List Chunk} {gap : Nat} (some : old ++ new ≠ [])
    (lower : fifobuf.first < fifobuf.ubegin) (upper : fifobuf.ubegin < fifobuf.last)
    (before : Chunks fifobuf.ubegin gap old) (inside : gap ≤ fifobuf.last)
    (behind : Chunks fifobuf.first fifobuf.uend new) (apart : fifobuf.uend ≤ fifobuf.ubegin)
    (full : fifobuf.full = decide (fifobuf.uend = fifobuf.ubegin)) : Layout fifobuf (old ++ new)

/-- A buffer whose last chunk is gone and that was not reset: its used part is empty, or seems to
go on to the start of the buffer. -/
structure Idle (fifobuf : Fifobuf) : Prop where
  lower : fifobuf.first < fifobuf.ubegin
  upper : fifobuf.ubegin < fifobuf.last
  uend : fifobuf.uend = fifobuf.ubegin ∨ fifobuf.uend = fifobuf.first
  full : fifobuf.full = false

/-- The live chunks of a buffer, if there are any. -/
def Placed (fifobuf : Fifobuf) (chunks : List Chunk) : Prop :=
  Layout fifobuf chunks ∨ (chunks = [] ∧ Idle fifobuf)

variable {fifobuf : Fifobuf}

/-- Without a chunk, the used part is at the start. -/
theorem Layout.of_nil (h : Layout fifobuf []) :
    fifobuf.ubegin = fifobuf.first ∧ fifobuf.uend = fifobuf.first ∧ fifobuf.full = false := by
  generalize whole : ([] : List Chunk) = chunks at h
  cases h with
  | empty ubegin uend full => exact ⟨ubegin, uend, full⟩
  | straight some | filled some | wrapped some => exact absurd whole.symm some

variable {chunks : List Chunk}

/-- A used part that ends where it starts is the whole buffer or empty. -/
theorem Layout.ubegin_eq (h : Layout fifobuf chunks) (free : fifobuf.full ≠ true)
    (equal : fifobuf.uend = fifobuf.ubegin) :
    fifobuf.ubegin = fifobuf.first := by
  cases h with
  | empty ubegin => exact ubegin
  | straight some lower upper used =>
    have order := used.lt some
    omega
  | filled some ubegin => exact ubegin
  | wrapped some lower upper before inside behind apart full =>
    rw [full, decide_eq_true equal] at free
    contradiction

variable {chunk : Chunk}

/-- The chunks are in the buffer. -/
theorem Layout.bounds (h : Layout fifobuf chunks) (member : chunk ∈ chunks) :
    fifobuf.first ≤ chunk.start ∧ chunk.stop ≤ fifobuf.last := by
  cases h with
  | empty => contradiction
  | straight some lower upper used =>
    have ⟨left, _, right⟩ := used.bounds member
    omega
  | filled some ubegin uend used =>
    have ⟨left, _, right⟩ := used.bounds member
    exact ⟨left, right⟩
  | wrapped some lower upper before inside behind apart =>
    rcases mem_append.mp member with member | member
    · have ⟨left, _, right⟩ := before.bounds member
      omega
    · have ⟨left, _, right⟩ := behind.bounds member
      omega

/-- The chunks do not overlap. -/
theorem Layout.disjoint (h : Layout fifobuf chunks) :
    chunks.Pairwise fun chunk other => chunk.stop ≤ other.start ∨ other.stop ≤ chunk.start := by
  cases h with
  | empty => exact .nil
  | straight some lower upper used => exact used.pairwise.imp .inl
  | filled some ubegin uend used => exact used.pairwise.imp .inl
  | wrapped some lower upper before inside behind apart =>
    refine pairwise_append.mpr ⟨before.pairwise.imp .inl, behind.pairwise.imp .inl, ?_⟩
    intro chunk member other member'
    have left := (before.bounds member).1
    have right := (behind.bounds member').2.2
    exact .inr (by omega)

/-! ## Allocation -/

variable {machine : Machine}

/-- A request that no free part has room for is refused. -/
theorem pjFifobufAlloc_none (machine : Machine) (fifobuf : Fifobuf) (mem : Nat → UInt8)
    {size : UInt32} (h : fifobuf.full = true ∨ pjFifobufMaxSize fifobuf < machine.need size) :
    pjFifobufAlloc machine fifobuf mem size = (none, fifobuf, mem) := by
  unfold pjFifobufAlloc
  split
  · rfl
  · next free =>
    have small := h.resolve_left free
    unfold pjFifobufMaxSize at small
    split at small
    · have tail : ¬(fifobuf.ubegin ≤ fifobuf.uend ∧
          machine.need size ≤ fifobuf.last - fifobuf.uend) := by omega
      rw [if_neg tail, if_neg]
      split
      · omega
      · omega
    · have tail : ¬(fifobuf.ubegin ≤ fifobuf.uend ∧
          machine.need size ≤ fifobuf.last - fifobuf.uend) := by omega
      rw [if_neg tail, if_pos (by omega : fifobuf.uend ≤ fifobuf.ubegin), if_neg (by omega)]

/-- What an allocation can do: it hands out the addresses behind the used part, or those in front
of it, or none. -/
theorem pjFifobufAlloc_cases (machine : Machine) (fifobuf : Fifobuf) (mem : Nat → UInt8)
    (size : UInt32) :
    (∃ uend, fifobuf.full = false ∧ fifobuf.ubegin ≤ fifobuf.uend ∧
        machine.need size ≤ fifobuf.last - fifobuf.uend ∧
        uend = (if fifobuf.uend + machine.need size = fifobuf.last then fifobuf.first
          else fifobuf.uend + machine.need size) ∧
        pjFifobufAlloc machine fifobuf mem size =
          (some (fifobuf.uend + sz),
            { fifobuf with uend := uend, full := decide (uend = fifobuf.ubegin) },
            machine.writeLength mem fifobuf.uend (machine.need size))) ∨
      (∃ start, fifobuf.full = false ∧
        ¬(fifobuf.ubegin ≤ fifobuf.uend ∧ machine.need size ≤ fifobuf.last - fifobuf.uend) ∧
        start = (if fifobuf.uend ≤ fifobuf.ubegin then fifobuf.uend else fifobuf.first) ∧
        machine.need size ≤ fifobuf.ubegin - start ∧
        pjFifobufAlloc machine fifobuf mem size =
          (some (start + sz),
            { fifobuf with
              uend := start + machine.need size
              full := decide (start + machine.need size = fifobuf.ubegin) },
            machine.writeLength mem start (machine.need size))) ∨
      pjFifobufAlloc machine fifobuf mem size = (none, fifobuf, mem) ∧
        (fifobuf.full = true ∨ pjFifobufMaxSize fifobuf < machine.need size ∨
          fifobuf.uend = fifobuf.ubegin ∧ fifobuf.last - fifobuf.uend < machine.need size) := by
  unfold pjFifobufAlloc
  cases full : fifobuf.full with
  | true => exact .inr (.inr ⟨if_pos rfl, .inl rfl⟩)
  | false =>
    rw [if_neg Bool.false_ne_true]
    by_cases tail : fifobuf.ubegin ≤ fifobuf.uend ∧
        machine.need size ≤ fifobuf.last - fifobuf.uend
    · rw [if_pos tail]
      exact .inl ⟨_, rfl, tail.1, tail.2, rfl, rfl⟩
    · rw [if_neg tail]
      generalize front : (if fifobuf.uend ≤ fifobuf.ubegin then fifobuf.uend
        else fifobuf.first) = start
      by_cases room : machine.need size ≤ fifobuf.ubegin - start
      · rw [if_pos room]
        exact .inr (.inl ⟨start, rfl, tail, rfl, room, rfl⟩)
      · rw [if_neg room]
        refine .inr (.inr ⟨rfl, .inr ?_⟩)
        unfold pjFifobufMaxSize
        split at front
        · split
          · exact .inr (by omega)
          · exact .inl (by omega)
        · exact .inl (by split <;> omega)

/-- The newest chunk follows the used part. -/
theorem Placed.alloc_tail (h : Placed fifobuf chunks) {uend : Nat} (free : fifobuf.full = false)
    (order : fifobuf.ubegin ≤ fifobuf.uend) (start : chunk.start = fifobuf.uend)
    (room : chunk.stop ≤ fifobuf.last)
    (wraps : uend = if chunk.stop = fifobuf.last then fifobuf.first else chunk.stop) :
    Layout { fifobuf with uend := uend, full := decide (uend = fifobuf.ubegin) }
      (chunks ++ [chunk]) := by
  have size := chunk.start_lt_stop
  have some : chunks ++ [chunk] ≠ [] := by simp
  have bounds : fifobuf.first ≤ fifobuf.ubegin ∧
      Chunks fifobuf.ubegin chunk.stop (chunks ++ [chunk]) := by
    rcases h with layout | ⟨rfl, lower, upper, uend, full⟩
    · cases layout with
      | empty ubegin uend full =>
        exact ⟨by omega, chain_concat.mpr ⟨chain_nil.mpr (by omega), size, rfl⟩⟩
      | straight some lower upper used full =>
        exact ⟨lower, chain_concat.mpr ⟨start ▸ used, size, rfl⟩⟩
      | filled some ubegin uend used full =>
        rw [full] at free
        contradiction
      | wrapped some lower upper before inside behind apart full =>
        rw [full, decide_eq_false_iff_not] at free
        omega
    · exact ⟨by omega, chain_concat.mpr ⟨chain_nil.mpr (by omega), size, rfl⟩⟩
  have ⟨lower, used⟩ := bounds
  have below := used.lt some
  by_cases last : chunk.stop = fifobuf.last
  · rw [if_pos last] at wraps
    rw [last] at used
    by_cases whole : fifobuf.ubegin = fifobuf.first
    · exact .filled some whole wraps (whole ▸ used) (by simp [wraps, whole])
    · rw [← append_nil (chunks ++ [chunk])]
      exact .wrapped (by simp) (show fifobuf.first < fifobuf.ubegin by omega)
        (show fifobuf.ubegin < fifobuf.last by omega) used (Nat.le_refl _)
        (chain_nil.mpr wraps.symm) (show uend ≤ fifobuf.ubegin by omega) rfl
  · rw [if_neg last] at wraps
    refine .straight some lower ?_ (wraps ▸ used) ?_
    · show uend < fifobuf.last
      omega
    · rw [decide_eq_false_iff_not]
      omega

/-- The newest chunk begins the buffer, or follows those that do. -/
theorem Placed.alloc_front (h : Placed fifobuf chunks) (free : fifobuf.full = false)
    (start : chunk.start = if fifobuf.uend ≤ fifobuf.ubegin then fifobuf.uend else fifobuf.first)
    (room : chunk.stop ≤ fifobuf.ubegin) :
    Layout
      { fifobuf with uend := chunk.stop, full := decide (chunk.stop = fifobuf.ubegin) }
      (chunks ++ [chunk]) := by
  have size := chunk.start_lt_stop
  rcases h with layout | ⟨rfl, lower, upper, uend, full⟩
  · cases layout with
    | empty ubegin uend full =>
      rw [if_pos (by omega)] at start
      omega
    | straight some lower upper used full =>
      have below := used.lt some
      rw [if_neg (by omega)] at start
      exact .wrapped (by simp) (show fifobuf.first < fifobuf.ubegin by omega)
        (show fifobuf.ubegin < fifobuf.last by omega) used (Nat.le_of_lt upper)
        (chain_concat.mpr ⟨chain_nil.mpr start.symm, size, rfl⟩) room rfl
    | filled some ubegin uend used full =>
      rw [full] at free
      contradiction
    | wrapped some lower upper before inside behind apart full =>
      rw [if_pos apart] at start
      rw [append_assoc]
      exact .wrapped (by simp) lower upper before inside
        (chain_concat.mpr ⟨start ▸ behind, size, rfl⟩) room rfl
  · rw [if_pos (by omega)] at start
    exact Layout.wrapped (by simp) lower upper (chain_nil.mpr rfl) (Nat.le_of_lt upper)
      (chain_concat.mpr ⟨chain_nil.mpr (show fifobuf.first = chunk.start by omega), size, rfl⟩)
      room rfl

/-- A chunk that is handed out is one of the layout. -/
theorem Placed.alloc {fifobuf' : Fifobuf} (h : Placed fifobuf chunks) (mem : Nat → UInt8)
    {size : UInt32} {buf : Nat} {mem' : Nat → UInt8} (fits : machine.need size = size.toNat + sz)
    (allocated : pjFifobufAlloc machine fifobuf mem size = (some buf, fifobuf', mem')) :
    ∃ start, buf = start + sz ∧ mem' = machine.writeLength mem start (size.toNat + sz) ∧
      fifobuf'.first = fifobuf.first ∧ fifobuf'.last = fifobuf.last ∧
      Layout fifobuf' (chunks ++ [{ start := start, size := size.toNat }]) := by
  have stop : ∀ start : Nat, start + machine.need size =
      Chunk.stop { start := start, size := size.toNat } := by
    intro start
    show start + machine.need size = start + sz + size.toNat
    omega
  have positive : 0 < machine.need size := by
    rw [fits, sz]
    omega
  rcases pjFifobufAlloc_cases machine fifobuf mem size with
    ⟨uend, free, order, room, wraps, result⟩ | ⟨start, free, tail, front, room, result⟩ |
      ⟨result, _⟩
  · rw [result] at allocated
    obtain ⟨rfl, rfl, rfl⟩ := allocated
    rw [stop] at wraps
    exact ⟨fifobuf.uend, rfl, by rw [fits], rfl, rfl,
      h.alloc_tail free order rfl (by rw [← stop]; omega) wraps⟩
  · rw [result] at allocated
    obtain ⟨rfl, rfl, rfl⟩ := allocated
    rw [stop]
    exact ⟨start, rfl, by rw [fits], rfl, rfl, h.alloc_front free front (by rw [← stop]; omega)⟩
  · rw [result] at allocated
    obtain ⟨⟩ := allocated

/-! ## Release -/

variable {mem : Nat → UInt8}

/-- The end of the used part is behind the chunk. -/
def Behind (fifobuf : Fifobuf) (chunk : Chunk) : Prop :=
  chunk.stop = if fifobuf.uend = fifobuf.first then fifobuf.last else fifobuf.uend

instance (fifobuf : Fifobuf) (chunk : Chunk) : Decidable (Behind fifobuf chunk) :=
  inferInstanceAs (Decidable (_ = _))

/-- The memory has the length of the chunk. -/
def Machine.Sized (machine : Machine) (mem : Nat → UInt8) (chunk : Chunk) : Prop :=
  machine.readLength mem chunk.start = sz + chunk.size

theorem Machine.Sized.stop_eq (h : machine.Sized mem chunk) :
    chunk.start + machine.readLength mem chunk.start = chunk.stop := by
  rw [h, Chunk.stop, Nat.add_assoc]

/-- A chunk is un-allocated if the end of the used part is behind it. -/
theorem pjFifobufUnalloc_eq (fifobuf : Fifobuf) (sized : machine.Sized mem chunk) :
    pjFifobufUnalloc machine fifobuf mem (chunk.start + sz) =
      if Behind fifobuf chunk then (0, { fifobuf with uend := chunk.start, full := false })
      else (-1, fifobuf) := by
  unfold pjFifobufUnalloc
  dsimp only
  rw [Nat.add_sub_cancel, sized.stop_eq, ite_not]
  rfl

/-- Without the newest chunk, the used part ends where it started. The only chunk has to start the
buffer. -/
theorem Layout.unalloc {rest : List Chunk} (h : Layout fifobuf (rest ++ [chunk]))
    (behind : Behind fifobuf chunk) (start : rest = [] → fifobuf.ubegin = fifobuf.first) :
    Layout { fifobuf with uend := chunk.start, full := false } rest := by
  have size := chunk.start_lt_stop
  generalize whole : rest ++ [chunk] = chunks at h
  cases h with
  | empty => simp at whole
  | straight some lower upper used full =>
    rw [← whole] at used
    obtain ⟨before, _, stop⟩ := chain_concat.mp used
    by_cases none : rest = []
    · rw [none] at before ⊢
      exact .empty (start none) ((chain_nil.mp before).symm.trans (start none)) rfl
    · exact .straight none lower (show chunk.start < fifobuf.last by omega) before rfl
  | filled some ubegin uend used full =>
    rw [← whole] at used
    obtain ⟨before, _, stop⟩ := chain_concat.mp used
    by_cases none : rest = []
    · rw [none] at before ⊢
      exact .empty ubegin (chain_nil.mp before).symm rfl
    · exact .straight none (Nat.le_of_eq ubegin.symm) (show chunk.start < fifobuf.last by omega)
        (ubegin ▸ before) rfl
  | @wrapped old new gap some lower upper before inside later apart full =>
    have more : rest ≠ [] := by
      intro none
      have first := start none
      omega
    rcases eq_nil_or_concat new with rfl | ⟨front, last, rfl⟩
    · rw [append_nil] at whole
      rw [← whole] at before
      obtain ⟨before, _, stop⟩ := chain_concat.mp before
      exact .straight more (Nat.le_of_lt lower) (show chunk.start < fifobuf.last by omega)
        before rfl
    · rw [concat_eq_append, ← append_assoc] at whole
      obtain ⟨rfl, single⟩ := append_inj' whole rfl
      obtain rfl := head_eq_of_cons_eq single
      rw [concat_eq_append] at later
      obtain ⟨later, _, stop⟩ := chain_concat.mp later
      exact .wrapped more lower upper before inside later
        (show chunk.start ≤ fifobuf.ubegin by omega)
        (decide_eq_false (show chunk.start ≠ fifobuf.ubegin by omega)).symm

/-- The oldest chunk is freed: the used part starts behind it, or the buffer is reset. -/
theorem pjFifobufFree_eq (sized : machine.Sized mem chunk) (lower : fifobuf.first ≤ chunk.start)
    (oldest : chunk.start = fifobuf.ubegin ∨ chunk.start = fifobuf.first)
    (upper : chunk.stop ≤ if fifobuf.ubegin < fifobuf.uend then fifobuf.uend else fifobuf.last)
    (inside : chunk.stop ≤ fifobuf.last) :
    pjFifobufFree machine fifobuf mem (chunk.start + sz) =
      (0,
        if (if chunk.stop = fifobuf.last then fifobuf.first else chunk.stop) = fifobuf.uend then
          { fifobuf with ubegin := fifobuf.first, uend := fifobuf.first, full := false }
        else
          { fifobuf with
            ubegin := if chunk.stop = fifobuf.last then fifobuf.first else chunk.stop
            full := false }) := by
  have size := chunk.start_lt_stop
  unfold pjFifobufFree
  dsimp only
  rw [Nat.add_sub_cancel, sized.stop_eq, if_neg (by omega), if_neg (by omega), if_neg (by omega)]
  exact (apply_ite (Prod.mk (0 : Int)) _ _ _).symm

/-- Without the oldest chunk, the used part starts at the next one. The end of the used part has to
be behind the only chunk. -/
theorem Layout.free {rest : List Chunk} (h : Layout fifobuf (chunk :: rest))
    (sized : machine.Sized mem chunk) :
    ∃ fifobuf', pjFifobufFree machine fifobuf mem (chunk.start + sz) = (0, fifobuf') ∧
      fifobuf'.first = fifobuf.first ∧ fifobuf'.last = fifobuf.last ∧
      ((rest = [] → Behind fifobuf chunk) → Layout fifobuf' rest) := by
  have size := chunk.start_lt_stop
  have ⟨lower, inside⟩ := h.bounds mem_cons_self
  generalize whole : chunk :: rest = chunks at h
  cases h with
  | empty => simp at whole
  | straight some below upper used full =>
    rw [← whole] at used
    have ⟨start, _, later⟩ := used
    have order := later.le
    rw [pjFifobufFree_eq sized lower (.inl start) (by rw [if_pos (by omega)]; exact order) inside]
    refine ⟨_, rfl, ?_⟩
    rw [if_neg (by omega : chunk.stop ≠ fifobuf.last)]
    by_cases none : rest = []
    · rw [none, chain_nil] at later
      rw [if_pos later, none]
      exact ⟨rfl, rfl, fun _ => .empty rfl rfl rfl⟩
    · have more := later.lt none
      rw [if_neg (by omega)]
      exact ⟨rfl, rfl, fun _ =>
        .straight none (show fifobuf.first ≤ chunk.stop by omega) upper later rfl⟩
  | filled some ubegin uend used full =>
    rw [← whole] at used
    have ⟨start, _, later⟩ := used
    rw [pjFifobufFree_eq sized lower (.inr start) (by rw [if_neg (by omega)]; exact inside) inside]
    refine ⟨_, rfl, ?_⟩
    by_cases none : rest = []
    · rw [none, chain_nil] at later
      rw [if_pos later, if_pos uend.symm, none]
      exact ⟨rfl, rfl, fun _ => .empty rfl rfl rfl⟩
    · have more := later.lt none
      rw [if_neg (by omega : chunk.stop ≠ fifobuf.last), if_neg (by omega)]
      refine ⟨rfl, rfl, fun _ => ?_⟩
      rw [← append_nil rest]
      exact .wrapped (by simpa using none) (show fifobuf.first < chunk.stop by omega) more later
        (Nat.le_refl _) (chain_nil.mpr uend.symm) (show fifobuf.uend ≤ chunk.stop by omega)
        (decide_eq_false (show fifobuf.uend ≠ chunk.stop by omega)).symm
  | @wrapped old new gap some below upper before inside' later apart full =>
    cases old with
    | nil =>
      rw [nil_append] at whole
      rw [← whole] at later
      have ⟨start, _, later⟩ := later
      have order := later.le
      rw [pjFifobufFree_eq sized lower (.inr start) (by rw [if_neg (by omega)]; exact inside)
        inside]
      refine ⟨_, rfl, ?_⟩
      rw [if_neg (by omega : chunk.stop ≠ fifobuf.last)]
      by_cases none : rest = []
      · rw [none, chain_nil] at later
        rw [if_pos later, none]
        exact ⟨rfl, rfl, fun _ => .empty rfl rfl rfl⟩
      · have more := later.lt none
        rw [if_neg (by omega)]
        exact ⟨rfl, rfl, fun _ => .straight none (show fifobuf.first ≤ chunk.stop by omega)
          (show fifobuf.uend < fifobuf.last by omega) later rfl⟩
    | cons oldest old =>
      obtain ⟨rfl, tail⟩ := List.cons.inj whole
      obtain rfl : rest = old ++ new := tail
      have ⟨start, _, before⟩ := before
      have order := before.le
      rw [pjFifobufFree_eq sized lower (.inl start) (by rw [if_neg (by omega)]; exact inside)
        inside]
      refine ⟨_, rfl, ?_⟩
      by_cases last : chunk.stop = fifobuf.last
      · have gone : old = [] := by
          have ends : chunk.stop = gap := by omega
          exact (ends ▸ before).eq_nil
        rw [if_pos last, gone, nil_append]
        by_cases none : new = []
        · rw [none] at later ⊢
          rw [if_pos (chain_nil.mp later)]
          exact ⟨rfl, rfl, fun _ => .empty rfl rfl rfl⟩
        · have more := later.lt none
          rw [if_neg (by omega)]
          exact ⟨rfl, rfl, fun _ => .straight none (Nat.le_refl _)
            (show fifobuf.uend < fifobuf.last by omega) later rfl⟩
      · rw [if_neg last, if_neg (by omega)]
        refine ⟨rfl, rfl, fun behind => ?_⟩
        by_cases none : old ++ new = []
        · have new_nil : new = [] := (append_eq_nil_iff.mp none).2
          have ends := behind none
          rw [new_nil] at later
          rw [Behind, if_pos (chain_nil.mp later).symm] at ends
          contradiction
        · exact .wrapped none (show fifobuf.first < chunk.stop by omega)
            (show chunk.stop < fifobuf.last by omega) before inside' later
            (show fifobuf.uend ≤ chunk.stop by omega)
            (decide_eq_false (show fifobuf.uend ≠ chunk.stop by omega)).symm

end Pj.Fifobuf
