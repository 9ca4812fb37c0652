import Pjproject.Fifobuf.Layout
import Pjproject.Lib.Run

/-!
# Safety of a FIFO buffer

When the chunks that a buffer hands out are disjoint, the oldest one can be freed and the newest
one un-allocated, and an empty buffer can be used as a whole. That is so along a run if and only if
no `size + SZ` wraps, and no step leaves the end of the used part at the wrong place: un-allocating
a chunk whose end it is not, the only chunk of a buffer whose used part does not start at the start
of the buffer, or freeing the only chunk when the end of the used part is not behind it.
-/

namespace Pj.Fifobuf
open List Consecutive

/-- What the buffer promises. -/
structure State.Safe (machine : Machine) (state : State) : Prop where
  /-- The sizes that were asked for are inside the buffer, with their lengths. -/
  inside : ∀ chunk ∈ state.live,
    state.fifobuf.first ≤ chunk.start ∧ chunk.stop ≤ state.fifobuf.last
  /-- Chunks with their lengths do not overlap. -/
  disjoint : state.live.Pairwise fun chunk other =>
    chunk.stop ≤ other.start ∨ other.stop ≤ chunk.start
  /-- No live chunk was refused. -/
  accepted : state.accepted = true
  /-- Without live chunks, all of the buffer can be allocated. -/
  reusable : state.live = [] → ∀ size : UInt32,
    size.toNat + sz ≤ state.fifobuf.last - state.fifobuf.first →
      (pjFifobufAlloc machine state.fifobuf state.mem size).1 ≠ none

/-- The steps that keep to it. -/
def State.Ok (machine : Machine) (state : State) : Op → Prop
  | .alloc size =>
    size.toNat + sz < 2 ^ machine.bits ∨ state.fifobuf.full = true ∨
      pjFifobufMaxSize state.fifobuf < machine.need size
  | .free => ∀ chunk, state.live = [chunk] → Behind state.fifobuf chunk
  | .unalloc => ∀ chunk, state.live.getLast? = some chunk →
    Behind state.fifobuf chunk ∧
      (state.live = [chunk] → state.fifobuf.ubegin = state.fifobuf.first)

/-- The invariant. -/
structure State.Inv (machine : Machine) (state : State) : Prop where
  layout : Layout state.fifobuf state.live
  sized : ∀ chunk ∈ state.live, machine.Sized state.mem chunk
  small : state.fifobuf.last < state.fifobuf.first + 2 ^ 32
  accepted : state.accepted = true

/-- The sum of a request does not wrap, or the request is refused. -/
def State.Fits (machine : Machine) (state : State) : Op → Prop
  | .alloc size =>
    size.toNat + sz < 2 ^ machine.bits ∨ state.fifobuf.full = true ∨
      pjFifobufMaxSize state.fifobuf < machine.need size
  | .free => True
  | .unalloc => True

instance State.Fits.decidable (machine : Machine) (state : State) :
    ∀ op : Op, Decidable (state.Fits machine op)
  | .alloc _ => inferInstanceAs (Decidable (_ ∨ _ ∨ _))
  | .free => inferInstanceAs (Decidable True)
  | .unalloc => inferInstanceAs (Decidable True)

/-- What runs without wrapped requests keep. -/
structure State.Kept (machine : Machine) (state : State) : Prop where
  placed : Placed state.fifobuf state.live
  sized : ∀ chunk ∈ state.live, machine.Sized state.mem chunk
  small : state.fifobuf.last < state.fifobuf.first + 2 ^ 32

/-! ## Lengths in memory -/

/-- A stored list is held. -/
theorem holds_store (mem : Nat → UInt8) (first : Nat) (data : List UInt8) :
    Holds (Memory.store mem first data) first data := by
  have held : ∀ (before after : List UInt8), data = before ++ after →
      Holds (Memory.store mem first data) (first + before.length) after := by
    intro before after
    induction after generalizing before with
    | nil => exact fun _ => trivial
    | cons byte rest ih =>
      intro parts
      have inside : before.length < data.length := by
        rw [parts, length_append, length_cons]
        omega
      constructor
      · rw [Memory.store_inside mem first inside]
        simp [parts]
      · have next := ih (before ++ [byte]) (by simp [parts])
        rw [length_append, ← Nat.add_assoc] at next
        exact next
  exact held [] data rfl

/-- A length that is written is read. -/
theorem Machine.readLength_writeLength (machine : Machine) (mem : Nat → UInt8) (ptr : Nat)
    {length : Nat} (h : length < 2 ^ 32) :
    machine.readLength (machine.writeLength mem ptr length) ptr = length := by
  rw [Machine.readLength, Machine.writeLength, (holds_store mem ptr _).load32]
  exact Nat.mod_eq_of_lt h

theorem length_store32 (order : ByteOrder) (word : UInt32) : (store32 order word).length = sz := by
  cases order <;> rfl

/-- It does not change one that is apart from it. -/
theorem Machine.readLength_apart (machine : Machine) (mem : Nat → UInt8) {ptr other : Nat}
    (length : Nat) (h : ptr + sz ≤ other ∨ other + sz ≤ ptr) :
    machine.readLength (machine.writeLength mem ptr length) other =
      machine.readLength mem other := by
  have same : ∀ offset, offset < sz →
      machine.writeLength mem ptr length (other + offset) = mem (other + offset) := by
    intro offset below
    apply Memory.store_outside mem
    rw [length_store32]
    omega
  simp only [Machine.readLength, load32, load16, Nat.add_assoc]
  rw [same 1 (by decide), same 2 (by decide), same (2 + 1) (by decide)]
  have first := same 0 (by decide)
  rw [Nat.add_zero] at first
  rw [first]

/-! ## Steps that keep the invariant -/

variable {machine : Machine} {state : State}

theorem Machine.need_eq {size : UInt32} (h : size.toNat + sz < 2 ^ machine.bits) :
    machine.need size = size.toNat + sz :=
  Nat.mod_eq_of_lt h

/-- An address of 32 bits is one of a `size_t`. -/
theorem Machine.fits (machine : Machine) {value : Nat} (h : value < 2 ^ 32) :
    value < 2 ^ machine.bits :=
  Nat.lt_of_lt_of_le h (Nat.pow_le_pow_right (by omega) machine.atLeast)

/-- The invariant implies what the buffer promises. -/
theorem State.Inv.safe (h : state.Inv machine) :
    state.Safe machine where
  inside _ member := h.layout.bounds member
  disjoint := h.layout.disjoint
  accepted := h.accepted
  reusable none size room := by
    have layout := h.layout
    have small := h.small
    have need := Machine.need_eq (machine.fits (by omega : size.toNat + sz < 2 ^ 32))
    rw [none] at layout
    have ⟨ubegin, uend, full⟩ := layout.of_nil
    rcases pjFifobufAlloc_cases machine state.fifobuf state.mem size with
      ⟨_, _, _, _, _, result⟩ | ⟨_, _, _, _, _, result⟩ | ⟨_, refused⟩
    · rw [result]
      exact nofun
    · rw [result]
      exact nofun
    · rw [pjFifobufMaxSize, if_pos (by omega)] at refused
      rcases refused with refused | refused | refused
      · rw [full] at refused
        contradiction
      · omega
      · omega

variable {fifobuf : Fifobuf} {chunk : Chunk} {rest : List Chunk}

/-- The only chunk of a buffer whose used part does not start at the start of the buffer. -/
theorem Layout.only_inside (h : Layout fifobuf [chunk])
    (unreset : fifobuf.ubegin ≠ fifobuf.first) :
    fifobuf.first < fifobuf.ubegin ∧ fifobuf.ubegin < fifobuf.last ∧
      (chunk.start = fifobuf.ubegin ∨ chunk.start = fifobuf.first) := by
  generalize whole : [chunk] = chunks at h
  cases h with
  | empty => contradiction
  | straight some lower upper used =>
    have order := used.lt some
    rw [← whole] at used
    exact ⟨by omega, by omega, .inl used.1⟩
  | filled some ubegin => exact absurd ubegin unreset
  | @wrapped old new gap some lower upper before inside behind =>
    refine ⟨lower, upper, ?_⟩
    cases old with
    | nil =>
      obtain rfl : [chunk] = new := whole
      exact .inr behind.1
    | cons oldest old =>
      obtain rfl : chunk = oldest := (List.cons.inj whole).1
      exact .inl before.1

/-- The only chunk of a buffer if the end of the used part is not behind it. -/
theorem Layout.only_not_behind (h : Layout fifobuf [chunk])
    (not : ¬Behind fifobuf chunk) :
    chunk.start = fifobuf.ubegin ∧ fifobuf.first < chunk.start ∧ chunk.stop < fifobuf.last ∧
      fifobuf.uend = fifobuf.first := by
  have inside := (h.bounds (mem_singleton_self chunk)).2
  rw [Behind] at not
  generalize whole : [chunk] = chunks at h
  cases h with
  | empty => contradiction
  | straight some lower upper used =>
    have order := used.lt some
    rw [← whole] at used
    rw [if_neg (by omega)] at not
    exact absurd used.2.2 not
  | filled some ubegin uend used =>
    rw [← whole] at used
    rw [if_pos uend] at not
    exact absurd used.2.2 not
  | @wrapped old new gap some lower upper before inside' behind =>
    cases old with
    | nil =>
      obtain rfl : [chunk] = new := whole
      have order := behind.lt some
      rw [if_neg (by omega)] at not
      exact absurd behind.2.2 not
    | cons oldest old =>
      obtain ⟨rfl, rest⟩ := List.cons.inj whole
      obtain ⟨rfl, rfl⟩ := append_eq_nil_iff.mp rest.symm
      have uend := chain_nil.mp behind
      rw [if_pos uend.symm] at not
      exact ⟨before.1, by rw [before.1]; exact lower, by omega, uend.symm⟩

/-- Without the oldest chunk, the others are placed as they were. -/
theorem Layout.freed {mem : Nat → UInt8} (h : Layout fifobuf (chunk :: rest))
    (sized : machine.Sized mem chunk) :
    ∃ fifobuf', pjFifobufFree machine fifobuf mem (chunk.start + sz) = (0, fifobuf') ∧
      fifobuf'.first = fifobuf.first ∧ fifobuf'.last = fifobuf.last ∧ Placed fifobuf' rest ∧
      ((rest = [] → Behind fifobuf chunk) → Layout fifobuf' rest) := by
  have ⟨fifobuf', result, first, last, kept⟩ := h.free sized
  refine ⟨fifobuf', result, first, last, ?_, kept⟩
  by_cases only : rest = []
  · by_cases behind : Behind fifobuf chunk
    · exact .inl (kept fun _ => behind)
    · rw [only] at h
      have ⟨start, lower, upper, uend⟩ := h.only_not_behind behind
      have size := chunk.start_lt_stop
      have freed := pjFifobufFree_eq sized (Nat.le_of_lt lower) (.inl start)
        (by rw [if_neg (by omega)]; omega) (Nat.le_of_lt upper)
      rw [if_neg (by omega : chunk.stop ≠ fifobuf.last),
        if_neg (by omega : chunk.stop ≠ fifobuf.uend), result] at freed
      obtain rfl := (Prod.mk.inj freed).2
      exact .inr ⟨only, show fifobuf.first < chunk.stop by omega, upper, .inr uend, rfl⟩
  · exact .inl (kept fun none => absurd none only)

/-- Without the newest chunk, the others are placed as they were. -/
theorem Layout.unallocated (h : Layout fifobuf (rest ++ [chunk])) (behind : Behind fifobuf chunk) :
    Placed { fifobuf with uend := chunk.start, full := false } rest := by
  by_cases unreset : rest = [] ∧ fifobuf.ubegin ≠ fifobuf.first
  · obtain ⟨rfl, inside⟩ := unreset
    have ⟨lower, upper, start⟩ := h.only_inside inside
    exact .inr ⟨rfl, lower, upper, start, rfl⟩
  · exact .inl (h.unalloc behind fun none => by_contra fun inside => unreset ⟨none, inside⟩)

/-- A length that is written in a new chunk leaves those of the others. -/
theorem Machine.Sized.write {mem : Nat → UInt8} {chunks : List Chunk}
    (sized : ∀ chunk ∈ chunks, machine.Sized mem chunk) {new : Chunk}
    (disjoint : (chunks ++ [new]).Pairwise fun chunk other =>
      chunk.stop ≤ other.start ∨ other.stop ≤ chunk.start) (small : sz + new.size < 2 ^ 32)
    (member : chunk ∈ chunks ++ [new]) :
    machine.Sized (machine.writeLength mem new.start (new.size + sz)) chunk := by
  rcases mem_append.mp member with member | member
  · have apart := (pairwise_append.mp disjoint).2.2 chunk member new (by simp)
    rw [Machine.Sized, Machine.readLength_apart, sized chunk member]
    rw [Chunk.stop, Chunk.stop] at apart
    omega
  · rw [mem_singleton.mp member, Machine.Sized,
      Machine.readLength_writeLength machine mem _ (by omega)]
    exact Nat.add_comm _ _

/-- An allocation that does not wrap keeps the invariant. -/
theorem State.Kept.alloc (h : state.Kept machine) {size : UInt32}
    (ok : state.Fits machine (.alloc size)) :
    (state.step machine (.alloc size)).Kept machine ∧
      (state.Inv machine → (state.step machine (.alloc size)).Inv machine) := by
  unfold State.step
  dsimp only
  generalize result : pjFifobufAlloc machine state.fifobuf state.mem size = allocated
  have ⟨buf, fifobuf, mem⟩ := allocated
  cases buf with
  | none =>
    rcases pjFifobufAlloc_cases machine state.fifobuf state.mem size with
      ⟨_, _, _, _, _, other⟩ | ⟨_, _, _, _, _, other⟩ | ⟨same, _⟩
    · rw [other] at result
      obtain ⟨⟩ := result
    · rw [other] at result
      obtain ⟨⟩ := result
    · rw [same] at result
      obtain ⟨_, rfl, rfl⟩ := result
      exact ⟨⟨h.placed, h.sized, h.small⟩, fun inv => ⟨inv.layout, h.sized, h.small, rfl⟩⟩
  | some buf =>
    have fits : machine.need size = size.toNat + sz := by
      rcases ok with fits | refused
      · exact Machine.need_eq fits
      · rw [pjFifobufAlloc_none machine _ _ refused] at result
        obtain ⟨⟩ := result
    obtain ⟨start, rfl, rfl, first, last, layout⟩ := h.placed.alloc state.mem fits result
    have inside := layout.bounds (show _ ∈ state.live ++ [_] from mem_concat_self)
    have small := h.small
    rw [← first, ← last] at small
    rw [Chunk.stop] at inside
    dsimp only
    have sized := fun chunk (member : chunk ∈ state.live ++ [_]) =>
      Machine.Sized.write h.sized layout.disjoint (by dsimp only at inside ⊢; omega) member
    exact ⟨⟨.inl layout, sized, small⟩, fun _ => ⟨layout, sized, small, rfl⟩⟩

/-- Freeing the oldest chunk keeps the invariant, if the end of the used part is behind the only
one. -/
theorem State.Kept.free (h : state.Kept machine) :
    (state.step machine .free).Kept machine ∧
      (state.Inv machine → state.Ok machine .free → (state.step machine .free).Inv machine) := by
  unfold State.step
  cases live : state.live with
  | nil => exact ⟨h, fun inv _ => inv⟩
  | cons oldest rest =>
    have placed := h.placed
    have sized := h.sized
    have small := h.small
    rw [live] at placed sized
    have layout := placed.resolve_right fun idle => cons_ne_nil _ _ idle.1
    have ⟨fifobuf, result, first, last, kept, laid⟩ := layout.freed (sized _ mem_cons_self)
    rw [← first, ← last] at small
    have sized' := fun chunk member => sized chunk (mem_cons_of_mem _ member)
    dsimp only
    rw [result]
    exact ⟨⟨kept, sized', small⟩, fun _ ok =>
      ⟨laid fun none => ok oldest (by rw [live, none]), sized', small, rfl⟩⟩

/-- Un-allocating the newest chunk keeps the invariant, if the end of the used part is behind it
and, when it is the only one, the used part starts at the start of the buffer. -/
theorem State.Kept.unalloc (h : state.Kept machine) :
    (state.step machine .unalloc).Kept machine ∧ (state.Inv machine →
      state.Ok machine .unalloc → (state.step machine .unalloc).Inv machine) := by
  unfold State.step
  cases newest : state.live.getLast? with
  | none => exact ⟨h, fun inv _ => inv⟩
  | some chunk =>
    have ⟨rest, live⟩ := getLast?_eq_some_iff.mp newest
    have placed := h.placed
    have sized := h.sized
    rw [live] at placed sized
    have layout := placed.resolve_right fun idle => by simp at idle
    dsimp only
    rw [pjFifobufUnalloc_eq state.fifobuf (sized chunk (by simp))]
    by_cases behind : Behind state.fifobuf chunk
    · have sized' := fun other member => sized other (mem_append_left _ member)
      rw [if_pos behind]
      rw [if_pos rfl, live, dropLast_concat]
      exact ⟨⟨layout.unallocated behind, sized', h.small⟩, fun _ ok =>
        ⟨layout.unalloc behind fun none => (ok chunk newest).2 (by rw [live, none]; rfl),
          sized', h.small, rfl⟩⟩
    · rw [if_neg behind]
      exact ⟨⟨h.placed, h.sized, h.small⟩, fun _ ok => absurd (ok chunk newest).1 behind⟩

/-! ## Steps that break it -/

/-- An empty buffer that is not reset has no room for all of it. -/
theorem State.not_safe_of_unreset (none : state.live = [])
    (large : state.fifobuf.first + sz ≤ state.fifobuf.last)
    (small : state.fifobuf.last < state.fifobuf.first + 2 ^ 32)
    (unreset : pjFifobufMaxSize state.fifobuf < state.fifobuf.last - state.fifobuf.first) :
    ¬state.Safe machine := by
  intro safe
  have size : (UInt32.ofNat (state.fifobuf.last - state.fifobuf.first - sz)).toNat =
      state.fifobuf.last - state.fifobuf.first - sz := Nat.mod_eq_of_lt (by omega)
  refine safe.reusable none (UInt32.ofNat (state.fifobuf.last - state.fifobuf.first - sz))
    (by rw [size]; omega) ?_
  have need := Machine.need_eq (machine.fits (by rw [size]; omega :
    (UInt32.ofNat (state.fifobuf.last - state.fifobuf.first - sz)).toNat + sz < 2 ^ 32))
  rw [pjFifobufAlloc_none machine _ _ (.inr (by rw [need, size]; omega))]

/-- A used part that starts or ends inside the buffer divides it. -/
theorem pjFifobufMaxSize_lt (lower : fifobuf.first < fifobuf.ubegin)
    (upper : fifobuf.ubegin < fifobuf.last)
    (uend : fifobuf.uend = fifobuf.ubegin ∨ fifobuf.uend = fifobuf.first) :
    pjFifobufMaxSize fifobuf < fifobuf.last - fifobuf.first := by
  unfold pjFifobufMaxSize
  split <;> omega

/-- Every other step breaks what the buffer promises. -/
theorem State.Inv.broken (h : state.Inv machine) {op : Op} (not : ¬state.Ok machine op) :
    ¬(state.step machine op).Safe machine := by
  have small := h.small
  have layout := h.layout
  have sized := h.sized
  cases op with
  | alloc size =>
    simp only [State.Ok, not_or, Nat.not_lt] at not
    obtain ⟨wraps, free, room⟩ := not
    have wide := Nat.pow_le_pow_right (by omega : 0 < 2) machine.atLeast
    have handed : ∃ start fifobuf mem, pjFifobufAlloc machine state.fifobuf state.mem size =
        (some (start + sz), fifobuf, mem) ∧ fifobuf.first = state.fifobuf.first ∧
          fifobuf.last = state.fifobuf.last := by
      rcases pjFifobufAlloc_cases machine state.fifobuf state.mem size with
        ⟨_, _, _, _, _, result⟩ | ⟨start, _, _, _, _, result⟩ | ⟨_, refused⟩
      · exact ⟨_, _, _, result, rfl, rfl⟩
      · exact ⟨start, _, _, result, rfl, rfl⟩
      · rcases refused with full | less | ⟨equal, less⟩
        · exact absurd full free
        · omega
        · have start := layout.ubegin_eq free equal
          rw [pjFifobufMaxSize, if_pos (by omega)] at room
          omega
    obtain ⟨start, fifobuf, mem, result, first, last⟩ := handed
    unfold State.step
    dsimp only
    rw [result]
    intro safe
    have inside := safe.inside { start := start, size := size.toNat } (by simp)
    rw [Chunk.stop] at inside
    dsimp only at inside
    omega
  | free =>
    simp only [State.Ok, not_forall] at not
    obtain ⟨chunk, live, not⟩ := not
    rw [live] at layout sized
    obtain ⟨start, lower, upper, uend⟩ := layout.only_not_behind not
    have size := chunk.start_lt_stop
    have result := pjFifobufFree_eq (sized chunk (by simp)) (Nat.le_of_lt lower) (.inl start)
      (by rw [if_neg (by omega)]; omega) (Nat.le_of_lt upper)
    rw [if_neg (by omega : chunk.stop ≠ state.fifobuf.last),
      if_neg (by omega : chunk.stop ≠ state.fifobuf.uend)] at result
    have stop : chunk.start + sz ≤ chunk.stop := Nat.le_add_right _ _
    unfold State.step
    rw [live]
    dsimp only
    rw [result]
    refine State.not_safe_of_unreset rfl ?_ small (pjFifobufMaxSize_lt ?_ upper (.inr uend))
    · show state.fifobuf.first + sz ≤ state.fifobuf.last
      omega
    · show state.fifobuf.first < chunk.stop
      omega
  | unalloc =>
    simp only [State.Ok, not_forall] at not
    obtain ⟨chunk, newest, not⟩ := not
    obtain ⟨rest, live⟩ := getLast?_eq_some_iff.mp newest
    have length := sized chunk (by simp [live])
    unfold State.step
    rw [newest]
    dsimp only
    rw [pjFifobufUnalloc_eq state.fifobuf length]
    by_cases behind : Behind state.fifobuf chunk
    · have only : state.live = [chunk] ∧ state.fifobuf.ubegin ≠ state.fifobuf.first := by
        by_contra other
        exact not ⟨behind, fun live => by_contra fun unreset => other ⟨live, unreset⟩⟩
      obtain ⟨single, unreset⟩ := only
      rw [single] at layout
      obtain ⟨lower, upper, start⟩ := layout.only_inside unreset
      have inside := layout.bounds (mem_singleton_self chunk)
      have stop : chunk.start + sz ≤ chunk.stop := Nat.le_add_right _ _
      rw [if_pos behind, single]
      refine State.not_safe_of_unreset rfl ?_ small (pjFifobufMaxSize_lt lower upper start)
      show state.fifobuf.first + sz ≤ state.fifobuf.last
      omega
    · rw [if_neg behind]
      intro safe
      have accepted := safe.accepted
      contradiction

/-- The invariant is kept by the steps that meet the condition. -/
theorem State.Inv.step (h : state.Inv machine) {op : Op} (ok : state.Ok machine op) :
    (state.step machine op).Inv machine := by
  have kept : state.Kept machine := ⟨.inl h.layout, h.sized, h.small⟩
  cases op with
  | alloc size => exact (kept.alloc ok).2 h
  | free => exact kept.free.2 h ok
  | unalloc => exact kept.unalloc.2 h ok

theorem State.init_inv (machine : Machine) (buffer : Nat) (size : UInt32) (mem : Nat → UInt8) :
    (State.init buffer size mem).Inv machine where
  layout := .empty rfl rfl rfl
  sized := nofun
  small := Nat.add_lt_add_left size.toNat_lt buffer
  accepted := rfl

/-- A run of a buffer is safe if and only if each of its steps meets the condition. -/
theorem fifobuf_safe_iff (machine : Machine) (buffer : Nat) (size : UInt32) (mem : Nat → UInt8)
    (ops : List Op) :
    Run.Always (State.step machine) (State.Safe machine) (State.init buffer size mem) ops ↔
      Run.Meets (State.step machine) (State.Ok machine) (State.init buffer size mem) ops :=
  Run.always_iff (fun _ _ h ok => h.step ok) (fun _ h => h.safe) (fun _ _ h not => h.broken not)
    (State.init_inv machine buffer size mem)

/-- A buffer of 20 bytes refuses to un-allocate its newest chunk once the wrapped one in front of it
is un-allocated, one of 16 bytes whose last chunk is un-allocated has no room for 12 bytes, and a
request of nearly `2 ^ 32` bytes is granted by a machine of 32 bits. -/
theorem fifobuf_unsafe :
    let machine : Machine := { order := .little, bits := 32, atLeast := by decide }
    let run (size : UInt32) (ops : List Op) : State :=
      ops.foldl (State.step machine) (State.init 4096 size fun _ => 0)
    (run 20 [.alloc 4, .alloc 4, .free, .alloc 4, .unalloc, .unalloc]).accepted = false ∧
      (run 16 [.alloc 4, .alloc 4, .free, .unalloc]).live = [] ∧
      (run 16 [.alloc 4, .alloc 4, .free, .unalloc, .alloc 12]).live = [] ∧
      (run 16 [.alloc 4294967292]).live = [{ start := 4096, size := 4294967292 }] := by
  decide

end Pj.Fifobuf
