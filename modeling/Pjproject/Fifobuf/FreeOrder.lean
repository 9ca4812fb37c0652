import Pjproject.Fifobuf.Safety

/-!
# Freeing out of order

A live chunk that is not the oldest one is refused by `pj_fifobuf_free`, unless it starts the buffer:
the check of the sequence lets a chunk at the start of the buffer pass, as the next one to free
may be there after the gap at the end. Runs in which a request wraps are left out; there the chunks
overlap already.
-/

namespace Pj.Fifobuf
open List Consecutive

variable {machine : Machine} {state : State} {fifobuf : Fifobuf} {chunk : Chunk} {rest : List Chunk}

/-! ## Runs -/

theorem State.Kept.step (h : state.Kept machine) {op : Op} (fits : state.Fits machine op) :
    (state.step machine op).Kept machine := by
  cases op with
  | alloc size => exact (h.alloc fits).1
  | free => exact h.free.1
  | unalloc => exact h.unalloc.1

theorem State.init_kept (machine : Machine) (buffer : Nat) (size : UInt32) (mem : Nat → UInt8) :
    (State.init buffer size mem).Kept machine :=
  ⟨.inl (State.init_inv machine buffer size mem).layout, nofun,
    (State.init_inv machine buffer size mem).small⟩

/-! ## A chunk that is not the oldest -/

/-- A chunk elsewhere than at the start of the used part or of the buffer is refused. -/
theorem pjFifobufFree_refused (machine : Machine) (mem : Nat → UInt8)
    (used : chunk.start ≠ fifobuf.ubegin) (front : chunk.start ≠ fifobuf.first) :
    pjFifobufFree machine fifobuf mem (chunk.start + sz) = (-1, fifobuf) := by
  unfold pjFifobufFree
  dsimp only
  rw [Nat.add_sub_cancel, if_pos (show _ ∧ _ from ⟨used, front⟩)]
  exact ite_self _

section
variable {oldest : Chunk} (h : Layout fifobuf (oldest :: rest)) (member : chunk ∈ rest)
include h member

/-- A later chunk does not start the used part, and starts the buffer only behind the gap. -/
theorem Layout.later :
    chunk.start ≠ fifobuf.ubegin ∧
      (chunk.start = fifobuf.first → fifobuf.uend ≤ fifobuf.ubegin) := by
  have behind : ∀ {lower upper : Nat} {later : List Chunk},
      Chunks lower upper (oldest :: later) → chunk ∈ later → lower < chunk.start := by
    intro lower upper later used member
    have start := used.1
    have order := used.2.1
    have after := (used.2.2.bounds member).1
    omega
  generalize whole : oldest :: rest = chunks at h
  cases h with
  | empty => simp at whole
  | straight some lower upper used =>
    rw [← whole] at used
    have start := behind used member
    exact ⟨by omega, by omega⟩
  | filled some ubegin uend used =>
    rw [← whole] at used
    have start := behind used member
    exact ⟨by omega, by omega⟩
  | @wrapped old new gap some lower upper before inside later apart =>
    refine ⟨?_, fun _ => apart⟩
    cases old with
    | nil =>
      rw [← show oldest :: rest = new from whole] at later
      have ⟨_, order, stop⟩ := later.bounds (mem_cons_of_mem oldest member)
      omega
    | cons first old =>
      obtain ⟨rfl, rfl⟩ := List.cons.inj whole
      rcases mem_append.mp member with member | member
      · have start := behind before member
        omega
      · have ⟨_, order, stop⟩ := later.bounds member
        omega

/-- A later chunk is refused if and only if it does not start the buffer. -/
theorem Layout.later_refused_iff {mem : Nat → UInt8} (sized : machine.Sized mem chunk) :
    pjFifobufFree machine fifobuf mem (chunk.start + sz) = (-1, fifobuf) ↔
      chunk.start ≠ fifobuf.first := by
  have ⟨used, gap⟩ := h.later member
  have ⟨lower, inside⟩ := h.bounds (mem_cons_of_mem oldest member)
  constructor
  · intro refused front
    have apart := gap front
    rw [pjFifobufFree_eq sized lower (.inr front) (by rw [if_neg (by omega)]; exact inside) inside]
      at refused
    have status := (Prod.mk.inj refused).1
    contradiction
  · exact pjFifobufFree_refused machine mem used

end

/-- In every state that a run without wrapped requests reaches, a live chunk that is not the oldest
one is refused, and the manager left as it is, if and only if it does not start the buffer. -/
theorem free_later_refused_iff (machine : Machine) (buffer : Nat) (size : UInt32)
    (mem : Nat → UInt8) {ops : List Op}
    (fits : Run.Meets (State.step machine) (State.Fits machine) (State.init buffer size mem) ops)
    {oldest chunk : Chunk} {rest : List Chunk}
    (live : (ops.foldl (State.step machine) (State.init buffer size mem)).live = oldest :: rest)
    (member : chunk ∈ rest) :
    let state := ops.foldl (State.step machine) (State.init buffer size mem)
    pjFifobufFree machine state.fifobuf state.mem (chunk.start + sz) = (-1, state.fifobuf) ↔
      chunk.start ≠ state.fifobuf.first := by
  have always : Run.Always (State.step machine) (State.Kept machine)
      (State.init buffer size mem) ops :=
    Run.always (fun _ _ kept fits => kept.step fits) (State.init_kept machine buffer size mem) fits
  have kept := always.last
  have placed := kept.placed
  have sized := kept.sized
  rw [live] at placed sized
  have layout := placed.resolve_right fun idle => cons_ne_nil _ _ idle.1
  exact layout.later_refused_iff member (sized chunk (mem_cons_of_mem oldest member))

/-- A buffer of 24 bytes holds three chunks, the first is freed, and the next one is placed in front
of the two left. -/
def wrappedOps : List Op :=
  [.alloc 4, .alloc 4, .alloc 4, .free, .alloc 4]

/-- The newest of three live chunks starts the buffer and is freed before the two older ones. The
buffer counts as empty then, and the second chunk handed out next is where the oldest one is. -/
theorem free_later_accepted :
    let machine : Machine := { order := .little, bits := 32, atLeast := by decide }
    let state := wrappedOps.foldl (State.step machine) (State.init 4096 24 fun _ => 0)
    let freed := pjFifobufFree machine state.fifobuf state.mem 4100
    let front := pjFifobufAlloc machine freed.2 state.mem 4
    let again := pjFifobufAlloc machine front.2.1 front.2.2 4
    state.live = [{ start := 4104, size := 4 }, { start := 4112, size := 4 },
        { start := 4096, size := 4 }] ∧
      freed.1 = 0 ∧ front.1 = some 4100 ∧ again.1 = some 4108 := by
  decide

/-- The middle one of the three is refused. -/
theorem free_later_refused_iff_middle :
    let machine : Machine := { order := .little, bits := 32, atLeast := by decide }
    let state := wrappedOps.foldl (State.step machine) (State.init 4096 24 fun _ => 0)
    pjFifobufFree machine state.fifobuf state.mem 4116 = (-1, state.fifobuf) := by
  intro machine state
  have live : state.live = [{ start := 4104, size := 4 }, { start := 4112, size := 4 },
      { start := 4096, size := 4 }] := by decide
  have refused := free_later_refused_iff machine 4096 24 (fun _ => 0)
    (show Run.Meets (State.step machine) (State.Fits machine) _ wrappedOps by decide) live
    mem_cons_self
  exact refused.mpr (by decide)

end Pj.Fifobuf
