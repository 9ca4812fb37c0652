import Pjproject.Lib.Memory
import Pjproject.Pjlib.ByteOrder

/-!
# FIFO buffer

The memory manager of `fifobuf.c`. A chunk is a length of 4 bytes, which counts itself, and the
memory that is handed out behind it. Addresses do not wrap: the buffer is in the address space.
A sum of type `size_t` wraps at the word size of the machine.
-/

namespace Pj

/-- `pj_fifobuf_t`. -/
structure Fifobuf where
  /-- The start of the buffer. -/
  first : Nat
  /-- The end of the buffer. -/
  last : Nat
  /-- The start of the used part. -/
  ubegin : Nat
  /-- The end of the used part. -/
  uend : Nat
  full : Bool
deriving DecidableEq, Repr

namespace Fifobuf

/-- What the code depends on: the byte order, and the number of bits of a `size_t`. -/
structure Machine where
  order : ByteOrder
  bits : Nat
  atLeast : 32 ≤ bits

/-- `SZ`. -/
def sz : Nat := 4

/-- `pj_fifobuf_init`. -/
def pjFifobufInit (buffer : Nat) (size : UInt32) : Fifobuf :=
  { first := buffer, last := buffer + size.toNat, ubegin := buffer, uend := buffer, full := false }

/-- `pj_fifobuf_max_size`. -/
def pjFifobufMaxSize (fifobuf : Fifobuf) : Nat :=
  if fifobuf.ubegin ≤ fifobuf.uend then
    max (fifobuf.last - fifobuf.uend) (fifobuf.ubegin - fifobuf.first)
  else fifobuf.ubegin - fifobuf.uend

/-- `size + SZ`. -/
def Machine.need (machine : Machine) (size : UInt32) : Nat :=
  (size.toNat + sz) % 2 ^ machine.bits

/-- The length at the start of a chunk is written. -/
def Machine.writeLength (machine : Machine) (mem : Nat → UInt8) (ptr length : Nat) : Nat → UInt8 :=
  Memory.store mem ptr (store32 machine.order (UInt32.ofNat length))

/-- The length at the start of a chunk is read. -/
def Machine.readLength (machine : Machine) (mem : Nat → UInt8) (ptr : Nat) : Nat :=
  (load32 machine.order mem ptr).toNat

/-- `pj_fifobuf_alloc`: the pointer or null, the manager and the memory. -/
def pjFifobufAlloc (machine : Machine) (fifobuf : Fifobuf) (mem : Nat → UInt8) (size : UInt32) :
    Option Nat × Fifobuf × (Nat → UInt8) :=
  let need := machine.need size
  if fifobuf.full then (none, fifobuf, mem)
  else if fifobuf.ubegin ≤ fifobuf.uend ∧ need ≤ fifobuf.last - fifobuf.uend then
    let ptr := fifobuf.uend
    let uend := fifobuf.uend + need
    let uend := if uend = fifobuf.last then fifobuf.first else uend
    (some (ptr + sz), { fifobuf with uend := uend, full := uend = fifobuf.ubegin },
      machine.writeLength mem ptr need)
  else
    let start := if fifobuf.uend ≤ fifobuf.ubegin then fifobuf.uend else fifobuf.first
    if need ≤ fifobuf.ubegin - start then
      let uend := start + need
      (some (start + sz), { fifobuf with uend := uend, full := uend = fifobuf.ubegin },
        machine.writeLength mem start need)
    else (none, fifobuf, mem)

/-- `pj_fifobuf_unalloc`: the status and the manager. -/
def pjFifobufUnalloc (machine : Machine) (fifobuf : Fifobuf) (mem : Nat → UInt8) (buf : Nat) :
    Int × Fifobuf :=
  let ptr := buf - sz
  let length := machine.readLength mem ptr
  let endptr := if fifobuf.uend = fifobuf.first then fifobuf.last else fifobuf.uend
  if ptr + length ≠ endptr then (-1, fifobuf)
  else (0, { fifobuf with uend := ptr, full := false })

/-- `pj_fifobuf_free`: the status and the manager. -/
def pjFifobufFree (machine : Machine) (fifobuf : Fifobuf) (mem : Nat → UInt8) (buf : Nat) :
    Int × Fifobuf :=
  let ptr := buf - sz
  if ptr < fifobuf.first ∨ fifobuf.last ≤ ptr then (-1, fifobuf)
  else if ptr ≠ fifobuf.ubegin ∧ ptr ≠ fifobuf.first then (-1, fifobuf)
  else
    let stop := if fifobuf.ubegin < fifobuf.uend then fifobuf.uend else fifobuf.last
    let length := machine.readLength mem ptr
    if stop < ptr + length then (-1, fifobuf)
    else
      let ubegin := ptr + length
      -- rollover
      let ubegin := if ubegin = fifobuf.last then fifobuf.first else ubegin
      -- a buffer that is empty is reset
      if ubegin = fifobuf.uend then
        (0, { fifobuf with ubegin := fifobuf.first, uend := fifobuf.first, full := false })
      else (0, { fifobuf with ubegin := ubegin, full := false })

/-! ## Runs -/

/-- A chunk that was handed out, and the size that it was asked for. -/
structure Chunk where
  /-- The address of the length. -/
  start : Nat
  size : Nat
deriving DecidableEq, Repr

/-- The end of a chunk of that size. -/
def Chunk.stop (chunk : Chunk) : Nat := chunk.start + sz + chunk.size

/-- The operations: the oldest chunk is freed, and the newest one is un-allocated. -/
inductive Op
  | alloc (size : UInt32)
  | free
  | unalloc
deriving DecidableEq, Repr

/-- A buffer with its live chunks, the oldest first. -/
structure State where
  fifobuf : Fifobuf
  mem : Nat → UInt8
  live : List Chunk
  /-- The last operation on a live chunk returned 0. -/
  accepted : Bool

/-- A new buffer. -/
def State.init (buffer : Nat) (size : UInt32) (mem : Nat → UInt8) : State :=
  { fifobuf := pjFifobufInit buffer size, mem := mem, live := [], accepted := true }

/-- One operation. -/
def State.step (machine : Machine) (state : State) : Op → State
  | .alloc size =>
    match pjFifobufAlloc machine state.fifobuf state.mem size with
    | (none, fifobuf, mem) => { state with fifobuf := fifobuf, mem := mem, accepted := true }
    | (some buf, fifobuf, mem) =>
      { fifobuf := fifobuf, mem := mem
        live := state.live ++ [{ start := buf - sz, size := size.toNat }], accepted := true }
  | .free =>
    match state.live with
    | [] => state
    | oldest :: rest =>
      let (status, fifobuf) :=
        pjFifobufFree machine state.fifobuf state.mem (oldest.start + sz)
      { state with
        fifobuf := fifobuf, live := if status = 0 then rest else state.live
        accepted := status = 0 }
  | .unalloc =>
    match state.live.getLast? with
    | none => state
    | some newest =>
      let (status, fifobuf) :=
        pjFifobufUnalloc machine state.fifobuf state.mem (newest.start + sz)
      { state with
        fifobuf := fifobuf, live := if status = 0 then state.live.dropLast else state.live
        accepted := status = 0 }

end Fifobuf

end Pj
