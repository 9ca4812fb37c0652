import Pjproject.Lib.Regions

/-!
# Memory pool

The pool of `pool.c`, in a machine whose sizes and addresses are words. Only sizes wrap: the
memory that the factory gives is in the address space. What the factory answers to a request for a
block is an argument of the operation.
-/

namespace Pj

/-- `pj_pool_block`. -/
structure PoolBlock where
  /-- The memory of the factory: the block itself, or the pool that its first block follows. -/
  mem : Nat
  buf : Nat
  cur : Nat
  /-- `end`. -/
  stop : Nat
deriving DecidableEq, Repr

/-- `pj_pool_t`. The last block is the one that was created with the pool. -/
structure Pool where
  /-- Data put by factory. -/
  factoryData : Nat
  capacity : Nat
  incrementSize : Nat
  /-- `block_list`, from `next` on. -/
  blockList : List PoolBlock
deriving DecidableEq, Repr

namespace Pool

/-- `PJ_POOL_ALIGNMENT`. -/
def alignment : Nat := 4

/-- What the code is compiled to: the number of bits of a `pj_size_t`, and the sizes of the two
structures, which begin with pointers. -/
structure Target where
  bits : Nat
  sizeofPool : Nat
  sizeofBlock : Nat
  wide : alignment < 2 ^ bits
  pool_aligned : alignment ∣ sizeofPool
  block_aligned : alignment ∣ sizeofBlock

/-- A result of type `pj_size_t`. -/
def Target.word (target : Target) (value : Nat) : Nat := value % 2 ^ target.bits

/-- A difference of type `pj_size_t`. -/
def Target.sub (target : Target) (left right : Nat) : Nat :=
  target.word (left + 2 ^ target.bits - right)

/-- `ALIGN_PTR` with `PJ_POOL_ALIGNMENT`. -/
def alignPtr (ptr : Nat) : Nat := ptr + (alignment - ptr % alignment) % alignment

/-- The size that a request is rounded to in `pj_pool_alloc_from_block`: a sum without its low
bits, if the size has any. -/
def Target.rounded (target : Target) (size : Nat) : Nat :=
  if size % alignment ≠ 0 then
    target.word (size + alignment) - target.word (size + alignment) % alignment
  else size

/-- `pj_pool_alloc_from_block`. -/
def pjPoolAllocFromBlock (target : Target) (block : PoolBlock) (size : Nat) :
    Option Nat × PoolBlock :=
  let size := target.rounded size
  if size ≤ target.sub block.stop block.cur then
    (some block.cur, { block with cur := block.cur + size })
  else (none, block)

/-- The loop of `pj_pool_allocate_find`: the pointer and the blocks. -/
def allocFromBlocks (target : Target) (size : Nat) :
    List PoolBlock → Option (Nat × List PoolBlock)
  | [] => none
  | block :: rest =>
    match pjPoolAllocFromBlock target block size with
    | (some ptr, block) => some (ptr, block :: rest)
    | (none, block) =>
      (allocFromBlocks target size rest).map fun (ptr, rest) => (ptr, block :: rest)

/-- The size of the block that `pj_pool_allocate_find` asks for. -/
def growSize (target : Target) (pool : Pool) (size : Nat) : Nat :=
  if pool.incrementSize < target.word (size + target.sizeofBlock + alignment) then
    let count :=
      target.word (size + pool.incrementSize + target.sizeofBlock + alignment) / pool.incrementSize
    target.word (count * pool.incrementSize)
  else pool.incrementSize

/-- `pj_pool_create_block`, in the memory that the factory gave. -/
def pjPoolCreateBlock (target : Target) (pool : Pool) (size address : Nat) : PoolBlock × Pool :=
  let block : PoolBlock :=
    { mem := address, buf := address + target.sizeofBlock
      cur := alignPtr (address + target.sizeofBlock), stop := address + size }
  (block, { pool with
    capacity := target.word (pool.capacity + size), blockList := block :: pool.blockList })

/-- `pj_pool_allocate_find`. -/
def pjPoolAllocateFind (target : Target) (pool : Pool) (size : Nat) (answer : Option Nat) :
    Option Nat × Pool :=
  match allocFromBlocks target size pool.blockList with
  | some (ptr, blocks) => (some ptr, { pool with blockList := blocks })
  | none =>
    if pool.incrementSize = 0 then (none, pool)
    else
      match answer with
      | none => (none, pool)
      | some address =>
        let (block, grown) := pjPoolCreateBlock target pool (growSize target pool size) address
        let (ptr, block) := pjPoolAllocFromBlock target block size
        (ptr, { grown with blockList := block :: pool.blockList })

/-- `pj_pool_alloc`. -/
def pjPoolAlloc (target : Target) (pool : Pool) (size : Nat) (answer : Option Nat) :
    Option Nat × Pool :=
  match pool.blockList with
  | [] => pjPoolAllocateFind target pool size answer
  | block :: rest =>
    match pjPoolAllocFromBlock target block size with
    | (some ptr, block) => (some ptr, { pool with blockList := block :: rest })
    | (none, _) => pjPoolAllocateFind target pool size answer

/-- `pj_pool_calloc`, but for the contents of the memory. -/
def pjPoolCalloc (target : Target) (pool : Pool) (count size : Nat) (answer : Option Nat) :
    Option Nat × Pool :=
  pjPoolAlloc target pool (target.word (size * count)) answer

/-- `pj_pool_create_int`. -/
def pjPoolCreateInt (target : Target) (initialSize incrementSize : Nat) (answer : Option Nat) :
    Option Pool :=
  if initialSize < target.sizeofPool + target.sizeofBlock then none
  else
    answer.map fun buffer =>
      let buf := buffer + target.sizeofPool + target.sizeofBlock
      { factoryData := 0, capacity := initialSize, incrementSize := incrementSize
        blockList :=
          [{ mem := buffer, buf := buf, cur := alignPtr buf, stop := buffer + initialSize }] }

/-- `pj_pool_init_int`. -/
def pjPoolInitInt (pool : Pool) (incrementSize : Nat) : Pool :=
  { pool with incrementSize := incrementSize }

/-- `reset_pool`: all blocks but the first one that was created are freed. -/
def pjPoolReset (target : Target) (pool : Pool) : Pool :=
  match pool.blockList.getLast? with
  | none => pool
  | some first =>
    { pool with
      capacity := target.sub first.stop first.mem
      blockList := [{ first with cur := alignPtr first.buf }] }

end Pool

end Pj
