import Pjproject.Pool.Pool

/-!
# Caching pool

The pool factory of `pool_caching.c`. It keeps released pools in lists by size class, up to a
capacity, and hands them out again. A pool is known by the address of its memory.
-/

namespace Pj

/-- `pj_caching_pool`. -/
structure CachingPool where
  /-- Total capacity of the pools in the free lists. -/
  capacity : Nat
  maxCapacity : Nat
  usedCount : Nat
  freeList : List (List Pool)
  usedList : List Pool
deriving DecidableEq, Repr

namespace CachingPool
open Pool

/-- `PJ_CACHING_POOL_ARRAY_SIZE`. -/
def arraySize : Nat := 16

/-- `pool_sizes`. -/
def poolSizes : List Nat :=
  [256, 512, 1024, 2048, 4096, 8192, 12288, 16384,
    20480, 24576, 28672, 32768, 40960, 49152, 57344, 65536]

/-- The size of a class. -/
def poolSize (idx : Nat) : Nat := poolSizes.getD idx 0

/-- `START_SIZE`. -/
def startSize : Nat := 5

/-- `pj_caching_pool_init`. -/
def pjCachingPoolInit (maxCapacity : Nat) : CachingPool :=
  { capacity := 0, maxCapacity := maxCapacity, usedCount := 0
    freeList := List.replicate arraySize [], usedList := [] }

/-- The downward search of `cpool_create_pool`, from the class below. -/
def searchDown (initialSize : Nat) : Nat → Nat
  | 0 => 0
  | idx + 1 => if initialSize ≤ poolSize idx then searchDown initialSize idx else idx + 1

/-- The upward search of `cpool_create_pool`, with the number of classes that are left. -/
def searchUp (initialSize : Nat) : Nat → Nat
  | 0 => arraySize
  | left + 1 =>
    let idx := arraySize - (left + 1)
    if poolSize idx < initialSize then searchUp initialSize left else idx

/-- The class that `cpool_create_pool` finds, which is past the last one for a larger size. -/
def sizeClass (initialSize : Nat) : Nat :=
  if initialSize ≤ poolSize startSize then searchDown initialSize startSize
  else searchUp initialSize (arraySize - (startSize + 1))

/-- A pool is put in the used list. -/
def use (cp : CachingPool) (target : Target) (pool : Pool) (idx : Nat) :
    Option Pool × CachingPool :=
  let pool := { pool with factoryData := idx }
  (some pool,
    { cp with usedList := cp.usedList ++ [pool], usedCount := target.word (cp.usedCount + 1) })

/-- `cpool_create_pool`, with what the policy answers if it is asked for a block. -/
def cpoolCreatePool (target : Target) (cp : CachingPool) (initialSize incrementSz : Nat)
    (answer : Option Nat) : Option Pool × CachingPool :=
  let idx := sizeClass initialSize
  match cp.freeList[idx]? with
  | some (pool :: rest) =>
    let pool := pjPoolInitInt pool incrementSz
    let capacity := if pool.capacity < cp.capacity then cp.capacity - pool.capacity else 0
    use { cp with freeList := cp.freeList.set idx rest, capacity := capacity } target pool idx
  | _ =>
    let initialSize := if idx < arraySize then poolSize idx else initialSize
    match pjPoolCreateInt target initialSize incrementSz answer with
    | none => (none, cp)
    | some pool => use cp target pool idx

/-- `cpool_release_pool`, of the pool at a position of the used list. -/
def cpoolReleasePool (target : Target) (cp : CachingPool) (index : Nat) : CachingPool :=
  match cp.usedList[index]? with
  | none => cp
  | some pool =>
    let cp := { cp with
      usedList := cp.usedList.eraseIdx index, usedCount := target.sub cp.usedCount 1 }
    if poolSize (arraySize - 1) < pool.capacity ∨
        cp.maxCapacity < target.word (cp.capacity + pool.capacity) then cp
    else
      let pool := pjPoolReset target pool
      let i := pool.factoryData
      if arraySize ≤ i then cp
      else
        { cp with
          freeList := cp.freeList.modify i (pool :: ·)
          capacity := target.word (cp.capacity + pool.capacity) }

/-! ## Runs -/

/-- The operations, on pools of the used list. -/
inductive Op
  | create (initialSize incrementSz : Nat) (answer : Option Nat)
  | alloc (index size : Nat) (answer : Option Nat)
  | release (index : Nat)
deriving DecidableEq, Repr

/-- One operation. -/
def step (target : Target) (cp : CachingPool) : Op → CachingPool
  | .create initialSize incrementSz answer =>
    (cpoolCreatePool target cp initialSize incrementSz answer).2
  | .alloc index size answer =>
    { cp with
      usedList := cp.usedList.modify index fun pool => (pjPoolAlloc target pool size answer).2 }
  | .release index => cpoolReleasePool target cp index

end CachingPool

end Pj
