import Mathlib.Algebra.Order.BigOperators.Group.List
import Mathlib.Algebra.Order.Group.Nat
import Pjproject.Lib.Entries
import Pjproject.Pool.Caching
import Pjproject.Pool.Soundness

/-!
# Accounts of a caching pool

The capacity of a caching pool is that of the pools in its free lists, each of which has the size
of its class, and the count is that of the pools in use. The memory of all pools is apart, so that
no sum of sizes is larger than the address space.
-/

namespace Pj
open Option List

/-- The memory of the blocks of a pool. -/
def Pool.extents (pool : Pool) : List Region := pool.blockList.map PoolBlock.extent

/-- The address of a pool is that of its first block's memory. -/
def Pool.address (pool : Pool) : Option Nat := pool.extents.getLast?.map Region.start

namespace CachingPool
open Pool

variable (target : Target)

/-- All pools of a caching pool. -/
def pools (cp : CachingPool) : List Pool := cp.usedList ++ cp.freeList.flatten

/-- What a caching pool promises. -/
structure Safe (cp : CachingPool) : Prop where
  capacity : cp.capacity = (cp.freeList.flatten.map Pool.capacity).sum
  bounded : cp.capacity ≤ cp.maxCapacity
  usedCount : cp.usedCount = cp.usedList.length
  /-- No pool is in two lists. -/
  distinct : (cp.pools.map Pool.address).Nodup
  parked : ∀ i pool, pool ∈ cp.freeList.getD i [] →
    pjPoolReset target pool = pool ∧ poolSize i ≤ pool.capacity
  created : ∀ initialSize incrementSz answer pool,
    (cpoolCreatePool target cp initialSize incrementSz answer).1 = some pool →
      initialSize ≤ pool.capacity

/-- Memory that the policy gives is in the address space and not in use by any pool. -/
def Fresh (cp : CachingPool) (address size : Nat) : Prop :=
  address + size < 2 ^ target.bits ∧
    ∀ extent ∈ cp.pools.flatMap Pool.extents,
      Region.Apart { start := address, size := size } extent

/-- The size that a new pool is created with. -/
def createSize (initialSize : Nat) : Nat :=
  if sizeClass initialSize < arraySize then poolSize (sizeClass initialSize) else initialSize

/-- The policy gives fresh memory of the size that it is asked for. -/
def Given (cp : CachingPool) : Op → Prop
  | .create initialSize _ answer =>
    ∀ address ∈ answer, cp.Fresh target address (createSize initialSize)
  | .alloc index size answer =>
    ∀ pool ∈ cp.usedList[index]?, pool.Asks target size →
      ∀ address ∈ answer, cp.Fresh target address (growSize target pool size)
  | .release _ => True

/-- A pool with the memory of its blocks, the first of which has the size of its class. -/
structure PoolWf (pool : Pool) : Prop where
  capacity : pool.capacity = (pool.extents.map Region.size).sum
  placed : ∀ block ∈ pool.blockList, block.mem ≤ block.stop ∧ block.stop < 2 ^ target.bits
  classified : ∃ first, pool.extents.getLast? = some first ∧
    if pool.factoryData < arraySize then first.size = poolSize pool.factoryData
    else poolSize (arraySize - 1) < first.size

/-- The invariant. -/
structure Inv (cp : CachingPool) : Prop where
  wf : ∀ pool ∈ cp.pools, PoolWf target pool
  apart : (cp.pools.flatMap Pool.extents).Pairwise Region.Apart
  lists : cp.freeList.length = arraySize
  parked : ∀ i pool, pool ∈ cp.freeList.getD i [] →
    pool.factoryData = i ∧ pjPoolReset target pool = pool
  capacity : cp.capacity = (cp.freeList.flatten.map Pool.capacity).sum
  bounded : cp.capacity ≤ cp.maxCapacity
  usedCount : cp.usedCount = cp.usedList.length

/-! ## Size classes -/

variable {initialSize : Nat}

variable {idx : Nat}

theorem searchDown_spec (fits : initialSize ≤ poolSize idx) :
    searchDown initialSize idx ≤ idx ∧ initialSize ≤ poolSize (searchDown initialSize idx) := by
  induction idx with
  | zero => exact ⟨le_rfl, fits⟩
  | succ idx ih =>
    rw [searchDown]
    split
    · next smaller =>
      have ⟨bound, found⟩ := ih smaller
      exact ⟨by omega, found⟩
    · exact ⟨le_rfl, fits⟩

theorem searchUp_spec (initialSize : Nat) {left : Nat} (bound : left ≤ arraySize)
    (larger : left < arraySize → poolSize (arraySize - (left + 1)) < initialSize) :
    searchUp initialSize left < arraySize ∧
        initialSize ≤ poolSize (searchUp initialSize left) ∨
      searchUp initialSize left = arraySize ∧ poolSize (arraySize - 1) < initialSize := by
  induction left with
  | zero => exact .inr ⟨rfl, larger (by decide)⟩
  | succ left ih =>
    rw [searchUp]
    split
    · next more => exact ih (by omega) fun _ => more
    · next found => exact .inl ⟨by omega, by omega⟩

/-- The class has pools of the size or more, or the size is larger than all classes. -/
theorem sizeClass_spec (initialSize : Nat) :
    sizeClass initialSize < arraySize ∧ initialSize ≤ poolSize (sizeClass initialSize) ∨
      sizeClass initialSize = arraySize ∧ poolSize (arraySize - 1) < initialSize := by
  unfold sizeClass
  split
  · next small =>
    have ⟨bound, found⟩ := searchDown_spec small
    have start : startSize < arraySize := by decide
    exact .inl ⟨by omega, found⟩
  · next large =>
    exact searchUp_spec initialSize (by decide) fun _ => Nat.lt_of_not_le large

/-! ## Pools -/

variable {pool : Pool}

variable {target}

/-- The sizes of the blocks are the capacities of the pools. -/
theorem sum_capacity {pools : List Pool} (wf : ∀ pool ∈ pools, PoolWf target pool) :
    ((pools.flatMap Pool.extents).map Region.size).sum = (pools.map Pool.capacity).sum := by
  induction pools with
  | nil => rfl
  | cons pool rest ih =>
    rw [flatMap_cons, map_append, sum_append, map_cons, sum_cons,
      (wf pool mem_cons_self).capacity,
      ih fun other member => wf other (mem_cons_of_mem _ member)]

/-- The memory of pools is in the address space. -/
theorem PoolWf.stop_lt (h : PoolWf target pool) {extent : Region} (member : extent ∈ pool.extents) :
    extent.stop < 2 ^ target.bits := by
  obtain ⟨block, inPool, rfl⟩ := mem_map.mp member
  have ⟨order, below⟩ := h.placed block inPool
  show block.mem + (block.stop - block.mem) < _
  omega

/-- Regions that are apart in the address space are smaller than it. -/
theorem sum_lt {regions : List Region} (apart : regions.Pairwise Region.Apart)
    (below : ∀ region ∈ regions, region.stop < 2 ^ target.bits) :
    (regions.map Region.size).sum < 2 ^ target.bits := by
  have positive := Nat.two_pow_pos target.bits
  have bound := Region.sum_size_le apart 0 (2 ^ target.bits - 1) fun region member =>
    ⟨Nat.zero_le _, Nat.le_sub_one_of_lt (below region member)⟩
  omega

/-- The first block has the size of a class, or more than all classes. -/
theorem PoolWf.first_size (h : PoolWf target pool) :
    ∃ first, pool.extents.getLast? = some first ∧ 0 < first.size := by
  have ⟨first, last, size⟩ := h.classified
  refine ⟨first, last, ?_⟩
  have positive : ∀ idx : Fin arraySize, 0 < poolSize idx := by decide
  split at size
  · next idx =>
    rw [size]
    exact positive ⟨_, idx⟩
  · omega

/-- A reset leaves the first block. -/
theorem PoolWf.reset (h : PoolWf target pool) :
    ∃ first, pool.extents.getLast? = some first ∧
      (pjPoolReset target pool).extents = [first] ∧
      (pjPoolReset target pool).capacity = first.size ∧
      (pjPoolReset target pool).factoryData = pool.factoryData ∧
      PoolWf target (pjPoolReset target pool) ∧
      pjPoolReset target (pjPoolReset target pool) = pjPoolReset target pool := by
  have ⟨extent, last, size⟩ := h.classified
  have getLast := last
  rw [Pool.extents, getLast?_map, map_eq_some_iff] at getLast
  obtain ⟨first, isLast, rfl⟩ := getLast
  have ⟨order, below⟩ := h.placed first (mem_of_getLast? isLast)
  have sub : target.sub first.stop first.mem = first.stop - first.mem := target.sub_eq order below
  have reset : pjPoolReset target pool =
      { pool with
        capacity := first.stop - first.mem
        blockList := [{ first with cur := alignPtr first.buf }] } := by
    unfold pjPoolReset
    rw [isLast]
    dsimp only
    rw [sub]
  rw [reset]
  refine ⟨first.extent, last, rfl, rfl, rfl, ⟨?_, ?_, first.extent, rfl, size⟩, ?_⟩
  · show first.stop - first.mem = [first.stop - first.mem].sum
    simp
  · intro block member
    rw [mem_singleton.mp member]
    exact ⟨order, below⟩
  · unfold pjPoolReset
    dsimp only [getLast?_singleton]
    rw [sub]

/-- Serving a request does not move a block. -/
theorem pjPoolAllocFromBlock_placed (target : Target) (block : PoolBlock) (size : Nat) :
    (pjPoolAllocFromBlock target block size).2.mem = block.mem ∧
      (pjPoolAllocFromBlock target block size).2.stop = block.stop := by
  rw [pjPoolAllocFromBlock_eq]
  split <;> exact ⟨rfl, rfl⟩

/-- What an allocation leaves of a pool: its class, and its blocks with a new one or none. -/
theorem PoolWf.alloc (h : PoolWf target pool) {size : Nat} {answer : Option Nat}
    (room : pool.Asks target size → ∀ address ∈ answer,
      address + growSize target pool size < 2 ^ target.bits ∧
        pool.capacity + growSize target pool size < 2 ^ target.bits) :
    PoolWf target (pjPoolAlloc target pool size answer).2 ∧
      ((pjPoolAlloc target pool size answer).2.extents = pool.extents ∨
        ∃ address ∈ answer, pool.Asks target size ∧
          (pjPoolAlloc target pool size answer).2.extents =
            { start := address, size := growSize target pool size } :: pool.extents) := by
  rcases pjPoolAlloc_cases target pool size answer with
    ⟨before, block, after, parts, _, result⟩ | ⟨address, answered, asks, result⟩ | result
  · rw [result]
    have extents : ({ pool with blockList := before ++ target.serve block size :: after } :
        Pool).extents = pool.extents := by
      simp [Pool.extents, PoolBlock.extent, Target.serve, parts]
    refine ⟨⟨?_, ?_, ?_⟩, .inl extents⟩
    · rw [extents]
      exact h.capacity
    · intro other member
      rcases mem_append.mp member with member | member
      · exact h.placed other (by simp [parts, member])
      · rcases mem_cons.mp member with rfl | member
        · exact h.placed block (by simp [parts])
        · exact h.placed other (by simp [parts, member])
    · rw [extents]
      exact h.classified
  · obtain ⟨below, total⟩ := room asks address answered
    generalize growSize target pool size = grow at *
    have placed := pjPoolAllocFromBlock_placed target
      (pjPoolCreateBlock target pool grow address).1 size
    dsimp only at result
    generalize pjPoolAllocFromBlock target (pjPoolCreateBlock target pool grow address).1 size =
      served at result placed
    obtain ⟨ptr, block⟩ := served
    obtain ⟨mem, stop⟩ : block.mem = address ∧ block.stop = address + grow := placed
    have extent : block.extent = { start := address, size := grow } := by
      rw [PoolBlock.extent, mem, stop, Nat.add_sub_cancel_left]
    rw [result]
    obtain ⟨first, last, classified⟩ := h.classified
    refine ⟨⟨?_, ?_, first, ?_, classified⟩, .inr ⟨address, answered, asks, ?_⟩⟩
    · show target.word (pool.capacity + grow) =
        ((block.extent :: pool.extents).map Region.size).sum
      rw [map_cons, sum_cons, extent, ← h.capacity, Target.word,
        Nat.mod_eq_of_lt total]
      exact Nat.add_comm _ _
    · have own : block.mem ≤ block.stop ∧ block.stop < 2 ^ target.bits := by omega
      exact forall_mem_cons.mpr ⟨own, h.placed⟩
    · show (block.extent :: pool.extents).getLast? = some first
      rw [getLast?_cons, last]
      rfl
    · show block.extent :: pool.extents = _
      rw [extent]
  · rw [result]
    exact ⟨h, .inl rfl⟩

/-! ## The invariant -/

variable {cp : CachingPool}

/-- The first block is one of the pool's. -/
theorem PoolWf.capacity_pos (h : PoolWf target pool) : 0 < pool.capacity := by
  have ⟨first, last, size⟩ := h.first_size
  have member := mem_map_of_mem (f := Region.size) (mem_of_getLast? last)
  rw [h.capacity]
  exact Nat.lt_of_lt_of_le size (le_sum_of_mem member)

/-- The capacities of all pools together are a word, and so is their number. -/
theorem total_lt {pools : List Pool} (wf : ∀ pool ∈ pools, PoolWf target pool)
    (apart : (pools.flatMap Pool.extents).Pairwise Region.Apart) :
    (pools.map Pool.capacity).sum < 2 ^ target.bits ∧ pools.length < 2 ^ target.bits := by
  have total : (pools.map Pool.capacity).sum < 2 ^ target.bits := by
    rw [← sum_capacity wf]
    refine sum_lt apart fun region member => ?_
    have ⟨pool, inPools, inPool⟩ := mem_flatMap.mp member
    exact (wf pool inPools).stop_lt inPool
  have count : (pools.map Pool.capacity).length ≤ (pools.map Pool.capacity).sum := by
    refine length_le_sum_of_one_le _ fun capacity member => ?_
    obtain ⟨pool, inPools, rfl⟩ := mem_map.mp member
    exact (wf pool inPools).capacity_pos
  rw [length_map] at count
  exact ⟨total, by omega⟩

/-- A parked pool has the capacity of its class. -/
theorem PoolWf.parked_capacity (h : PoolWf target pool) (reset : pjPoolReset target pool = pool)
    (idx : pool.factoryData < arraySize) :
    pool.capacity = poolSize pool.factoryData := by
  have ⟨first, last, _, capacity, _⟩ := h.reset
  have ⟨first', last', size⟩ := h.classified
  rw [last] at last'
  obtain rfl := some.inj last'
  rw [if_pos idx] at size
  rw [reset] at capacity
  exact capacity.trans size

/-- A pool of a free list is in the list of its class. -/
theorem Inv.parked_pool (h : Inv target cp) {i : Nat} (member : pool ∈ cp.freeList.getD i []) :
    i < arraySize ∧ pool ∈ cp.pools ∧ pool.capacity = poolSize i := by
  have ⟨data, reset⟩ := h.parked i pool member
  have bound : i < cp.freeList.length := by
    by_contra outside
    rw [getD_eq_default _ _ (by omega)] at member
    contradiction
  rw [h.lists] at bound
  have inPools : pool ∈ cp.pools := by
    rw [getD_eq_getElem _ _ (h.lists.symm ▸ bound)] at member
    exact mem_append_right _ (mem_flatten.mpr ⟨_, getElem_mem _, member⟩)
  refine ⟨bound, inPools, ?_⟩
  rw [← data] at bound ⊢
  exact (h.wf pool inPools).parked_capacity reset bound

/-- Pools that do not share memory have different addresses. -/
theorem Inv.distinct (h : Inv target cp) :
    (cp.pools.map Pool.address).Nodup := by
  apply pairwise_map.mpr
  refine (pairwise_flatMap.mp h.apart).2.imp_of_mem ?_
  intro left right inPools inPools' apart
  have ⟨first, last, size⟩ := (h.wf left inPools).first_size
  have ⟨first', last', size'⟩ := (h.wf right inPools').first_size
  have disjoint := apart first (mem_of_getLast? last) first' (mem_of_getLast? last')
  rw [Pool.address, Pool.address, last, last']
  intro same
  have start : first.start = first'.start := some.inj same
  simp only [Region.Apart, Region.stop] at disjoint
  omega

/-- A pool that is created is one of its class, or a new one. -/
theorem cpoolCreatePool_cases (target : Target) (cp : CachingPool) (initialSize incrementSz : Nat)
    (answer : Option Nat) :
    (∃ pool rest, cp.freeList[sizeClass initialSize]? = some (pool :: rest) ∧
        cpoolCreatePool target cp initialSize incrementSz answer =
          use
            { cp with
              freeList := cp.freeList.set (sizeClass initialSize) rest
              capacity := if pool.capacity < cp.capacity then cp.capacity - pool.capacity else 0 }
            target (pjPoolInitInt pool incrementSz) (sizeClass initialSize)) ∨
      (∃ pool, pjPoolCreateInt target (createSize initialSize) incrementSz answer = some pool ∧
        cpoolCreatePool target cp initialSize incrementSz answer =
          use cp target pool (sizeClass initialSize)) ∨
      cpoolCreatePool target cp initialSize incrementSz answer = (none, cp) := by
  unfold cpoolCreatePool
  dsimp only
  split
  · next pool rest found => exact .inl ⟨pool, rest, found, rfl⟩
  · rw [← createSize]
    cases created : pjPoolCreateInt target (createSize initialSize) incrementSz answer with
    | none => exact .inr (.inr rfl)
    | some pool => exact .inr (.inl ⟨pool, rfl, rfl⟩)

/-- The size of a new pool is that of its class, or the larger one that was asked for. -/
theorem createSize_spec (initialSize : Nat) :
    initialSize ≤ createSize initialSize ∧
      if sizeClass initialSize < arraySize then
        createSize initialSize = poolSize (sizeClass initialSize)
      else poolSize (arraySize - 1) < createSize initialSize := by
  unfold createSize
  rcases sizeClass_spec initialSize with ⟨small, fits⟩ | ⟨large, more⟩
  · rw [if_pos small, if_pos small]
    exact ⟨fits, rfl⟩
  · rw [if_neg (by omega), if_neg (by omega)]
    exact ⟨le_rfl, more⟩

theorem Inv.safe (h : Inv target cp) : Safe target cp where
  capacity := h.capacity
  bounded := h.bounded
  usedCount := h.usedCount
  distinct := h.distinct
  parked i pool member :=
    ⟨(h.parked i pool member).2, Nat.le_of_eq (h.parked_pool member).2.2.symm⟩
  created initialSize incrementSz answer pool created := by
    have size := (createSize_spec initialSize).1
    rcases cpoolCreatePool_cases target cp initialSize incrementSz answer with
      ⟨reused, rest, found, result⟩ | ⟨new, made, result⟩ | result
    · rw [result] at created
      obtain rfl := some.inj created
      have member : reused ∈ cp.freeList.getD (sizeClass initialSize) [] := by
        rw [getD_eq_getElem?_getD, found]
        exact mem_cons_self
      have ⟨bound, _, capacity⟩ := h.parked_pool member
      show initialSize ≤ reused.capacity
      rw [capacity]
      rcases sizeClass_spec initialSize with ⟨_, fits⟩ | ⟨large, _⟩
      · exact fits
      · omega
    · rw [result] at created
      obtain rfl := some.inj created
      unfold pjPoolCreateInt at made
      split at made
      · contradiction
      · obtain ⟨_, _, rfl⟩ := map_eq_some_iff.mp made
        exact size
    · rw [result] at created
      contradiction

/-! ## Steps -/

variable {incrementSz : Nat}

/-- The pools after one of them has changed, or is new. -/
theorem arrange {pools others : List Pool} (perm : pools.Perm (pool :: others))
    (wf : PoolWf target pool) (wf' : ∀ other ∈ others, PoolWf target other)
    (apart : (pool.extents ++ others.flatMap Pool.extents).Pairwise Region.Apart) :
    (∀ other ∈ pools, PoolWf target other) ∧
      (pools.flatMap Pool.extents).Pairwise Region.Apart := by
  refine ⟨fun other member => ?_, ?_⟩
  · rcases mem_cons.mp (perm.mem_iff.mp member) with rfl | member
    · exact wf
    · exact wf' other member
  · exact ((perm.flatMap_right Pool.extents).pairwise_iff Region.Apart.symm).mpr apart

/-- One pool and the others. -/
theorem Inv.arranged (h : Inv target cp) {others : List Pool}
    (perm : cp.pools.Perm (pool :: others)) :
    PoolWf target pool ∧ (∀ other ∈ others, PoolWf target other) ∧
      (pool.extents ++ others.flatMap Pool.extents).Pairwise Region.Apart := by
  refine ⟨h.wf pool (perm.mem_iff.mpr mem_cons_self), fun other member =>
    h.wf other (perm.mem_iff.mpr (mem_cons_of_mem _ member)), ?_⟩
  exact ((perm.flatMap_right Pool.extents).pairwise_iff Region.Apart.symm).mp h.apart

/-- A pool in use, and the pools before and after it. -/
theorem used_parts {index : Nat} (found : cp.usedList[index]? = some pool) :
    ∃ before after, cp.usedList = before ++ pool :: after ∧
      cp.usedList.eraseIdx index = before ++ after ∧
      (∀ change : Pool → Pool, cp.usedList.modify index change = before ++ change pool :: after) ∧
      cp.pools.Perm (pool :: (before ++ after ++ cp.freeList.flatten)) := by
  obtain ⟨bound, rfl⟩ := List.getElem?_eq_some_iff.mp found
  have parts := take_append_drop index cp.usedList
  rw [drop_eq_getElem_cons bound] at parts
  refine ⟨_, _, parts.symm, eraseIdx_eq_take_drop_succ _ _, fun change =>
    modify_eq_take_cons_drop bound, ?_⟩
  rw [pools]
  nth_rewrite 1 [← parts]
  rw [append_assoc, cons_append, append_assoc]
  exact perm_middle

/-- Fresh memory and the pools are no larger together than the address space. -/
theorem Inv.fresh_total (h : Inv target cp) {address size : Nat}
    (fresh : cp.Fresh target address size) :
    (({ start := address, size := size } : Region) ::
        cp.pools.flatMap Pool.extents).Pairwise Region.Apart ∧
      size + (cp.pools.map Pool.capacity).sum < 2 ^ target.bits := by
  have apart := pairwise_cons.mpr ⟨fresh.2, h.apart⟩
  refine ⟨apart, ?_⟩
  rw [← sum_capacity h.wf]
  refine sum_lt apart fun region member => ?_
  rcases mem_cons.mp member with rfl | member
  · exact fresh.1
  · have ⟨pool, inPools, inPool⟩ := mem_flatMap.mp member
    exact (h.wf pool inPools).stop_lt inPool

/-- Allocations in a pool keep the invariant. -/
theorem Inv.alloc (h : Inv target cp) {index size : Nat} {answer : Option Nat}
    (given : Given target cp (.alloc index size answer)) :
    Inv target (cp.step target (.alloc index size answer)) := by
  unfold step
  cases found : cp.usedList[index]? with
  | none =>
    have same : cp.usedList.modify index (fun pool => (pjPoolAlloc target pool size answer).2) =
        cp.usedList := modify_eq_self (List.getElem?_eq_none_iff.mp found)
    dsimp only
    rw [same]
    exact h
  | some pool =>
    have ⟨before, after, parts, _, modified, perm⟩ := used_parts found
    have ⟨wf, wf', apart⟩ := h.arranged perm
    have fresh := given pool found
    have member : pool.capacity ∈ cp.pools.map Pool.capacity :=
      mem_map_of_mem (perm.mem_iff.mpr mem_cons_self)
    have part := le_sum_of_mem member
    have room : pool.Asks target size → ∀ address ∈ answer,
        address + growSize target pool size < 2 ^ target.bits ∧
          pool.capacity + growSize target pool size < 2 ^ target.bits := by
      intro asks address answered
      have total := (h.fresh_total (fresh asks address answered)).2
      exact ⟨(fresh asks address answered).1, by omega⟩
    have ⟨allocated, extents⟩ := wf.alloc room
    dsimp only
    rw [modified]
    generalize pjPoolAlloc target pool size answer = result at *
    have perm' : (pools { cp with usedList := before ++ result.2 :: after }).Perm
        (result.2 :: (before ++ after ++ cp.freeList.flatten)) := by
      rw [pools, append_assoc, cons_append, append_assoc]
      exact perm_middle
    have apart' : (result.2.extents ++
        (before ++ after ++ cp.freeList.flatten).flatMap Pool.extents).Pairwise Region.Apart := by
      rcases extents with same | ⟨address, answered, asks, more⟩
      · rw [same]
        exact apart
      · rw [more]
        have grown := (h.fresh_total (fresh asks address answered)).1
        exact (((perm.flatMap_right Pool.extents).cons _).pairwise_iff Region.Apart.symm).mp grown
    have ⟨all, allApart⟩ := arrange perm' allocated wf' apart'
    refine ⟨all, allApart, h.lists, h.parked, h.capacity, h.bounded, ?_⟩
    have count := h.usedCount
    rw [parts] at count
    simpa using count

/-- A pool that is put in the used list has the class that was found. -/
theorem PoolWf.use (h : PoolWf target pool)
    (size : ∀ first, pool.extents.getLast? = some first →
      if idx < arraySize then first.size = poolSize idx
      else poolSize (arraySize - 1) < first.size) :
    PoolWf target { pool with factoryData := idx } := by
  have ⟨first, last, _⟩ := h.classified
  exact ⟨h.capacity, h.placed, first, last, size first last⟩

/-- A pool that is put in use keeps the invariant. -/
theorem Inv.use (wf : PoolWf target { pool with factoryData := idx })
    (wf' : ∀ other ∈ cp.pools, PoolWf target other)
    (apart : (pool.extents ++ cp.pools.flatMap Pool.extents).Pairwise Region.Apart)
    (lists : cp.freeList.length = arraySize)
    (parked : ∀ i pool, pool ∈ cp.freeList.getD i [] →
      pool.factoryData = i ∧ pjPoolReset target pool = pool)
    (capacity : cp.capacity = (cp.freeList.flatten.map Pool.capacity).sum)
    (bounded : cp.capacity ≤ cp.maxCapacity) (usedCount : cp.usedCount = cp.usedList.length) :
    Inv target (cp.use target pool idx).2 := by
  have perm : (cp.use target pool idx).2.pools.Perm
      ({ pool with factoryData := idx } :: cp.pools) := by
    rw [pools, pools, CachingPool.use, append_assoc, singleton_append]
    exact perm_middle
  have ⟨all, allApart⟩ := arrange perm wf wf' apart
  have count := (total_lt all allApart).2
  rw [perm.length_eq, length_cons, pools, length_append] at count
  refine ⟨all, allApart, lists, parked, capacity, bounded, ?_⟩
  show target.word (cp.usedCount + 1) = (cp.usedList ++ [_]).length
  rw [usedCount, Target.word, Nat.mod_eq_of_lt (by omega), length_append]
  rfl

/-- A free list, and those before and after it. -/
theorem free_parts {list : List Pool} (found : cp.freeList[idx]? = some list) :
    ∃ before after, cp.freeList.flatten = before ++ list ++ after ∧
      (∀ list', (cp.freeList.set idx list').flatten = before ++ list' ++ after) ∧
      ∀ list' i, (cp.freeList.set idx list').getD i [] =
        if idx = i then list' else cp.freeList.getD i [] := by
  obtain ⟨bound, rfl⟩ := List.getElem?_eq_some_iff.mp found
  have ⟨before, after, whole, replaced⟩ := Entries.flatten_set bound
  rw [getD_eq_getElem _ _ bound] at whole
  exact ⟨before, after, whole, replaced, fun list' i => Entries.getD_set bound list' i⟩

/-- A parked pool is taken out of its list. -/
theorem Inv.reuse (h : Inv target cp) {reused : Pool} {rest : List Pool}
    (found : cp.freeList[idx]? = some (reused :: rest)) :
    Inv target
      (CachingPool.use
        { cp with
          freeList := cp.freeList.set idx rest
          capacity :=
            if reused.capacity < cp.capacity then cp.capacity - reused.capacity else 0 }
        target (pjPoolInitInt reused incrementSz) idx).2 := by
  have ⟨before, after, whole, replaced, lists⟩ := free_parts found
  have here : reused ∈ cp.freeList.getD idx [] := by
    rw [getD_eq_getElem?_getD, found]
    exact mem_cons_self
  have data := (h.parked idx reused here).1
  have perm : cp.pools.Perm (reused :: pools { cp with freeList := cp.freeList.set idx rest }) := by
    have middle : (before ++ (reused :: rest) ++ after).Perm
        (reused :: (before ++ rest ++ after)) := by
      simp only [append_assoc, cons_append]
      exact perm_middle
    rw [pools, pools, whole, replaced]
    exact (middle.append_left cp.usedList).trans perm_middle
  have ⟨wf, wf', apart⟩ := h.arranged perm
  have capacity : cp.capacity = reused.capacity +
      ((before ++ rest ++ after).map Pool.capacity).sum := by
    rw [h.capacity, whole]
    simp only [map_append, sum_append, map_cons, sum_cons]
    omega
  have init : PoolWf target (pjPoolInitInt reused incrementSz) :=
    ⟨wf.capacity, wf.placed, wf.classified⟩
  refine Inv.use (init.use ?_) wf' apart ?_ ?_ ?_ ?_ h.usedCount
  · intro first last
    have ⟨first', last', size⟩ := wf.classified
    obtain rfl := some.inj (last'.symm.trans last)
    rw [data] at size
    exact size
  · rw [length_set]
    exact h.lists
  · intro i pool member
    rw [lists] at member
    split at member
    · next same =>
      rw [← same]
      apply h.parked idx pool
      rw [getD_eq_getElem?_getD, found]
      exact mem_cons_of_mem _ member
    · exact h.parked i pool member
  · dsimp only
    rw [replaced]
    split <;> omega
  · have bounded := h.bounded
    dsimp only
    split <;> omega

/-- Creating a pool keeps the invariant. -/
theorem Inv.create (h : Inv target cp) {answer : Option Nat}
    (given : Given target cp (.create initialSize incrementSz answer)) :
    Inv target (cp.step target (.create initialSize incrementSz answer)) := by
  unfold step
  rcases cpoolCreatePool_cases target cp initialSize incrementSz answer with
    ⟨reused, rest, found, result⟩ | ⟨new, made, result⟩ | result
  · dsimp only
    rw [result]
    exact h.reuse found
  · have ⟨fits, classified⟩ := createSize_spec initialSize
    dsimp only
    rw [result]
    unfold pjPoolCreateInt at made
    split at made
    · contradiction
    · next large =>
      obtain ⟨address, answered, rfl⟩ := map_eq_some_iff.mp made
      have fresh := given address answered
      have grown := (h.fresh_total fresh).1
      have below := fresh.1
      have extent : address + createSize initialSize - address = createSize initialSize :=
        Nat.add_sub_cancel_left _ _
      refine Inv.use ⟨?_, ?_, _, rfl, ?_⟩ h.wf ?_ h.lists h.parked h.capacity h.bounded h.usedCount
      · show createSize initialSize = [address + createSize initialSize - address].sum
        simp
      · intro block member
        rw [mem_singleton.mp member]
        exact ⟨Nat.le_add_right _ _, below⟩
      · show if sizeClass initialSize < arraySize then
            address + createSize initialSize - address = poolSize (sizeClass initialSize)
          else poolSize (arraySize - 1) < address + createSize initialSize - address
        rw [extent]
        exact classified
      · show (({ start := address, size := address + createSize initialSize - address } : Region) ::
          cp.pools.flatMap Pool.extents).Pairwise Region.Apart
        rw [extent]
        exact grown
  · dsimp only
    rw [result]
    exact h

/-- The first block is not larger than the pool. -/
theorem PoolWf.reset_le (h : PoolWf target pool) :
    (pjPoolReset target pool).capacity ≤ pool.capacity := by
  have ⟨first, last, _, capacity, _⟩ := h.reset
  rw [capacity, h.capacity]
  exact le_sum_of_mem (mem_map_of_mem (mem_of_getLast? last))

/-- A pool that is reset is parked in the list of its class. -/
theorem Inv.park (h : Inv target cp) (wf : PoolWf target pool)
    (apart : (pool.extents ++ cp.pools.flatMap Pool.extents).Pairwise Region.Apart)
    (idx : pool.factoryData < arraySize) (room : cp.capacity + pool.capacity ≤ cp.maxCapacity)
    (word : cp.capacity + pool.capacity < 2 ^ target.bits) :
    Inv target
      { cp with
        freeList := cp.freeList.modify pool.factoryData (pjPoolReset target pool :: ·)
        capacity := target.word (cp.capacity + (pjPoolReset target pool).capacity) } := by
  have less := wf.reset_le
  have ⟨first, last, extents, _, data, wf', again⟩ := wf.reset
  have bound : pool.factoryData < cp.freeList.length := by
    rw [h.lists]
    exact idx
  have found := getElem?_eq_getElem bound
  have ⟨before, after, whole, replaced, lists⟩ := free_parts found
  have modified : cp.freeList.modify pool.factoryData (pjPoolReset target pool :: ·) =
      cp.freeList.set pool.factoryData
        (pjPoolReset target pool :: cp.freeList[pool.factoryData]) := by
    rw [modify_eq_set, found]
    rfl
  rw [modified]
  generalize pjPoolReset target pool = parked at *
  have flatten : (cp.freeList.set pool.factoryData
      (parked :: cp.freeList[pool.factoryData])).flatten.Perm (parked :: cp.freeList.flatten) := by
    rw [replaced, whole]
    simp only [append_assoc, cons_append]
    exact perm_middle
  have perm : (pools
      { cp with
        freeList := cp.freeList.set pool.factoryData
          (parked :: cp.freeList[pool.factoryData]) }).Perm (parked :: cp.pools) :=
    (flatten.append_left cp.usedList).trans perm_middle
  have apart' : (parked.extents ++ cp.pools.flatMap Pool.extents).Pairwise Region.Apart := by
    rw [extents]
    refine apart.sublist (List.Sublist.append_right ?_ _)
    exact singleton_sublist.mpr (mem_of_getLast? last)
  have ⟨all, allApart⟩ := arrange perm wf' h.wf apart'
  refine ⟨all, allApart, ?_, ?_, ?_, ?_, h.usedCount⟩
  · rw [length_set]
    exact h.lists
  · intro i other member
    rw [lists] at member
    split at member
    · next same =>
      rcases mem_cons.mp member with rfl | member
      · exact ⟨data.trans same, again⟩
      · apply h.parked i other
        rw [← same, getD_eq_getElem _ _ bound]
        exact member
    · exact h.parked i other member
  · have sum := (flatten.map Pool.capacity).sum_eq
    rw [map_cons, sum_cons, ← h.capacity] at sum
    rw [sum, Target.word, Nat.mod_eq_of_lt (by omega)]
    exact Nat.add_comm _ _
  · show target.word (cp.capacity + parked.capacity) ≤ cp.maxCapacity
    rw [Target.word, Nat.mod_eq_of_lt (by omega)]
    omega

/-- Releasing a pool keeps the invariant. -/
theorem Inv.release (h : Inv target cp) (index : Nat) :
    Inv target (cp.step target (.release index)) := by
  show Inv target (cp.cpoolReleasePool target index)
  unfold cpoolReleasePool
  cases found : cp.usedList[index]? with
  | none => exact h
  | some pool =>
    obtain ⟨before, after, parts, erased, _, perm⟩ := used_parts found
    obtain ⟨wf, wf', apart⟩ := h.arranged perm
    obtain ⟨total, count⟩ := total_lt h.wf h.apart
    have usedCount : target.sub cp.usedCount 1 = (before ++ after).length := by
      have length : cp.usedCount = before.length + after.length + 1 := by
        rw [h.usedCount, parts]
        simp only [length_append, length_cons]
        omega
      rw [pools, length_append, ← h.usedCount] at count
      rw [target.sub_eq (by omega) (by omega), length, length_append]
      omega
    have destroyed : Inv target
        { cp with usedList := before ++ after, usedCount := target.sub cp.usedCount 1 } :=
      ⟨wf', (pairwise_append.mp apart).2.1, h.lists, h.parked, h.capacity, h.bounded,
        usedCount⟩
    have word : cp.capacity + pool.capacity < 2 ^ target.bits := by
      have sum := (perm.map Pool.capacity).sum_eq
      rw [map_cons, sum_cons, map_append, sum_append, ← h.capacity] at sum
      omega
    dsimp only
    rw [erased]
    split
    · exact destroyed
    · next kept =>
      rw [Target.word, Nat.mod_eq_of_lt word] at kept
      split
      · exact destroyed
      · next idx =>
        obtain ⟨_, _, _, _, data, _⟩ := wf.reset
        rw [data] at idx ⊢
        exact destroyed.park wf apart (by omega) (by dsimp only; omega) word

theorem pjCachingPoolInit_inv (maxCapacity : Nat) : Inv target (pjCachingPoolInit maxCapacity) := by
  have flatten : (pjCachingPoolInit maxCapacity).freeList.flatten = [] := rfl
  have pools : (pjCachingPoolInit maxCapacity).pools = [] := rfl
  refine ⟨?_, ?_, rfl, ?_, ?_, Nat.zero_le _, rfl⟩
  · exact nofun
  · exact .nil
  · intro i pool member
    have empty : (pjCachingPoolInit maxCapacity).freeList.getD i [] = [] := by
      rw [pjCachingPoolInit, getD_eq_getElem?_getD, getElem?_replicate]
      split <;> rfl
    rw [empty] at member
    contradiction
  · rfl

/-- A caching pool whose policy gives fresh memory keeps its accounts along every run. -/
theorem caching_pool_accounts {maxCapacity : Nat} {ops : List Op}
    (h : Run.Meets (step target) (Given target) (pjCachingPoolInit maxCapacity) ops) :
    Run.Always (step target) (Safe target) (pjCachingPoolInit maxCapacity) ops := by
  have kept : ∀ cp op, Inv target cp → Given target cp op → Inv target (cp.step target op) := by
    intro cp op inv given
    cases op with
    | create initialSize incrementSz answer => exact inv.create given
    | alloc index size answer => exact inv.alloc given
    | release index => exact inv.release index
  exact (Run.always kept (pjCachingPoolInit_inv maxCapacity) h).imp fun _ inv => inv.safe

instance (cp : CachingPool) (address size : Nat) : Decidable (cp.Fresh target address size) :=
  inferInstanceAs (Decidable (_ ∧ ∀ extent ∈ _, Region.Apart _ extent))

instance (cp : CachingPool) : (op : Op) → Decidable (Given target cp op)
  | .create initialSize _ answer =>
    inferInstanceAs
      (Decidable (∀ address ∈ answer, cp.Fresh target address (createSize initialSize)))
  | .alloc index size answer =>
    inferInstanceAs (Decidable (∀ pool ∈ cp.usedList[index]?, pool.Asks target size →
      ∀ address ∈ answer, cp.Fresh target address (growSize target pool size)))
  | .release _ => .isTrue trivial

/-- A pool that grows, is released, and is handed out again. -/
theorem caching_pool_accounts_reuse :
    let target : Target :=
      { bits := 32, sizeofPool := 80, sizeofBlock := 20
        wide := by decide, pool_aligned := by decide, block_aligned := by decide }
    Run.Always (step target) (Safe target) (pjCachingPoolInit 100000)
      [.create 1000 512 (some 4096), .create 70000 0 (some 65536), .alloc 0 2000 (some 16384),
        .release 0, .create 900 256 none, .release 0] := by
  intro target
  exact caching_pool_accounts (by decide)

end CachingPool

end Pj
