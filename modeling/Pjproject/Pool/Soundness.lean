import Pjproject.Lib.Run
import Pjproject.Pool.Pool

/-!
# Soundness of a memory pool

A request that is served gets aligned memory of its own, in one block of the pool, along every run
in which no size wraps: neither the rounded size of a request, nor the product of `pj_pool_calloc`,
nor the sum from which the size of a new block is computed.
-/

namespace Pj
open List

/-- The memory of a block. -/
def PoolBlock.extent (block : PoolBlock) : Region :=
  { start := block.mem, size := block.stop - block.mem }

namespace Pool

variable (target : Target)

/-! ## Requests -/

variable {size : Nat} {blocks : List PoolBlock}

/-- A size that is rounded without wrapping. -/
theorem Target.rounded_spec (fits : size + alignment ≤ 2 ^ target.bits) :
    size ≤ target.rounded size ∧ target.rounded size < size + alignment ∧
      alignment ∣ target.rounded size := by
  have wide := target.wide
  have whole : alignment ∣ 2 ^ target.bits := by
    have exponent : 2 ≤ target.bits := by
      by_contra small
      have bound := Nat.pow_le_pow_right (by omega : 0 < 2) (by omega : target.bits ≤ 2)
      rw [alignment] at wide
      omega
    exact Nat.pow_dvd_pow 2 exponent
  unfold Target.rounded Target.word
  by_cases low : size % alignment ≠ 0
  · rw [if_pos low]
    simp only [alignment] at fits whole low ⊢
    rw [Nat.mod_eq_of_lt (by omega : size + 4 < 2 ^ target.bits)]
    omega
  · rw [if_neg low]
    simp only [alignment] at low ⊢
    omega

/-- The free part of a block. -/
theorem Target.sub_eq {left right : Nat} (order : right ≤ left) (below : left < 2 ^ target.bits) :
    target.sub left right = left - right := by
  have shifted : left + 2 ^ target.bits - right = left - right + 2 ^ target.bits := by omega
  rw [Target.sub, Target.word, shifted, Nat.add_mod_right]
  exact Nat.mod_eq_of_lt (by omega)

/-- A block has room for a request. -/
def Target.Room (block : PoolBlock) (size : Nat) : Prop :=
  target.rounded size ≤ target.sub block.stop block.cur

instance (block : PoolBlock) (size : Nat) : Decidable (target.Room block size) :=
  inferInstanceAs (Decidable (_ ≤ _))

/-- A block after a request is served from it. -/
def Target.serve (block : PoolBlock) (size : Nat) : PoolBlock :=
  { block with cur := block.cur + target.rounded size }

theorem pjPoolAllocFromBlock_eq (block : PoolBlock) (size : Nat) :
    pjPoolAllocFromBlock target block size =
      if target.Room block size then (some block.cur, target.serve block size)
      else (none, block) := rfl

/-- The first block with room serves a request. -/
theorem allocFromBlocks_some {ptr : Nat} {blocks' : List PoolBlock}
    (h : allocFromBlocks target size blocks = some (ptr, blocks')) :
    ∃ before block after, blocks = before ++ block :: after ∧ target.Room block size ∧
      ptr = block.cur ∧ blocks' = before ++ target.serve block size :: after := by
  induction blocks generalizing blocks' with
  | nil => contradiction
  | cons block rest ih =>
    rw [allocFromBlocks, pjPoolAllocFromBlock_eq] at h
    by_cases room : target.Room block size
    · rw [if_pos room] at h
      obtain ⟨rfl, rfl⟩ := Option.some.inj h
      exact ⟨[], block, rest, rfl, room, rfl, rfl⟩
    · rw [if_neg room] at h
      have ⟨⟨_, others⟩, found, same⟩ := Option.map_eq_some_iff.mp h
      obtain ⟨rfl, rfl⟩ := Prod.mk.inj same
      obtain ⟨before, served, after, rfl, room, rfl, rfl⟩ := ih found
      exact ⟨block :: before, served, after, rfl, room, rfl, rfl⟩

/-- Otherwise none has room. -/
theorem allocFromBlocks_none :
    allocFromBlocks target size blocks = none ↔ ∀ block ∈ blocks, ¬target.Room block size := by
  induction blocks with
  | nil => simp [allocFromBlocks]
  | cons block rest ih =>
    rw [allocFromBlocks, pjPoolAllocFromBlock_eq, forall_mem_cons, ← ih]
    by_cases room : target.Room block size
    · simp [room]
    · simp [room]

/-- The first try of `pj_pool_alloc` is one of `pj_pool_allocate_find`. -/
theorem pjPoolAlloc_eq (pool : Pool) (size : Nat) (answer : Option Nat) :
    pjPoolAlloc target pool size answer = pjPoolAllocateFind target pool size answer := by
  unfold pjPoolAlloc
  cases blocks : pool.blockList with
  | nil => rfl
  | cons block rest =>
    dsimp only
    rw [pjPoolAllocFromBlock_eq]
    by_cases room : target.Room block size
    · unfold pjPoolAllocateFind
      rw [if_pos room, blocks, allocFromBlocks, pjPoolAllocFromBlock_eq, if_pos room]
    · rw [if_neg room]

/-- The pool asks the factory for a block. -/
def Asks (pool : Pool) (size : Nat) : Prop :=
  pool.incrementSize ≠ 0 ∧ ∀ block ∈ pool.blockList, ¬target.Room block size

instance (pool : Pool) (size : Nat) : Decidable (pool.Asks target size) :=
  inferInstanceAs (Decidable (_ ∧ _))

/-- What an allocation does: a block serves it, a new block is made for it, or it is refused. -/
theorem pjPoolAlloc_cases (pool : Pool) (size : Nat) (answer : Option Nat) :
    (∃ before block after, pool.blockList = before ++ block :: after ∧ target.Room block size ∧
        pjPoolAlloc target pool size answer =
          (some block.cur,
            { pool with blockList := before ++ target.serve block size :: after })) ∨
      (∃ address ∈ answer, pool.Asks target size ∧
        pjPoolAlloc target pool size answer =
          let (block, grown) := pjPoolCreateBlock target pool (growSize target pool size) address
          let (ptr, block) := pjPoolAllocFromBlock target block size
          (ptr, { grown with blockList := block :: pool.blockList })) ∨
      pjPoolAlloc target pool size answer = (none, pool) := by
  rw [pjPoolAlloc_eq]
  unfold pjPoolAllocateFind
  cases found : allocFromBlocks target size pool.blockList with
  | some result =>
    have ⟨ptr, blocks⟩ := result
    obtain ⟨before, block, after, parts, room, rfl, rfl⟩ := allocFromBlocks_some target found
    exact .inl ⟨before, block, after, parts, room, rfl⟩
  | none =>
    have full := (allocFromBlocks_none target).mp found
    by_cases fixed : pool.incrementSize = 0
    · exact .inr (.inr (by simp [fixed]))
    · cases answer with
      | none => exact .inr (.inr (by simp [fixed]))
      | some address => exact .inr (.inl ⟨address, rfl, ⟨fixed, full⟩, by simp [fixed]⟩)

/-! ## Runs -/

/-- The operations, with what the factory answers if it is asked. -/
inductive Op
  | alloc (size : Nat) (answer : Option Nat)
  | calloc (count size : Nat) (answer : Option Nat)
  | reset
deriving DecidableEq, Repr

/-- A pool and the regions that it returned since the last reset. -/
structure State where
  pool : Pool
  regions : List Region
deriving DecidableEq, Repr

/-- The regions after a request for some bytes. -/
def State.request (state : State) (size : Nat) (result : Option Nat × Pool) : State :=
  { pool := result.2
    regions := state.regions ++
      (result.1.map fun ptr => { start := ptr, size := size : Region }).toList }

/-- One operation. A request of `pj_pool_calloc` is the product, as an integer. -/
def State.step (state : State) : Op → State
  | .alloc size answer => state.request size (pjPoolAlloc target state.pool size answer)
  | .calloc count size answer =>
    state.request (size * count) (pjPoolCalloc target state.pool count size answer)
  | .reset => { pool := pjPoolReset target state.pool, regions := [] }

/-- What a pool promises. -/
structure State.Safe (state : State) : Prop where
  regions : ∀ region ∈ state.regions, alignment ∣ region.start ∧
    ∃ block ∈ state.pool.blockList, block.buf ≤ region.start ∧ region.stop ≤ block.stop
  disjoint : state.regions.Pairwise Region.Apart
  cur : ∀ block ∈ state.pool.blockList, block.cur ≤ block.stop
  capacity : state.pool.capacity = (state.pool.blockList.map (·.extent.size)).sum

/-- Memory that the factory gives: aligned, in the address space, and not in use by the pool. -/
structure Fresh (pool : Pool) (address size : Nat) : Prop where
  positive : 0 < address
  aligned : alignment ∣ address
  below : address + size < 2 ^ target.bits
  apart : ∀ block ∈ pool.blockList, Region.Apart { start := address, size := size } block.extent

/-- The factory gives fresh memory of the size that it is asked for. -/
def Given (pool : Pool) (size : Nat) (answer : Option Nat) : Prop :=
  pool.Asks target size → ∀ address ∈ answer, Fresh target pool address (growSize target pool size)

/-- No size wraps: the request can be rounded, and if the pool grows, the sums from which the size
of the block is computed are words. -/
def Fits (pool : Pool) (size : Nat) : Prop :=
  size + alignment ≤ 2 ^ target.bits ∧
    (pool.Asks target size →
      size + target.sizeofBlock + alignment < 2 ^ target.bits ∧
        (pool.incrementSize < size + target.sizeofBlock + alignment →
          size + pool.incrementSize + target.sizeofBlock + alignment < 2 ^ target.bits))

/-- The factory does what the code relies on. -/
def State.Given (state : State) : Op → Prop
  | .alloc size answer => Pool.Given target state.pool size answer
  | .calloc count size answer =>
    Pool.Given target state.pool (target.word (size * count)) answer
  | .reset => True

/-- No size wraps. -/
def State.Fits (state : State) : Op → Prop
  | .alloc size _ => Pool.Fits target state.pool size
  | .calloc count size _ => Pool.Fits target state.pool (size * count)
  | .reset => True

/-! ## The invariant -/

variable {pool : Pool}

variable {state : State} {block : PoolBlock}

/-- A block: its part in use ends inside it, aligned. -/
structure BlockWf (block : PoolBlock) : Prop where
  positive : 0 < block.mem
  lower : block.mem ≤ block.buf
  used : block.buf ≤ block.cur
  upper : block.cur ≤ block.stop
  below : block.stop < 2 ^ target.bits
  buf_aligned : alignment ∣ block.buf
  cur_aligned : alignment ∣ block.cur

/-- The invariant. -/
structure State.Inv (state : State) : Prop where
  blocks : ∀ block ∈ state.pool.blockList, BlockWf target block
  apart : (state.pool.blockList.map PoolBlock.extent).Pairwise Region.Apart
  capacity : state.pool.capacity = (state.pool.blockList.map (·.extent.size)).sum
  regions : ∀ region ∈ state.regions, alignment ∣ region.start ∧
    ∃ block ∈ state.pool.blockList, block.buf ≤ region.start ∧ region.stop ≤ block.cur
  disjoint : state.regions.Pairwise Region.Apart

variable {target}

theorem State.Inv.safe (h : state.Inv target) : state.Safe where
  regions region member := by
    have ⟨aligned, block, inPool, lower, upper⟩ := h.regions region member
    exact ⟨aligned, block, inPool, lower, Nat.le_trans upper (h.blocks block inPool).upper⟩
  disjoint := h.disjoint
  cur block member := (h.blocks block member).upper
  capacity := h.capacity

theorem BlockWf.room_iff (h : BlockWf target block) :
    target.Room block size ↔ block.cur + target.rounded size ≤ block.stop := by
  have upper := h.upper
  rw [Target.Room, target.sub_eq upper h.below]
  omega

theorem BlockWf.serve (h : BlockWf target block) (fits : size + alignment ≤ 2 ^ target.bits)
    (room : target.Room block size) :
    BlockWf target (target.serve block size) where
  positive := h.positive
  lower := h.lower
  used := Nat.le_trans h.used (Nat.le_add_right _ _)
  upper := h.room_iff.mp room
  below := h.below
  buf_aligned := h.buf_aligned
  cur_aligned := Nat.dvd_add h.cur_aligned (target.rounded_spec fits).2.2

/-- What is in the buffer of a block is in its memory. -/
theorem BlockWf.inside (h : BlockWf target block) {region : Region}
    (lower : block.buf ≤ region.start) (upper : region.stop ≤ block.stop) :
    region.Inside block.extent := by
  have base := h.lower
  have used := h.used
  have stop := h.upper
  refine ⟨Nat.le_trans base lower, ?_⟩
  show region.stop ≤ block.mem + (block.stop - block.mem)
  omega

/-- A region of a block that is served is behind the regions in use. -/
theorem State.Inv.served {regions : List Region} {before after : List PoolBlock}
    (h : State.Inv target
      { pool := { pool with blockList := before ++ block :: after }, regions := regions })
    (fits : size + alignment ≤ 2 ^ target.bits) (room : target.Room block size) :
    State.Inv target
      { pool := { pool with blockList := before ++ target.serve block size :: after }
        regions := regions ++ [{ start := block.cur, size := size }] } := by
  have wf := h.blocks block (by simp)
  have size_le := (target.rounded_spec fits).1
  have extents : (before ++ target.serve block size :: after).map PoolBlock.extent =
      (before ++ block :: after).map PoolBlock.extent := by simp [PoolBlock.extent, Target.serve]
  have apart := h.apart
  rw [map_append, map_cons, pairwise_middle Region.Apart.symm] at apart
  have others := (pairwise_cons.mp apart).1
  refine ⟨?_, ?_, ?_, ?_, ?_⟩
  · intro other member
    rcases mem_append.mp member with member | member
    · exact h.blocks other (by simp [member])
    · rcases mem_cons.mp member with rfl | member
      · exact wf.serve fits room
      · exact h.blocks other (by simp [member])
  · rw [extents]
    exact h.apart
  · have sizes := congrArg (fun extents => (extents.map Region.size).sum) extents
    simp only [map_map] at sizes
    exact h.capacity.trans sizes.symm
  · intro region member
    rcases mem_append.mp member with member | member
    · have ⟨aligned, holder, inPool, lower, upper⟩ := h.regions region member
      refine ⟨aligned, ?_⟩
      rcases mem_append.mp inPool with inPool | inPool
      · exact ⟨holder, by simp [inPool], lower, upper⟩
      · rcases mem_cons.mp inPool with rfl | inPool
        · exact ⟨target.serve holder size, by simp, lower,
            Nat.le_trans upper (Nat.le_add_right _ _)⟩
        · exact ⟨holder, by simp [inPool], lower, upper⟩
    · rw [mem_singleton.mp member]
      exact ⟨wf.cur_aligned, target.serve block size, by simp, wf.used,
        Nat.add_le_add_left size_le _⟩
  · refine pairwise_append.mpr ⟨h.disjoint, pairwise_singleton _ _, ?_⟩
    intro region member new isNew
    rw [mem_singleton.mp isNew]
    have ⟨_, holder, inPool, lower, upper⟩ := h.regions region member
    have holder_wf := h.blocks holder inPool
    have inside := holder_wf.inside lower (Nat.le_trans upper holder_wf.upper)
    have inside' : Region.Inside { start := block.cur, size := size } block.extent := by
      refine wf.inside wf.used (Nat.le_trans ?_ (wf.room_iff.mp room))
      exact Nat.add_le_add_left size_le _
    have other : holder ∈ before ++ after → Region.Apart region
        { start := block.cur, size := size } := by
      intro inOthers
      have extent := mem_map_of_mem (f := PoolBlock.extent) inOthers
      rw [map_append] at extent
      exact (others holder.extent extent).symm.inside inside inside'
    rcases mem_append.mp inPool with inPool | inPool
    · exact other (by simp [inPool])
    · rcases mem_cons.mp inPool with rfl | inPool
      · exact .inl upper
      · exact other (by simp [inPool])

theorem alignPtr_eq {ptr : Nat} (h : alignment ∣ ptr) : alignPtr ptr = ptr := by
  rw [alignPtr, Nat.mod_eq_zero_of_dvd h]
  rfl

/-- The block of a pool that grows is large enough for the request. -/
theorem growSize_ge (nonzero : pool.incrementSize ≠ 0)
    (fits : size + target.sizeofBlock + alignment < 2 ^ target.bits ∧
      (pool.incrementSize < size + target.sizeofBlock + alignment →
        size + pool.incrementSize + target.sizeofBlock + alignment < 2 ^ target.bits)) :
    size + target.sizeofBlock + alignment ≤ growSize target pool size := by
  have positive : 0 < pool.incrementSize := Nat.pos_of_ne_zero nonzero
  unfold growSize Target.word
  rw [Nat.mod_eq_of_lt fits.1]
  split
  · next smaller =>
    have sum := fits.2 smaller
    rw [Nat.mod_eq_of_lt sum]
    generalize total : size + pool.incrementSize + target.sizeofBlock + alignment = value
    have product := Nat.div_mul_le_self value pool.incrementSize
    have remainder := Nat.mod_lt value positive
    have parts := Nat.div_add_mod' value pool.incrementSize
    rw [Nat.mod_eq_of_lt (by omega)]
    omega
  · next larger => omega

/-- The blocks of a pool are no larger together than the address space. -/
theorem sum_extents_lt (wf : ∀ block ∈ blocks, BlockWf target block)
    (apart : (blocks.map PoolBlock.extent).Pairwise Region.Apart) :
    (blocks.map (·.extent.size)).sum < 2 ^ target.bits := by
  have positive := Nat.two_pow_pos target.bits
  have inside : ∀ region ∈ blocks.map PoolBlock.extent,
      0 ≤ region.start ∧ region.stop ≤ 2 ^ target.bits - 1 := by
    intro region member
    obtain ⟨block, inPool, rfl⟩ := mem_map.mp member
    have block_wf := wf block inPool
    have below := block_wf.below
    have lower := block_wf.lower
    have used := block_wf.used
    have upper := block_wf.upper
    refine ⟨Nat.zero_le _, ?_⟩
    show block.mem + (block.stop - block.mem) ≤ _
    omega
  have bound := Region.sum_size_le apart 0 (2 ^ target.bits - 1) inside
  rw [map_map] at bound
  exact Nat.lt_of_le_of_lt bound (by omega)

section
variable (h : state.Inv target)
include h

/-- The pool grows by a block of fresh memory. -/
theorem State.Inv.grown {address : Nat} (fresh : Fresh target state.pool address size)
    (large : target.sizeofBlock ≤ size) :
    State.Inv target
      { state with pool := (pjPoolCreateBlock target state.pool size address).2 } := by
  have below := fresh.below
  have buf : alignment ∣ address + target.sizeofBlock :=
    Nat.dvd_add fresh.aligned target.block_aligned
  generalize made : (pjPoolCreateBlock target state.pool size address).1 = block
  have wf : BlockWf target block := by
    rw [← made]
    refine ⟨fresh.positive, Nat.le_add_right _ _, ?_, ?_, below, buf, ?_⟩
    · exact Nat.le_of_eq (alignPtr_eq buf).symm
    · show alignPtr (address + target.sizeofBlock) ≤ address + size
      rw [alignPtr_eq buf]
      omega
    · show alignment ∣ alignPtr (address + target.sizeofBlock)
      rw [alignPtr_eq buf]
      exact buf
  have extent : block.extent = { start := address, size := size } := by
    rw [← made]
    show ({ start := address, size := address + size - address } : Region) = _
    rw [Nat.add_sub_cancel_left]
  have blocks : ∀ other ∈ block :: state.pool.blockList, BlockWf target other :=
    forall_mem_cons.mpr ⟨wf, h.blocks⟩
  have apart : ((block :: state.pool.blockList).map PoolBlock.extent).Pairwise Region.Apart := by
    refine pairwise_cons.mpr ⟨?_, h.apart⟩
    intro other member
    obtain ⟨old, inPool, rfl⟩ := mem_map.mp member
    rw [extent]
    exact fresh.apart old inPool
  have sum := sum_extents_lt blocks apart
  rw [map_cons, sum_cons, extent, ← h.capacity] at sum
  have total : size + state.pool.capacity < 2 ^ target.bits := sum
  have pool : (pjPoolCreateBlock target state.pool size address).2 =
      { state.pool with
        capacity := target.word (state.pool.capacity + size)
        blockList := block :: state.pool.blockList } := by
    rw [← made]
    rfl
  rw [pool]
  refine ⟨blocks, apart, ?_, ?_, h.disjoint⟩
  · rw [map_cons, sum_cons, extent, ← h.capacity, Target.word,
      Nat.mod_eq_of_lt (by omega)]
    exact Nat.add_comm _ _
  · intro region member
    have ⟨aligned, holder, inPool, bounds⟩ := h.regions region member
    exact ⟨aligned, holder, mem_cons_of_mem _ inPool, bounds⟩

/-- A request that fits keeps the invariant. -/
theorem State.Inv.request {answer : Option Nat} (given : Pool.Given target state.pool size answer)
    (fits : Pool.Fits target state.pool size) :
    (state.request size (pjPoolAlloc target state.pool size answer)).Inv target := by
  rcases pjPoolAlloc_cases target state.pool size answer with
    ⟨before, block, after, parts, room, result⟩ | ⟨address, answered, asks, result⟩ | result
  · rw [result]
    have inv : State.Inv target
        { pool := { state.pool with blockList := before ++ block :: after }
          regions := state.regions } := by
      rw [← parts]
      exact h
    exact inv.served fits.1 room
  · have fresh := given asks address answered
    have large := growSize_ge asks.1 (fits.2 asks)
    have inv := h.grown fresh (by omega)
    generalize made : pjPoolCreateBlock target state.pool (growSize target state.pool size)
      address = created at result inv
    have ⟨block, grown⟩ := created
    have blocks : grown.blockList = block :: state.pool.blockList := by
      obtain ⟨rfl, rfl⟩ := Prod.mk.inj made
      rfl
    have buf : alignment ∣ address + target.sizeofBlock :=
      Nat.dvd_add fresh.aligned target.block_aligned
    have free : block.cur = address + target.sizeofBlock ∧
        block.stop = address + growSize target state.pool size := by
      obtain ⟨rfl, rfl⟩ := Prod.mk.inj made
      exact ⟨alignPtr_eq buf, rfl⟩
    have rounded := (target.rounded_spec fits.1).2.1
    have wf := inv.blocks block (by dsimp only; rw [blocks]; simp)
    have room : target.Room block size := wf.room_iff.mpr (by omega)
    dsimp only at result
    rw [pjPoolAllocFromBlock_eq, if_pos room] at result
    rw [result]
    have start : State.Inv target
        { pool := { grown with blockList := [] ++ block :: state.pool.blockList }
          regions := state.regions } := by
      rw [nil_append, ← blocks]
      exact inv
    exact start.served fits.1 room
  · rw [result]
    have same : state.request size (none, state.pool) = state := by
      simp [State.request]
    rw [same]
    exact h

/-- A reset keeps the first block only. -/
theorem State.Inv.reset : (state.step target .reset).Inv target := by
  unfold State.step pjPoolReset
  cases last : state.pool.blockList.getLast? with
  | none => exact ⟨h.blocks, h.apart, h.capacity, nofun, .nil⟩
  | some first =>
    have wf := h.blocks first (mem_of_getLast? last)
    have lower := wf.lower
    have used := wf.used
    have upper := wf.upper
    have cur := alignPtr_eq wf.buf_aligned
    refine ⟨?_, pairwise_singleton _ _, ?_, nofun, .nil⟩
    · intro block member
      rw [mem_singleton.mp member]
      rw [cur]
      exact ⟨wf.positive, lower, le_rfl, Nat.le_trans used upper, wf.below,
        wf.buf_aligned, wf.buf_aligned⟩
    · show target.sub first.stop first.mem = [first.stop - first.mem].sum
      rw [target.sub_eq (by omega) wf.below]
      simp

/-- The invariant along a run. -/
theorem State.Inv.step {op : Op} (ok : State.Given target state op ∧ State.Fits target state op) :
    (state.step target op).Inv target := by
  cases op with
  | alloc size answer => exact h.request ok.1 ok.2
  | calloc count size answer =>
    have ⟨given, fits⟩ := ok
    have product : target.word (size * count) = size * count := Nat.mod_eq_of_lt (by
      have bound := fits.1
      have four : alignment = 4 := rfl
      omega)
    rw [State.Given, product] at given
    have inv := h.request given fits
    rw [State.step, pjPoolCalloc, product]
    exact inv
  | reset => exact h.reset

end

/-- A pool that is created in memory of the factory. -/
theorem pjPoolCreateInt_inv {initialSize incrementSize address : Nat} (positive : 0 < address)
    (aligned : alignment ∣ address) (below : address + initialSize < 2 ^ target.bits)
    (created : pjPoolCreateInt target initialSize incrementSize (some address) = some pool) :
    State.Inv target { pool := pool, regions := [] } := by
  unfold pjPoolCreateInt at created
  split at created
  · contradiction
  · next large =>
    obtain rfl := Option.some.inj created
    have buf : alignment ∣ address + target.sizeofPool + target.sizeofBlock :=
      Nat.dvd_add (Nat.dvd_add aligned target.pool_aligned) target.block_aligned
    refine ⟨?_, pairwise_singleton _ _, ?_, nofun, .nil⟩
    · intro block member
      rw [mem_singleton.mp member]
      rw [alignPtr_eq buf]
      refine ⟨positive, ?_, le_rfl, ?_, below, buf, buf⟩
      · dsimp only
        omega
      · dsimp only
        omega
    · show initialSize = [address + initialSize - address].sum
      simp

/-- A pool whose factory gives fresh aligned memory is sound along every run in which no size
wraps. -/
theorem pool_sound {initialSize incrementSize address : Nat} {pool : Pool}
    (positive : 0 < address) (aligned : alignment ∣ address)
    (below : address + initialSize < 2 ^ target.bits)
    (created : pjPoolCreateInt target initialSize incrementSize (some address) = some pool)
    {ops : List Op}
    (h : Run.Meets (State.step target)
      (fun state op => State.Given target state op ∧ State.Fits target state op)
      { pool := pool, regions := [] } ops) :
    Run.Always (State.step target) State.Safe { pool := pool, regions := [] } ops := by
  have inv : Run.Always (State.step target) (State.Inv target) { pool := pool, regions := [] }
      ops :=
    Run.always (fun _ _ inv ok => State.Inv.step inv ok)
      (pjPoolCreateInt_inv positive aligned below created) h
  exact inv.imp fun _ inv => inv.safe

instance (pool : Pool) (address size : Nat) : Decidable (Fresh target pool address size) :=
  decidable_of_iff
    (0 < address ∧ alignment ∣ address ∧ address + size < 2 ^ target.bits ∧
      ∀ block ∈ pool.blockList, Region.Apart { start := address, size := size } block.extent)
    ⟨fun ⟨positive, aligned, below, apart⟩ => ⟨positive, aligned, below, apart⟩,
      fun h => ⟨h.positive, h.aligned, h.below, h.apart⟩⟩

instance (pool : Pool) (size : Nat) (answer : Option Nat) :
    Decidable (Given target pool size answer) :=
  inferInstanceAs (Decidable (pool.Asks target size →
    ∀ address ∈ answer, Fresh target pool address (growSize target pool size)))

instance (pool : Pool) (size : Nat) : Decidable (Fits target pool size) :=
  inferInstanceAs (Decidable (_ ∧ (_ → _ ∧ (_ → _))))

instance (state : State) : (op : Op) → Decidable (State.Given target state op)
  | .alloc size answer => inferInstanceAs (Decidable (Given target state.pool size answer))
  | .calloc count size answer =>
    inferInstanceAs (Decidable (Given target state.pool (target.word (size * count)) answer))
  | .reset => .isTrue trivial

instance (state : State) : (op : Op) → Decidable (State.Fits target state op)
  | .alloc size _ => inferInstanceAs (Decidable (Fits target state.pool size))
  | .calloc count size _ => inferInstanceAs (Decidable (Fits target state.pool (size * count)))
  | .reset => .isTrue trivial

/-- A pool that grows by one block, and is reset. -/
theorem pool_sound_grows :
    let target : Target :=
      { bits := 32, sizeofPool := 80, sizeofBlock := 20
        wide := by decide, pool_aligned := by decide, block_aligned := by decide }
    ∃ pool, pjPoolCreateInt target 256 64 (some 4096) = some pool ∧
      Run.Always (State.step target) State.Safe { pool := pool, regions := [] }
        [.alloc 101 none, .calloc 30 7 (some 8192), .alloc 3 none, .reset, .alloc 100 none] := by
  refine ⟨_, rfl, ?_⟩
  exact pool_sound (by decide : 0 < 4096) (by decide) (by decide : 4096 + 256 < 2 ^ 32) rfl
    (by decide)

/-- A pool of a machine of 32 bits, from which a request of nearly `2 ^ 32` bytes, one of
`2 ^ 16` times `2 ^ 16` bytes, and one that makes the pool grow by no memory at all are served. -/
theorem pool_unsound :
    let target : Target :=
      { bits := 32, sizeofPool := 80, sizeofBlock := 20
        wide := by decide, pool_aligned := by decide, block_aligned := by decide }
    let start : State :=
      { pool :=
          { factoryData := 0, capacity := 256, incrementSize := 16
            blockList := [{ mem := 4096, buf := 4196, cur := 4196, stop := 4352 }] }
        regions := [] }
    pjPoolCreateInt target 256 16 (some 4096) = some start.pool ∧
      ¬Run.Always (State.step target) State.Safe start [.alloc 4294967295 none] ∧
      ¬Run.Always (State.step target) State.Safe start [.calloc 65536 65536 none] ∧
      State.Given target start (.alloc 4294967256 (some 8192)) ∧
      ¬Run.Always (State.step target) State.Safe start [.alloc 4294967256 (some 8192)] := by
  refine ⟨by decide, fun h => ?_, fun h => ?_, by decide, fun h => ?_⟩
  · have ⟨_, block, inPool, bounds⟩ :=
      h.last.regions { start := 4196, size := 4294967295 } (by decide)
    revert block
    decide
  · have ⟨_, block, inPool, bounds⟩ :=
      h.last.regions { start := 4196, size := 4294967296 } (by decide)
    revert block
    decide
  · have upper := h.last.cur
    revert upper
    decide

end Pool

end Pj
