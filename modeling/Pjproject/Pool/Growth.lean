import Pjproject.Pool.Soundness

/-!
# Growth of a memory pool

A pool with an increment asks the factory for a block that has room for its header, for the request
rounded up, and for nothing less than a multiple of the increment. The quotient in the size of the
block makes up for every remainder, also where the increment is smaller than the header.
-/

namespace Pj.Pool

variable {target : Target} {pool : Pool} {size : Nat}

/-- The sums from which `pj_pool_allocate_find` computes the size of a block are words. -/
def SizeFits (target : Target) (pool : Pool) (size : Nat) : Prop :=
  size + target.sizeofBlock + alignment < 2 ^ target.bits ∧
    (pool.incrementSize < size + target.sizeofBlock + alignment →
      size + pool.incrementSize + target.sizeofBlock + alignment < 2 ^ target.bits)

instance (target : Target) (pool : Pool) (size : Nat) : Decidable (SizeFits target pool size) :=
  inferInstanceAs (Decidable (_ ∧ _))

/-- The size of a new block is a multiple of the increment. -/
theorem incrementSize_dvd_growSize (fits : SizeFits target pool size) :
    pool.incrementSize ∣ growSize target pool size := by
  unfold growSize Target.word
  rw [Nat.mod_eq_of_lt fits.1]
  by_cases smaller : pool.incrementSize < size + target.sizeofBlock + alignment
  · have sum := fits.2 smaller
    have product := Nat.div_mul_le_self
      (size + pool.incrementSize + target.sizeofBlock + alignment) pool.incrementSize
    rw [if_pos smaller]
    rw [Nat.mod_eq_of_lt sum, Nat.mod_eq_of_lt (Nat.lt_of_le_of_lt product sum)]
    exact Nat.dvd_mul_left _ _
  · rw [if_neg smaller]

/-- The size of a new block is a word. -/
theorem growSize_lt (word : pool.incrementSize < 2 ^ target.bits) :
    growSize target pool size < 2 ^ target.bits := by
  unfold growSize
  split
  · exact Nat.mod_lt _ (Nat.two_pow_pos target.bits)
  · exact word

/-- A new block at an aligned address has the room that its size leaves behind the header. -/
theorem pjPoolCreateBlock_free (pool : Pool) {address blockSize : Nat}
    (aligned : alignment ∣ address) (header : target.sizeofBlock ≤ blockSize)
    (word : blockSize < 2 ^ target.bits) :
    let block := (pjPoolCreateBlock target pool blockSize address).1
    block.cur = address + target.sizeofBlock ∧
      target.sub block.stop block.cur = blockSize - target.sizeofBlock := by
  have cur : alignPtr (address + target.sizeofBlock) = address + target.sizeofBlock :=
    alignPtr_eq (Nat.dvd_add aligned target.block_aligned)
  have shifted : address + blockSize + 2 ^ target.bits - (address + target.sizeofBlock) =
      blockSize - target.sizeofBlock + 2 ^ target.bits := by omega
  constructor
  · exact cur
  · show target.sub (address + blockSize) (alignPtr (address + target.sizeofBlock)) = _
    rw [cur, Target.sub, Target.word, shifted, Nat.add_mod_right]
    exact Nat.mod_eq_of_lt (Nat.lt_of_le_of_lt (Nat.sub_le _ _) word)

/-- The block that a pool grows by has room for the request, rounded up, behind its header. -/
theorem room_growSize (positive : 0 < pool.incrementSize)
    (word : pool.incrementSize < 2 ^ target.bits) (fits : SizeFits target pool size)
    {address : Nat} (aligned : alignment ∣ address) :
    target.Room (pjPoolCreateBlock target pool (growSize target pool size) address).1 size := by
  have enough : size + target.sizeofBlock + alignment ≤ growSize target pool size :=
    growSize_ge (Nat.ne_of_gt positive) fits
  have small : size + alignment ≤ 2 ^ target.bits := by
    have sum := fits.1
    omega
  have ⟨_, rounded, _⟩ := target.rounded_spec small
  have ⟨_, free⟩ := pjPoolCreateBlock_free pool aligned
    (by omega : target.sizeofBlock ≤ growSize target pool size) (growSize_lt word)
  rw [Target.Room, free]
  omega

/-- An expandable pool serves every request whose size computation does not wrap: a block of the
factory, at whatever aligned address, is a multiple of the increment and large enough, and some
block serves the request. -/
theorem pjPoolAllocateFind_serves (positive : 0 < pool.incrementSize)
    (word : pool.incrementSize < 2 ^ target.bits) (fits : SizeFits target pool size)
    {address : Nat} (aligned : alignment ∣ address) :
    pool.incrementSize ∣ growSize target pool size ∧
      (pjPoolAllocFromBlock target
        (pjPoolCreateBlock target pool (growSize target pool size) address).1 size).1 =
          some (address + target.sizeofBlock) ∧
      ∃ ptr, (pjPoolAllocateFind target pool size (some address)).1 = some ptr := by
  have room := room_growSize positive word fits aligned
  have enough : size + target.sizeofBlock + alignment ≤ growSize target pool size :=
    growSize_ge (Nat.ne_of_gt positive) fits
  have ⟨cur, _⟩ := pjPoolCreateBlock_free pool aligned
    (by omega : target.sizeofBlock ≤ growSize target pool size) (growSize_lt word)
  have served : (pjPoolAllocFromBlock target
      (pjPoolCreateBlock target pool (growSize target pool size) address).1 size).1 =
        some (address + target.sizeofBlock) := by
    rw [pjPoolAllocFromBlock_eq, if_pos room, cur]
  refine ⟨incrementSize_dvd_growSize fits, served, ?_⟩
  unfold pjPoolAllocateFind
  cases allocFromBlocks target size pool.blockList with
  | some found => exact ⟨found.1, rfl⟩
  | none =>
    rw [if_neg (Nat.ne_of_gt positive)]
    exact ⟨_, served⟩

/-- The increment of one byte, less than a block header, for a request of 13 bytes. -/
theorem pjPoolAllocateFind_serves_byte :
    let target : Target := ⟨32, 44, 20, by decide, by decide, by decide⟩
    let pool : Pool := ⟨0, 0, 1, []⟩
    pool.incrementSize ∣ growSize target pool 13 ∧
      (pjPoolAllocFromBlock target
        (pjPoolCreateBlock target pool (growSize target pool 13) 4096).1 13).1 = some 4116 ∧
      ∃ ptr, (pjPoolAllocateFind target pool 13 (some 4096)).1 = some ptr :=
  pjPoolAllocateFind_serves (by decide) (by decide) (by decide) (by decide)

end Pj.Pool
