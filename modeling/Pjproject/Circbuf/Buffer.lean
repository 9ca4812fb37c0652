import Pjproject.Lib.Circular
import Pjproject.Pjlib.Int

/-!
# The circular sample buffer

`pjmedia_circ_buf` of `circbuf.h`. The memory from `buf` on is a function of the sample
number, and pointers into it are offsets from `buf`. Sample counts are values of the
32-bit `unsigned` of the source, whose sums and shifts wrap.
-/

namespace Pjmedia.Circbuf

open Pj Memory Circular

/-- A `pj_int16_t` sample. -/
abbrev Sample := Int16

inductive Status where
  | success
  | etoobig
  deriving DecidableEq, Repr

/-- `pjmedia_circ_buf`. -/
structure CircBuf where
  buf : Nat → Sample
  capacity : Nat
  start : Nat
  len : Nat

/-- A region pair as the two region functions return it; `none` is the null pointer. -/
structure Regions where
  reg1 : Nat
  reg1Len : Nat
  reg2 : Option Nat
  reg2Len : Nat
  deriving DecidableEq, Repr

/-- The samples in the `count << 1` bytes that the sample functions of `frame.h` copy. -/
def copiedCount (count : Nat) : Nat := u32 (2 * count) / 2

/-- `pjmedia_copy_samples` from the buffer to the caller. -/
def loadSamples (buf : Nat → Sample) (src count : Nat) : List Sample :=
  span buf src (copiedCount count)

/-- `pjmedia_copy_samples` from the caller to the buffer. -/
def storeSamples (buf : Nat → Sample) (dst : Nat) (data : List Sample) (count : Nat) :
    Nat → Sample :=
  store buf dst (data.take (copiedCount count))

/-- `pjmedia_move_samples` inside the buffer, and `pjmedia_copy_samples` there between
regions that do not overlap. -/
def moveSamples (buf : Nat → Sample) (dst src count : Nat) : Nat → Sample :=
  move buf dst src (copiedCount count)

/-- `pjmedia_circ_buf_create`. -/
def create (capacity : Nat) : CircBuf := ⟨fun _ => 0, capacity, 0, 0⟩

/-- `pjmedia_circ_buf_reset`. -/
def reset (circbuf : CircBuf) : CircBuf := { circbuf with start := 0, len := 0 }

/-- `pjmedia_circ_buf_set_len`. -/
def setLen (circbuf : CircBuf) (len : Nat) : CircBuf := { circbuf with len }

/-- `pjmedia_circ_buf_adv_read_ptr`, which always succeeds. -/
def advReadPtr (circbuf : CircBuf) (count : Nat) : CircBuf :=
  if circbuf.len ≤ count then reset circbuf
  else
    let start := circbuf.start + count
    { circbuf with
      start := if circbuf.capacity ≤ start then start - circbuf.capacity else start
      len := circbuf.len - count }

/-- `pjmedia_circ_buf_adv_write_ptr`. -/
def advWritePtr (circbuf : CircBuf) (count : Nat) : Status × CircBuf :=
  if circbuf.capacity < u32 (count + circbuf.len) then (.etoobig, circbuf)
  else (.success, { circbuf with len := u32 (circbuf.len + count) })

/-- `pjmedia_circ_buf_get_read_regions`. -/
def getReadRegions (circbuf : CircBuf) : Regions :=
  if circbuf.capacity < circbuf.start + circbuf.len then
    let reg1Len := circbuf.capacity - circbuf.start
    ⟨circbuf.start, reg1Len, some 0, circbuf.len - reg1Len⟩
  else ⟨circbuf.start, circbuf.len, none, 0⟩

/-- `pjmedia_circ_buf_get_write_regions`. -/
def getWriteRegions (circbuf : CircBuf) : Regions :=
  let past := circbuf.start + circbuf.len
  let reg1 := if circbuf.capacity ≤ past then past - circbuf.capacity else past
  let reg1Len := u32 ((circbuf.capacity : Int) - circbuf.len)
  if circbuf.capacity < reg1 + reg1Len then
    ⟨reg1, circbuf.capacity - reg1, some 0, circbuf.start⟩
  else ⟨reg1, reg1Len, none, 0⟩

/-- `pjmedia_circ_buf_read`, with the samples it stores in `data`. -/
def read (circbuf : CircBuf) (count : Nat) : Status × List Sample × CircBuf :=
  if circbuf.len < count then (.etoobig, [], circbuf)
  else
    let regions := getReadRegions circbuf
    let data :=
      if count ≤ regions.reg1Len then loadSamples circbuf.buf regions.reg1 count
      else
        loadSamples circbuf.buf regions.reg1 regions.reg1Len ++
          loadSamples circbuf.buf (regions.reg2.getD 0) (count - regions.reg1Len)
    (.success, data, advReadPtr circbuf count)

/-- `pjmedia_circ_buf_write` of the samples `data`. -/
def write (circbuf : CircBuf) (data : List Sample) : Status × CircBuf :=
  let count := data.length
  if u32 ((circbuf.capacity : Int) - circbuf.len) < count then (.etoobig, circbuf)
  else
    let regions := getWriteRegions circbuf
    let buf :=
      if count ≤ regions.reg1Len then storeSamples circbuf.buf regions.reg1 data count
      else
        storeSamples (storeSamples circbuf.buf regions.reg1 data regions.reg1Len)
          (regions.reg2.getD 0) (data.drop regions.reg1Len) (count - regions.reg1Len)
    advWritePtr { circbuf with buf } count

/-- `pjmedia_circ_buf_copy`, with the samples it stores in `data`. -/
def copy (circbuf : CircBuf) (startIdx count : Nat) : Status × List Sample :=
  if circbuf.len < u32 (count + startIdx) then (.etoobig, [])
  else
    let regions := getReadRegions circbuf
    if startIdx < regions.reg1Len then
      let rest := regions.reg1Len - startIdx
      let tmpLen := if count < rest then count else rest
      let front := loadSamples circbuf.buf (regions.reg1 + startIdx) tmpLen
      if tmpLen < count then
        (.success, front ++ loadSamples circbuf.buf (regions.reg2.getD 0) (count - tmpLen))
      else (.success, front)
    else
      (.success,
        loadSamples circbuf.buf (regions.reg2.getD 0 + startIdx - regions.reg1Len) count)

/-- The loop of `pjmedia_circ_buf_pack_buffer`: the memory and `reg1` when the second region
is used up. Each pass moves `gap` samples of it, so that as many passes as it has samples
are enough. -/
def rollLeft : Nat → (Nat → Sample) → Nat → Nat → Nat → Nat → Nat → (Nat → Sample) × Nat
  | 0, buf, reg1, _, _, _, _ => (buf, reg1)
  | fuel + 1, buf, reg1, reg1cnt, reg2, reg2cnt, gap =>
    let gap := if reg2cnt < gap then reg2cnt else gap
    let buf := moveSamples buf (reg1 - gap) reg1 reg1cnt
    let buf := moveSamples buf (reg1 + reg1cnt - gap) reg2 gap
    let buf := if gap < reg2cnt then moveSamples buf reg2 (reg2 + gap) (reg2cnt - gap) else buf
    let reg1 := reg1 - gap
    let reg1cnt := reg1cnt + gap
    let reg2cnt := reg2cnt - gap
    if 0 < reg2cnt then rollLeft fuel buf reg1 reg1cnt reg2 reg2cnt gap else (buf, reg1)

/-- The end of `pjmedia_circ_buf_pack_buffer`: the samples from `reg1` on move to the left
edge. -/
def moveToEdge (circbuf : CircBuf) (buf : Nat → Sample) (reg1 : Nat) : CircBuf :=
  let buf := if reg1 ≠ 0 then moveSamples buf 0 reg1 circbuf.len else buf
  { circbuf with buf, start := 0 }

/-- `pjmedia_circ_buf_pack_buffer`. -/
def packBuffer (circbuf : CircBuf) : Status × CircBuf :=
  let regions := getReadRegions circbuf
  if regions.reg2Len ≠ 0 then
    let gap := u32 ((circbuf.capacity : Int) - circbuf.len)
    if gap = 0 then (.etoobig, circbuf)
    else
      let rolled := rollLeft regions.reg2Len circbuf.buf regions.reg1 regions.reg1Len
        (regions.reg2.getD 0) regions.reg2Len gap
      (.success, moveToEdge circbuf rolled.1 rolled.2)
  else (.success, moveToEdge circbuf circbuf.buf regions.reg1)

/-- What the functions keep: the read pointer is inside the buffer and no more samples are
counted than fit. -/
structure Wf (circbuf : CircBuf) : Prop where
  inside : circbuf.start < circbuf.capacity
  bounded : circbuf.len ≤ circbuf.capacity
  small : circbuf.capacity < 2 ^ 32

/-- The buffered samples, eldest first. -/
def contents (circbuf : CircBuf) : List Sample :=
  window circbuf.capacity circbuf.buf circbuf.start circbuf.len

/-- The samples in the free part, in the order in which `pjmedia_circ_buf_adv_write_ptr`
takes them in. -/
def spare (circbuf : CircBuf) : List Sample :=
  window circbuf.capacity circbuf.buf (slot circbuf.capacity circbuf.start circbuf.len)
    (circbuf.capacity - circbuf.len)

@[simp] theorem length_contents (circbuf : CircBuf) : (contents circbuf).length = circbuf.len :=
  length_window ..

/-- Counts below 2^31 are copied whole. -/
theorem copiedCount_eq {count : Nat} (h : count < 2 ^ 31) : copiedCount count = count := by
  have shifted : u32 ((2 * count : Nat) : Int) = 2 * count := u32_natCast (by omega)
  have cast : ((2 * count : Nat) : Int) = 2 * (count : Int) := by push_cast; rfl
  unfold copiedCount
  rw [← cast, shifted]
  omega

end Pjmedia.Circbuf
