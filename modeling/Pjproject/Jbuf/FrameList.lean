import Pjproject.Lib.Circular
import Pjproject.Pjlib.Int

/-!
# The frame list of the jitter buffer

`jb_framelist_t` and its operations. The five parallel arrays of the source are one
function from an index to a slot; the operations use its first `maxCount` indices. An
`int` of the source is an integer (its overflow is undefined in C and does not occur on
frame numbers below 2³¹ − 10000), an `unsigned` is a natural number, and where an unsigned
result can leave its range, or an `int` is converted, the reduction modulo 2³² is written
out (`u32`, `i32`). `pj_assert` does nothing, `PJ_ASSERT_RETURN` returns.
-/

namespace Pjmedia.JitterBuffer
open Function Pj

/-- `INVALID_OFFSET`. -/
def invalidOffset : Int := -9999

/-- `MAX_FRAME_INDEX`. -/
def maxFrameIndex : Nat := 0xFFFFFFFF / 9000

/-- `MAX_MISORDER` of `jb_framelist_put_at`. -/
def maxMisorder : Int := 100

/-- `MAX_DROPOUT` of `jb_framelist_put_at`. -/
def maxDropout : Int := 3000

/-- `pjmedia_jb_frame_type`, with the internal mark `PJMEDIA_JB_DISCARDED_FRAME`. -/
inductive JbFrameType
  | missing
  | normal
  | zeroPrefetch
  | zeroEmpty
  | discarded
deriving DecidableEq, Repr

/-- One index of the arrays of `jb_framelist_t`. -/
structure Slot where
  /-- The `frame_size` bytes of `content` at this index. -/
  content : List UInt8
  /-- `frame_type`. -/
  frameType : JbFrameType
  /-- `content_len`. -/
  contentLen : Nat
  /-- `bit_info`. -/
  bitInfo : UInt32
  /-- `ts`. -/
  ts : UInt32
deriving DecidableEq, Repr

/-- The slot type and length a reset leaves. -/
def Slot.clear (slot : Slot) : Slot := { slot with frameType := .missing, contentLen := 0 }

/-- What a slot outside the window is: a missing frame without content. -/
def Slot.Vacant (slot : Slot) : Prop := slot.frameType = .missing ∧ slot.contentLen = 0

/-- The slot is marked for discarding. -/
def Slot.isDiscarded (slot : Slot) : Bool := slot.frameType = .discarded

@[simp] theorem Slot.clear_vacant (slot : Slot) : slot.clear.Vacant := ⟨rfl, rfl⟩

theorem Slot.Vacant.not_discarded {slot : Slot} (h : slot.Vacant) : slot.isDiscarded = false := by
  simp [Slot.isDiscarded, h.1]

/-- `jb_framelist_t`. -/
structure JbFramelist where
  /-- Maximum length of a frame. -/
  frameSize : Nat
  /-- Maximum number of frames. -/
  maxCount : Nat
  /-- The arrays `content`, `frame_type`, `content_len`, `bit_info` and `ts`. -/
  slots : Nat → Slot
  /-- Index of the next frame to get. -/
  head : Nat
  /-- Current size, discarded frames included. -/
  size : Nat
  /-- Current number of discarded frames. -/
  discardedNum : Nat
  /-- Sequence number of the frame at `head`. -/
  origin : Int

/-- The `pj_status_t` values of the frame list operations. -/
inductive Status
  | success
  | einval
  | etoosmall
  | etoomany
  | eexists
deriving DecidableEq, Repr

/-- `jb_framelist_reset`. -/
def jbFramelistReset (fl : JbFramelist) : JbFramelist :=
  { fl with
    head := 0
    origin := invalidOffset
    size := 0
    discardedNum := 0
    slots := fun index => if index < fl.maxCount then (fl.slots index).clear else fl.slots index }

/-- The far jump of `jb_framelist_put_at`: a reset, then a new origin. -/
def resetAt (fl : JbFramelist) (index : Int) : JbFramelist :=
  { jbFramelistReset fl with origin := index }

/-- `jb_framelist_init`; `memory` is what the allocated arrays hold. -/
def jbFramelistInit (memory : Nat → Slot) (frameSize maxCount : Nat) : JbFramelist :=
  jbFramelistReset
    { frameSize := frameSize, maxCount := maxCount, slots := memory
      head := 0, size := 0, discardedNum := 0, origin := 0 }

/-- `jb_framelist_size`. -/
def jbFramelistSize (fl : JbFramelist) : Nat := fl.size

/-- `jb_framelist_eff_size`. -/
def jbFramelistEffSize (fl : JbFramelist) : Nat := u32 ((fl.size : Int) - fl.discardedNum)

/-- `jb_framelist_origin`. -/
def jbFramelistOrigin (fl : JbFramelist) : Int := fl.origin

/-- The loop over `frame_type` and the two memory fills of `jb_framelist_remove_head`, for
the `count` indices from `start` on. -/
def clearRange (fl : JbFramelist) (start count : Nat) : JbFramelist :=
  { fl with
    discardedNum := (List.range count).foldl
      (fun num i => if (fl.slots (start + i)).isDiscarded then u32 ((num : Int) - 1) else num)
      fl.discardedNum
    slots := fun index =>
      if start ≤ index ∧ index < start + count then (fl.slots index).clear else fl.slots index }

/-- `jb_framelist_remove_head`: the new list and the number of frames removed. -/
def jbFramelistRemoveHead (fl : JbFramelist) (count : Nat) : JbFramelist × Nat :=
  let count := if fl.size < count then fl.size else count
  if count = 0 then (fl, 0)
  else
    let tmp := fl.head + count
    let step1 := if fl.maxCount < tmp then fl.maxCount - fl.head else count
    let step2 := if fl.maxCount < tmp then count - step1 else 0
    let cleared := clearRange (clearRange fl fl.head step1) 0 step2
    ({ cleared with
        origin := fl.origin + count
        head := (fl.head + count) % fl.maxCount
        size := fl.size - count },
      count)

/-- What `jb_framelist_get` and `jb_framelist_peek` report about a frame. -/
structure JbFrame where
  /-- The bytes written to, or pointed to by, `frame`. -/
  frame : List UInt8
  /-- `size`. -/
  size : Nat
  /-- `p_type`. -/
  frameType : JbFrameType
  /-- `bit_info`. -/
  bitInfo : UInt32
  /-- `ts`. -/
  ts : UInt32
  /-- `seq`. -/
  seq : Int
deriving DecidableEq, Repr

/-- The loop of `jb_framelist_get` over the discarded frames at the head, and whether it
removed any. Every round removes one frame, so `fuel` is the size of the list. -/
def skipDiscarded : Nat → JbFramelist → JbFramelist × Bool
  | 0, fl => (fl, false)
  | fuel + 1, fl =>
    if (fl.slots fl.head).isDiscarded then
      ((skipDiscarded fuel (jbFramelistRemoveHead fl 1).1).1, true)
    else (fl, false)

/-- The frame `jb_framelist_get` reports from the head slot. `size` is the capacity of the
caller's buffer, where it gives one. -/
def headFrame (fl : JbFramelist) (size : Option Nat) (prevDiscarded : Bool) : JbFrame :=
  let slot := fl.slots fl.head
  if prevDiscarded then
    -- After a discarded frame a missing one is returned to trigger concealment (#1188).
    { frame := [], size := 0, frameType := .missing, bitInfo := 0, ts := slot.ts
      seq := fl.origin }
  else
    let maxSize := size.getD slot.contentLen
    let copySize := min maxSize slot.contentLen
    { frame := slot.content.take copySize, size := copySize, frameType := slot.frameType
      bitInfo := slot.bitInfo, ts := slot.ts, seq := fl.origin }

/-- The end of `jb_framelist_get`: the head slot is reset and the head moves on. -/
def popHead (fl : JbFramelist) : JbFramelist :=
  { fl with
    slots := update fl.slots fl.head
      { (fl.slots fl.head).clear with bitInfo := 0, ts := 0 }
    origin := fl.origin + 1
    head := (fl.head + 1) % fl.maxCount
    size := fl.size - 1 }

/-- `jb_framelist_get`: no frame stands for `PJ_FALSE`. -/
def jbFramelistGet (fl : JbFramelist) (size : Option Nat) : JbFramelist × Option JbFrame :=
  if fl.size = 0 then (fl, none)
  else
    let skipped := skipDiscarded fl.size fl
    if skipped.1.size = 0 then (skipped.1, none)
    else (popHead skipped.1, some (headFrame skipped.1 size skipped.2))

/-- The loop of `jb_framelist_peek`: the index of the `idx`-th slot from `pos` on that is not
discarded. With all slots discarded the loop of the source does not end. -/
def peekPos (fl : JbFramelist) : Nat → Nat → Nat → Option Nat
  | 0, _, _ => none
  | fuel + 1, pos, idx =>
    if (fl.slots pos).isDiscarded then peekPos fl fuel ((pos + 1) % fl.maxCount) idx
    else match idx with
      | 0 => some pos
      | idx + 1 => peekPos fl fuel ((pos + 1) % fl.maxCount) idx

/-- What becomes of a `jb_framelist_peek`. -/
inductive PeekResult
  | noFrame
  | frame (frame : JbFrame)
  | diverges
deriving DecidableEq, Repr

/-- `jb_framelist_peek`. The slot it looks for is met within `offset + 1` revolutions, if
any slot is not discarded. -/
def jbFramelistPeek (fl : JbFramelist) (offset : Nat) : PeekResult :=
  if jbFramelistEffSize fl ≤ offset then .noFrame
  else match peekPos fl ((offset + 1) * fl.maxCount) fl.head offset with
    | none => .diverges
    | some pos =>
      let slot := fl.slots pos
      .frame { frame := slot.content.take slot.contentLen, size := slot.contentLen
               frameType := slot.frameType, bitInfo := slot.bitInfo, ts := slot.ts
               seq := fl.origin + offset }

/-- The branches of `jb_framelist_put_at` on a negative distance. -/
inductive Lateness
  | tooLate
  | sequenceRestart
  | farJump
deriving DecidableEq, Repr

/-- Which branch of `jb_framelist_put_at` a frame behind the origin takes. The sum
`origin + size` is compared as an `unsigned`. -/
def lateness (fl : JbFramelist) (index : Int) : Lateness :=
  if fl.origin - index < maxMisorder then .tooLate
  else if maxFrameIndex ≤ u32 (fl.origin + fl.size) then .sequenceRestart
  else .farJump

/-- The end of `jb_framelist_put_at`: the frame goes to the slot at `distance`, if free. -/
def storeAt (fl : JbFramelist) (index : Int) (distance : Nat) (frame : List UInt8)
    (frameSize : Nat) (bitInfo ts : UInt32) (frameType : JbFrameType) : JbFramelist × Status :=
  let pos := (fl.head + distance) % fl.maxCount
  let slot := fl.slots pos
  if slot.frameType ≠ .missing then (fl, .eexists)
  else
    let content :=
      if frameType = .normal then frame.take frameSize ++ slot.content.drop frameSize
      else slot.content
    ({ fl with
        slots := update fl.slots pos
          { content := content, frameType := frameType, contentLen := frameSize
            bitInfo := bitInfo, ts := ts }
        size := if fl.origin + fl.size ≤ index then distance + 1 else fl.size },
      .success)

/-- The list and the distance with which `jb_framelist_put_at` goes on after its branches
for a negative distance and an empty list; none for a frame that is too late. -/
def rebase (fl : JbFramelist) (index : Int) : Option (JbFramelist × Int) :=
  let distance := index - fl.origin
  let moved : Option (JbFramelist × Int) :=
    if 0 ≤ distance then some (fl, distance)
    else match lateness fl index with
      | .tooLate => none
      | .sequenceRestart => some ({ fl with origin := index - fl.size }, fl.size)
      | .farJump => some (resetAt fl index, 0)
  moved.map fun (fl, distance) =>
    if fl.size = 0 then ({ fl with origin := index }, 0) else (fl, distance)

/-- `jb_framelist_put_at`. -/
def jbFramelistPutAt (fl : JbFramelist) (index : Int) (frame : List UInt8) (frameSize : Nat)
    (bitInfo ts : UInt32) (frameType : JbFrameType) : JbFramelist × Status :=
  if fl.frameSize < frameSize then (fl, .einval)
  else match rebase fl index with
    | none => (fl, .etoosmall)
    | some (fl, distance) =>
      if i32 fl.maxCount ≤ distance then
        if maxDropout < distance then
          storeAt (resetAt fl index) index 0 frame frameSize bitInfo ts frameType
        else (fl, .etoomany)
      else storeAt fl index distance.toNat frame frameSize bitInfo ts frameType

/-- `jb_framelist_discard`. -/
def jbFramelistDiscard (fl : JbFramelist) (index : Int) : JbFramelist × Status :=
  if fl.origin ≤ index ∧ index < fl.origin + fl.size then
    let pos := (fl.head + (index - fl.origin).toNat) % fl.maxCount
    ({ fl with
        slots := update fl.slots pos { fl.slots pos with frameType := .discarded }
        discardedNum := u32 (fl.discardedNum + 1) },
      .success)
  else (fl, .einval)

end Pjmedia.JitterBuffer
