import Pjproject.Wsola.BufferLength

/-!
# Discarding samples

`compress` and `pjmedia_wsola_discard` of `wsola.c`. The samples of a long sound may be in two
regions, the second one behind the first one. They are compressed in one region that is long
enough, or in the erase buffer, and then moved up to where the gap is. A region is the list of its
samples, and a position in it is a distance from its start.
-/

namespace Pjmedia.Wsola
open Option List Pj Circbuf

/-- `ERASE_CNT`. -/
def eraseCnt : Nat := 3

/-- What `pjmedia_wsola_discard` returns. -/
inductive DiscardStatus
  | success
  | einval
  | einvalidop
  | etoosmall
deriving DecidableEq, Repr

/-- A call returns with this status, the samples in the two regions, and the count. -/
structure Discarded where
  status : DiscardStatus
  buf1 : List Sample
  buf2 : List Sample
  delCnt : Nat
deriving DecidableEq

/-- `pjmedia_move_samples` and `pjmedia_copy_samples` to a position of a region. -/
def moveTo (buf : List Sample) (pos : Nat) (samples : List Sample) : List Sample :=
  buf.take pos ++ samples ++ buf.drop (pos + samples.length)

/-- The overlap-add of the start of a buffer with the samples at `dist`. -/
def mergeStart (wsola : Setting) (buf : List Sample) (dist : Nat) : List Sample :=
  if wsola.options.noHanning then overlappAddSimple wsola.hanningSize buf (buf.drop dist)
  else overlappAdd wsola.hanningSize buf (buf.drop dist) wsola.hanning

/-- The loop of `compress`, with the count of samples that are left. There is no result if the
pitch search starts outside of the buffer, where a pointer has wrapped around or not. -/
def compressLoop (findPitch : FindPitch) (wsola : Setting) (delCnt : Nat) :
    Nat → List Sample → Nat → Nat → Option (List Sample × Nat)
  | 0, _, _, _ => none
  | fuel + 1, buf, count, samplesDel =>
    if count ≤ u32 (wsola.hanningSize + delCnt) then some (buf, samplesDel)
    else
      let start : Int := (delCnt : Int) - samplesDel
      let stop := start + wsola.samplesPerFrame
      let stop : Int := if stop + wsola.hanningSize > count then count - wsola.hanningSize else stop
      if stop ≤ start then none
      else
        let start := findPitch (buf.getD · 0) 0 start stop wsola.templSize
        let dist := u32 start
        let merged := moveTo buf 0 (mergeStart wsola buf dist)
        let left := u32 ((count : Int) - wsola.hanningSize - dist)
        let buf := moveTo merged wsola.hanningSize
          ((merged.drop (wsola.hanningSize + dist)).take left)
        if delCnt ≤ samplesDel + dist then some (buf, samplesDel + dist)
        else compressLoop findPitch wsola delCnt fuel buf (u32 ((count : Int) - dist))
          (samplesDel + dist)

/-- `compress`: the samples and the count of the erased ones. A round erases at least one. -/
def compress (findPitch : FindPitch) (wsola : Setting) (buf : List Sample) (delCnt : Nat) :
    Option (List Sample × Nat) :=
  compressLoop findPitch wsola delCnt (buf.length + 1) buf buf.length 0

/-- The end of a call. -/
def discarded (buf1 buf2 : List Sample) (delCnt : Nat) : Discarded :=
  { status := if delCnt > 0 then .success else .etoosmall, buf1 := buf1, buf2 := buf2
    delCnt := delCnt }

/-- The part of `pjmedia_wsola_discard` that closes the gap behind the first buffer. -/
def closeGap (buf1 buf2 : List Sample) (delCnt : Nat) : Discarded :=
  let max := min delCnt buf2.length
  discarded (moveTo buf1 (buf1.length - delCnt) (buf2.take max))
    (if max < buf2.length then moveTo buf2 0 ((buf2.drop delCnt).take (buf2.length - max)) else buf2)
    delCnt

/-- The part of `pjmedia_wsola_discard` that copies the erase buffer back, of which `bufSize`
samples are left, with `remCnt` samples behind it. -/
def copyBack (eraseBuf buf1 buf2 : List Sample) (bufSize remCnt delCnt : Nat) : Discarded :=
  let rem := buf2.drop (buf2.length - remCnt)
  if bufSize = buf1.length then
    discarded (moveTo buf1 0 (eraseBuf.take bufSize)) (moveTo buf2 0 rem) delCnt
  else if bufSize < buf1.length then
    let c := min remCnt (buf1.length - bufSize)
    discarded (moveTo (moveTo buf1 0 (eraseBuf.take bufSize)) bufSize (rem.take c))
      (moveTo buf2 0 (rem.drop c)) delCnt
  else
    let copied := moveTo buf2 0 ((eraseBuf.drop buf1.length).take (bufSize - buf1.length))
    discarded (moveTo buf1 0 (eraseBuf.take buf1.length))
      (moveTo copied (bufSize - buf1.length) (copied.drop (buf2.length - remCnt))) delCnt

/-- `pjmedia_wsola_discard`, without a result if the pitch search leaves the buffer. A refused call
leaves the count as it is. -/
def discard (findPitch : FindPitch) (wsola : Setting) (buf1 buf2 : List Sample) (delCnt : Nat) :
    Option Discarded :=
  let enough := eraseCnt * wsola.samplesPerFrame
  if buf1 = [] ∨ delCnt = 0 then some ⟨.einval, buf1, buf2, delCnt⟩
  else if buf2 = [] then
    (compress findPitch wsola buf1 delCnt).map fun result => discarded result.1 buf2 result.2
  else if buf1.length < enough ∧ buf2.length < enough ∧ wsola.options.noDiscard then
    some ⟨.einvalidop, buf1, buf2, delCnt⟩
  else if buf2.length ≥ enough then
    (compress findPitch wsola buf2 delCnt).map fun result => discarded buf1 result.1 result.2
  else if buf1.length ≥ enough then
    (compress findPitch wsola buf1 delCnt).map fun result => closeGap result.1 buf2 result.2
  else
    let bufSize := min (buf1.length + buf2.length) enough
    let remCnt := buf1.length + buf2.length - bufSize
    let eraseBuf := buf1 ++ buf2.take (bufSize - buf1.length)
    (compress findPitch wsola eraseBuf delCnt).map fun result =>
      copyBack result.1 buf1 buf2 (bufSize - result.2) remCnt result.2

/-! ## Moving samples -/

theorem moveTo_append (front old samples : List Sample) :
    moveTo (front ++ old) front.length samples = front ++ (samples ++ old.drop samples.length) := by
  unfold moveTo
  rw [take_left, drop_append, append_assoc,
    drop_of_length_le (Nat.le_add_right _ _), nil_append, Nat.add_sub_cancel_left]

theorem moveTo_zero (buf samples : List Sample) :
    moveTo buf 0 samples = samples ++ buf.drop samples.length :=
  moveTo_append [] buf samples

@[simp] theorem length_mergeStart (wsola : Setting) (buf : List Sample) (dist : Nat) :
    (mergeStart wsola buf dist).length = wsola.hanningSize := by
  unfold mergeStart overlappAddSimple overlappAdd
  split <;> simp

/-! ## Compressing -/

variable {result : List Sample × Nat}

/-- The count of samples that must be left is in range, or there are fewer than it wraps to. -/
def Compressible (wsola : Setting) (count delCnt : Nat) : Prop :=
  wsola.hanningSize + delCnt < 2 ^ 32 ∨ count ≤ u32 (wsola.hanningSize + delCnt)

/-- Nothing is changed, or a merged block is followed by the samples behind the ones that are
erased, at least as many as requested. What is behind them is left over. -/
def Compressed (hanningSize : Nat) (buf : List Sample) (delCnt : Nat)
    (result : List Sample × Nat) : Prop :=
  result = (buf, 0) ∨
    delCnt ≤ result.2 ∧ hanningSize + result.2 < buf.length ∧
      ∃ merged left : List Sample, merged.length = hanningSize ∧ left.length = result.2 ∧
        result.1 = merged ++ (buf.drop (hanningSize + result.2) ++ left)

variable {findPitch : FindPitch} {wsola : Setting} {buf : List Sample} {delCnt : Nat}

/-- The samples after a round that erases `dist` of them. -/
theorem compressRound {dist : Nat} (room : wsola.hanningSize + dist < buf.length) :
    let merged := moveTo buf 0 (mergeStart wsola buf dist)
    ∃ left : List Sample, left.length = dist ∧
      moveTo merged wsola.hanningSize ((merged.drop (wsola.hanningSize + dist)).take
          (buf.length - wsola.hanningSize - dist)) =
        mergeStart wsola buf dist ++ (buf.drop (wsola.hanningSize + dist) ++ left) := by
  intro merged
  have block := length_mergeStart wsola buf dist
  have start : merged = mergeStart wsola buf dist ++ buf.drop wsola.hanningSize := by
    rw [← block]
    exact moveTo_zero buf _
  have behind : merged.drop (wsola.hanningSize + dist) = buf.drop (wsola.hanningSize + dist) := by
    rw [start, ← drop_drop, ← block, drop_left, block, drop_drop]
  have all : (buf.drop (wsola.hanningSize + dist)).take (buf.length - wsola.hanningSize - dist) =
      buf.drop (wsola.hanningSize + dist) := by
    apply take_of_length_le
    rw [length_drop]
    omega
  refine ⟨(buf.drop wsola.hanningSize).drop (buf.drop (wsola.hanningSize + dist)).length, ?_, ?_⟩
  · simp only [length_drop]
    omega
  · rw [behind, all, start]
    have moved := moveTo_append (mergeStart wsola buf dist) (buf.drop wsola.hanningSize)
      (buf.drop (wsola.hanningSize + dist))
    rwa [block] at moved

/-- Samples are compressed in one round, unless the count wraps around. -/
theorem compress_compressed (search : InRange findPitch) (frame : 0 < wsola.samplesPerFrame)
    (count : buf.length < 2 ^ 32) (requested : 0 < delCnt)
    (fits : Compressible wsola buf.length delCnt) :
    ∃ result, compress findPitch wsola buf delCnt = some result ∧
      Compressed wsola.hanningSize buf delCnt result := by
  unfold compress
  rw [compressLoop]
  by_cases few : buf.length ≤ u32 (wsola.hanningSize + delCnt)
  · rw [if_pos few]
    exact ⟨_, rfl, Or.inl rfl⟩
  have sum : wsola.hanningSize + delCnt < 2 ^ 32 := fits.resolve_right few
  rw [if_neg few]
  rw [u32_add sum] at few
  dsimp only
  have last : ∃ stop : Int, (delCnt : Int) < stop ∧ stop + wsola.hanningSize ≤ buf.length ∧
      (if (delCnt : Int) - (0 : Nat) + wsola.samplesPerFrame + wsola.hanningSize > buf.length then
        (buf.length : Int) - wsola.hanningSize
      else (delCnt : Int) - (0 : Nat) + wsola.samplesPerFrame) = stop := by
    split
    · exact ⟨_, by omega, by omega, rfl⟩
    · exact ⟨_, by omega, by omega, rfl⟩
  have ⟨stop, after, inside, same⟩ := last
  have start : (delCnt : Int) - (0 : Nat) = delCnt := by omega
  rw [same, if_neg (by omega), start]
  have ⟨low, high⟩ := search (buf.getD · 0) 0 delCnt stop wsola.templSize after
  generalize findPitch (buf.getD · 0) 0 delCnt stop wsola.templSize = found at low high
  have dist : u32 found = found.toNat := by
    rw [u32_eq]
    omega
  rw [dist]
  generalize away : found.toNat = dist
  have left : u32 ((buf.length : Int) - wsola.hanningSize - dist) =
      buf.length - wsola.hanningSize - dist := by
    rw [u32_eq]
    omega
  have room : wsola.hanningSize + dist < buf.length := by omega
  have ⟨junk, length, moved⟩ := compressRound room
  rw [left, if_pos (by omega), Nat.zero_add]
  refine ⟨_, rfl, Or.inr ⟨by omega, room, _, junk, length_mergeStart wsola buf dist, length, ?_⟩⟩
  exact moved

/-- A count that wraps around sends the pitch search out of the buffer. -/
theorem compress_wraps (count : buf.length < 2 ^ 32)
    (wraps : ¬Compressible wsola buf.length delCnt) :
    compress findPitch wsola buf delCnt = none := by
  have ⟨sum, many⟩ := not_or.mp wraps
  unfold compress
  rw [compressLoop, if_neg many]
  have first : (delCnt : Int) - (0 : Nat) = delCnt := by omega
  rw [first, if_pos]
  split <;> omega

/-- What has been compressed is what is kept and as many samples as have been erased. -/
theorem Compressed.kept {hanningSize : Nat} (h : Compressed hanningSize buf delCnt result) :
    ∃ kept left : List Sample, result.1 = kept ++ left ∧ left.length = result.2 ∧
      kept.length + left.length = buf.length ∧
        (result.2 = 0 ∧ kept = buf ∨
          delCnt ≤ result.2 ∧ hanningSize + result.2 < buf.length ∧
            ∃ merged : List Sample, merged.length = hanningSize ∧
              kept = merged ++ buf.drop (hanningSize + result.2)) := by
  rcases h with rfl | ⟨requested, room, merged, left, block, length, samples⟩
  · exact ⟨buf, [], (append_nil buf).symm, rfl, rfl, Or.inl ⟨rfl, rfl⟩⟩
  · refine ⟨merged ++ buf.drop (hanningSize + result.2), left, ?_, length, ?_,
      Or.inr ⟨requested, room, merged, block, rfl⟩⟩
    · rw [samples, append_assoc]
    · rw [length_append, length_drop, block, length]
      omega

/-! ## Closing the gap -/

/-- The regions keep their lengths and begin with some samples. -/
structure Closed (buf1 buf2 kept : List Sample) (out : Discarded) : Prop where
  length1 : out.buf1.length = buf1.length
  length2 : out.buf2.length = buf2.length
  samples : kept <+: out.buf1 ++ out.buf2

variable {buf1 buf2 kept left : List Sample}

/-- Regions that begin with all their samples are unchanged. -/
theorem Closed.unchanged {out : Discarded} (h : Closed buf1 buf2 (buf1 ++ buf2) out) :
    out.buf1 = buf1 ∧ out.buf2 = buf2 := by
  have whole : buf1 ++ buf2 = out.buf1 ++ out.buf2 := by
    apply h.samples.eq_of_length
    rw [length_append, length_append, h.length1, h.length2]
  have ⟨first, second⟩ := append_inj whole h.length1.symm
  exact ⟨first.symm, second.symm⟩

theorem closeGap_closed (length : kept.length + left.length = buf1.length) :
    Closed buf1 buf2 (kept ++ buf2) (closeGap (kept ++ left) buf2 left.length) := by
  have gap : (kept ++ left).length - left.length = kept.length := by
    rw [length_append, Nat.add_sub_cancel]
  unfold closeGap discarded
  dsimp only
  rw [gap, moveTo_append]
  by_cases short : left.length < buf2.length
  · rw [Nat.min_eq_left (Nat.le_of_lt short), if_pos short, moveTo_zero]
    have all : (buf2.drop left.length).take (buf2.length - left.length) =
        buf2.drop left.length := by
      apply take_of_length_le
      rw [length_drop]
    have filled : left.drop (buf2.take left.length).length = [] := by
      apply drop_of_length_le
      rw [length_take]
      omega
    rw [all, filled, append_nil]
    constructor
    · simp only [length_append, length_take]
      omega
    · simp only [length_append, length_drop]
      omega
    · refine ⟨buf2.drop (buf2.drop left.length).length, ?_⟩
      simp only [append_assoc]
      rw [← append_assoc (buf2.take left.length), take_append_drop]
  · rw [Nat.min_eq_right (Nat.not_lt.mp short), if_neg (Nat.lt_irrefl _), take_length]
    constructor
    · simp only [length_append, length_drop]
      omega
    · rfl
    · refine ⟨left.drop buf2.length ++ buf2, ?_⟩
      simp

/-- The three ways to copy back close the gap. -/
theorem copyBack_closed {remCnt : Nat} (behind : remCnt ≤ buf2.length)
    (length : kept.length + left.length = buf1.length + (buf2.length - remCnt)) (delCnt : Nat) :
    Closed buf1 buf2 (kept ++ buf2.drop (buf2.length - remCnt))
      (copyBack (kept ++ left) buf1 buf2 kept.length remCnt delCnt) := by
  have remLength : (buf2.drop (buf2.length - remCnt)).length = remCnt := by
    rw [length_drop]
    omega
  unfold copyBack discarded
  dsimp only
  rw [take_left]
  by_cases same : kept.length = buf1.length
  · rw [if_pos same, moveTo_zero, moveTo_zero, same, drop_length, append_nil]
    constructor
    · exact same
    · rw [length_append, remLength, length_drop]
      omega
    · refine ⟨buf2.drop (buf2.drop (buf2.length - remCnt)).length, ?_⟩
      rw [append_assoc]
  rw [if_neg same]
  by_cases short : kept.length < buf1.length
  · rw [if_pos short, moveTo_zero, moveTo_append, moveTo_zero]
    generalize buf2.drop (buf2.length - remCnt) = rem at remLength
    have gap : (buf1.drop kept.length).length = buf1.length - kept.length := length_drop
    generalize buf1.drop kept.length = old at gap
    constructor
    · simp only [length_append, length_take, length_drop]
      omega
    · simp only [length_append, length_drop]
      omega
    · by_cases fits : remCnt ≤ buf1.length - kept.length
      · rw [Nat.min_eq_left fits, ← remLength, take_length]
        refine ⟨old.drop rem.length ++ (rem.drop rem.length ++
          buf2.drop (rem.drop rem.length).length), ?_⟩
        simp
      · have full : old.drop (rem.take (buf1.length - kept.length)).length = [] := by
          apply drop_of_length_le
          rw [length_take]
          omega
        rw [Nat.min_eq_right (by omega), full, append_nil]
        refine ⟨buf2.drop (rem.drop (buf1.length - kept.length)).length, ?_⟩
        simp only [append_assoc]
        rw [← append_assoc (rem.take _), take_append_drop]
  · rw [if_neg short]
    have long : buf1.length ≤ kept.length := Nat.not_lt.mp short
    have front : (kept ++ left).take buf1.length = kept.take buf1.length :=
      take_append_of_le_length long
    have rest : ((kept ++ left).drop buf1.length).take (kept.length - buf1.length) =
        kept.drop buf1.length := by
      rw [drop_append_of_le_length long, ← length_drop, take_left]
    have restLength : (kept.drop buf1.length).length = kept.length - buf1.length :=
      length_drop
    rw [front, rest, moveTo_zero, moveTo_zero, ← restLength]
    have rem : (kept.drop buf1.length ++ buf2.drop (kept.drop buf1.length).length).drop
        (buf2.length - remCnt) = buf2.drop (buf2.length - remCnt) := by
      rw [drop_append, drop_of_length_le (by omega), nil_append, drop_drop]
      exact congrArg (buf2.drop ·) (by omega)
    have whole : buf1.drop (kept.take buf1.length).length = [] := by
      apply drop_of_length_le
      rw [length_take]
      omega
    rw [rem, whole, append_nil, moveTo_append]
    constructor
    · simp only [length_take]
      omega
    · simp only [length_append, length_drop]
      omega
    · refine ⟨(buf2.drop (kept.drop buf1.length).length).drop
        (buf2.drop (buf2.length - remCnt)).length, ?_⟩
      simp only [← append_assoc]
      rw [take_append_drop]

/-! ## Discarding -/

/-- The calls that are refused: without samples or a count, and without the erase buffer where it
is needed. -/
def Refused (wsola : Setting) (buf1 buf2 : List Sample) (delCnt : Nat) : Prop :=
  (buf1 = [] ∨ delCnt = 0) ∨
    buf2 ≠ [] ∧ buf1.length < eraseCnt * wsola.samplesPerFrame ∧
      buf2.length < eraseCnt * wsola.samplesPerFrame ∧ wsola.options.noDiscard = true

/-- The count of the samples that are compressed. -/
def compressCnt (wsola : Setting) (buf1 buf2 : List Sample) : Nat :=
  let enough := eraseCnt * wsola.samplesPerFrame
  if buf2 = [] then buf1.length
  else if buf2.length ≥ enough then buf2.length
  else if buf1.length ≥ enough then buf1.length
  else min (buf1.length + buf2.length) enough

/-- After a call that is not refused, either nothing has changed, or at least the requested count
but not all of the samples have been erased behind a merged block, and the others are together. -/
def Discards (wsola : Setting) (buf1 buf2 : List Sample) (delCnt : Nat) (out : Discarded) : Prop :=
  (out.status = .einval ∨ out.status = .einvalidop) ∧ out.buf1 = buf1 ∧ out.buf2 = buf2 ∨
    out.delCnt = 0 ∧ out.buf1 = buf1 ∧ out.buf2 = buf2 ∨
      delCnt ≤ out.delCnt ∧ out.delCnt < buf1.length + buf2.length ∧
        out.buf1.length = buf1.length ∧ out.buf2.length = buf2.length ∧
          ∃ (pos : Nat) (merged : List Sample), merged.length = wsola.hanningSize ∧
            pos + wsola.hanningSize + out.delCnt ≤ buf1.length + buf2.length ∧
              (out.buf1 ++ out.buf2).take (buf1.length + buf2.length - out.delCnt) =
                (buf1 ++ buf2).take pos ++ merged ++
                  (buf1 ++ buf2).drop (pos + wsola.hanningSize + out.delCnt)

/-- What closing the gap makes of compressed samples: `front` stands before them and `behind`
behind them. -/
theorem Closed.discards (front behind : List Sample) {out : Discarded}
    (whole : buf1 ++ buf2 = front ++ buf ++ behind)
    (compressed : result.2 = 0 ∧ kept = buf ∨
      delCnt ≤ result.2 ∧ wsola.hanningSize + result.2 < buf.length ∧
        ∃ merged : List Sample, merged.length = wsola.hanningSize ∧
          kept = merged ++ buf.drop (wsola.hanningSize + result.2))
    (closed : Closed buf1 buf2 (front ++ kept ++ behind) out) (count : out.delCnt = result.2) :
    Discards wsola buf1 buf2 delCnt out := by
  have total : buf1.length + buf2.length = front.length + buf.length + behind.length := by
    rw [← length_append, whole, length_append, length_append]
  rcases compressed with ⟨none, rfl⟩ | ⟨requested, room, merged, block, rfl⟩
  · rw [← whole] at closed
    exact Or.inr (Or.inl ⟨count.trans none, closed.unchanged⟩)
  · refine Or.inr (Or.inr ⟨by omega, by omega, closed.length1, closed.length2, front.length, merged,
      block, by omega, ?_⟩)
    have ⟨junk, samples⟩ := closed.samples
    have length : (front ++ (merged ++ buf.drop (wsola.hanningSize + result.2)) ++ behind).length =
        buf1.length + buf2.length - out.delCnt := by
      simp only [length_append, length_drop]
      omega
    have erased : (front ++ (buf ++ behind)).drop (front.length + wsola.hanningSize + result.2) =
        buf.drop (wsola.hanningSize + result.2) ++ behind := by
      rw [drop_append, drop_of_length_le (by omega), nil_append,
        ← drop_append_of_le_length (Nat.le_of_lt room)]
      exact congrArg ((buf ++ behind).drop ·) (by omega)
    rw [← samples, ← length, take_left, whole, count]
    rw [append_assoc front buf, erased, take_left]
    simp

theorem discard_refused (refused : Refused wsola buf1 buf2 delCnt) :
    ∃ out, discard findPitch wsola buf1 buf2 delCnt = some out ∧
      Discards wsola buf1 buf2 delCnt out := by
  unfold discard
  by_cases invalid : buf1 = [] ∨ delCnt = 0
  · rw [if_pos invalid]
    exact ⟨_, rfl, Or.inl ⟨Or.inl rfl, rfl, rfl⟩⟩
  · have ⟨two, missing⟩ := refused.resolve_left invalid
    rw [if_neg invalid, if_neg two, if_pos missing]
    exact ⟨_, rfl, Or.inl ⟨Or.inr rfl, rfl, rfl⟩⟩

/-- Where the count does not wrap around, the call discards as it should. -/
theorem discard_discards (search : InRange findPitch) (frame : 0 < wsola.samplesPerFrame)
    (cnt1 : buf1.length < 2 ^ 32) (cnt2 : buf2.length < 2 ^ 32)
    (small : eraseCnt * wsola.samplesPerFrame < 2 ^ 32)
    (accepted : ¬Refused wsola buf1 buf2 delCnt)
    (fits : Compressible wsola (compressCnt wsola buf1 buf2) delCnt) :
    ∃ out, discard findPitch wsola buf1 buf2 delCnt = some out ∧
      Discards wsola buf1 buf2 delCnt out := by
  have ⟨valid, erase⟩ := not_or.mp accepted
  have requested : 0 < delCnt := Nat.pos_of_ne_zero fun zero => valid (Or.inr zero)
  unfold discard
  unfold compressCnt at fits
  dsimp only at fits ⊢
  rw [if_neg valid]
  by_cases single : buf2 = []
  · rw [if_pos single] at fits ⊢
    have ⟨result, ran, compressed⟩ := compress_compressed search frame cnt1 requested fits
    have ⟨kept, left, samples, length, total, cases⟩ := compressed.kept
    rw [ran]
    refine ⟨_, rfl, Closed.discards [] [] ?_ cases ⟨?_, rfl, ?_⟩ rfl⟩
    · rw [single, append_nil, append_nil, nil_append]
    · exact (congrArg List.length samples).trans (length_append.trans total)
    · refine ⟨left ++ buf2, ?_⟩
      rw [append_nil, nil_append, ← append_assoc, ← samples]
      rfl
  rw [if_neg single] at fits ⊢
  have missing := fun buffer => erase ⟨single, buffer⟩
  rw [if_neg missing]
  by_cases second : buf2.length ≥ eraseCnt * wsola.samplesPerFrame
  · rw [if_pos second] at fits ⊢
    have ⟨result, ran, compressed⟩ := compress_compressed search frame cnt2 requested fits
    have ⟨kept, left, samples, length, total, cases⟩ := compressed.kept
    rw [ran]
    refine ⟨_, rfl, Closed.discards buf1 [] (append_nil _).symm cases ⟨rfl, ?_, ?_⟩ rfl⟩
    · exact (congrArg List.length samples).trans (length_append.trans total)
    · refine ⟨left, ?_⟩
      rw [append_nil, append_assoc, ← samples]
      rfl
  rw [if_neg second] at fits ⊢
  by_cases first : buf1.length ≥ eraseCnt * wsola.samplesPerFrame
  · rw [if_pos first] at fits ⊢
    have ⟨result, ran, compressed⟩ := compress_compressed search frame cnt1 requested fits
    have ⟨kept, left, samples, length, total, cases⟩ := compressed.kept
    rw [ran]
    refine ⟨_, rfl, Closed.discards [] buf2 rfl cases ?_ rfl⟩
    have closed : Closed buf1 buf2 (kept ++ buf2) (closeGap (kept ++ left) buf2 left.length) :=
      closeGap_closed total
    rw [← samples, length] at closed
    exact closed
  · rw [if_neg first] at fits ⊢
    generalize enough : eraseCnt * wsola.samplesPerFrame = size at *
    generalize sum : min (buf1.length + buf2.length) size = bufSize at *
    have part : buf2.length - (buf1.length + buf2.length - bufSize) = bufSize - buf1.length := by
      omega
    have few : buf1.length + buf2.length - bufSize ≤ buf2.length := by omega
    have both : bufSize = buf1.length + (bufSize - buf1.length) := by omega
    have eraseLength : (buf1 ++ buf2.take (bufSize - buf1.length)).length = bufSize := by
      rw [length_append, length_take]
      omega
    have whole : buf1 ++ buf2 = [] ++ (buf1 ++ buf2.take (bufSize - buf1.length)) ++
        buf2.drop (bufSize - buf1.length) := by
      rw [nil_append, append_assoc, take_append_drop]
    generalize buf1 ++ buf2.take (bufSize - buf1.length) = eraseBuf at eraseLength whole ⊢
    rw [← eraseLength] at fits
    have ⟨result, ran, compressed⟩ :=
      compress_compressed search frame (by omega) requested fits
    have ⟨kept, left, samples, length, total, cases⟩ := compressed.kept
    rw [ran]
    have rest : kept.length = bufSize - result.2 := by
      rw [← length, ← eraseLength, ← total, Nat.add_sub_cancel]
    have behind : kept.length + left.length =
        buf1.length + (buf2.length - (buf1.length + buf2.length - bufSize)) := by
      rw [total, eraseLength, part]
      exact both
    have closed := copyBack_closed few behind result.2
    rw [part, ← samples, rest] at closed
    refine ⟨_, rfl, Closed.discards [] _ whole cases closed ?_⟩
    unfold copyBack discarded
    dsimp only
    split
    · rfl
    · split <;> rfl

/-- A count that wraps around sends the call out of the samples. -/
theorem discard_wraps (cnt1 : buf1.length < 2 ^ 32) (cnt2 : buf2.length < 2 ^ 32)
    (small : eraseCnt * wsola.samplesPerFrame < 2 ^ 32)
    (accepted : ¬Refused wsola buf1 buf2 delCnt)
    (wraps : ¬Compressible wsola (compressCnt wsola buf1 buf2) delCnt) :
    discard findPitch wsola buf1 buf2 delCnt = none := by
  have ⟨valid, erase⟩ := not_or.mp accepted
  unfold discard
  unfold compressCnt at wraps
  dsimp only at wraps ⊢
  rw [if_neg valid]
  by_cases single : buf2 = []
  · rw [if_pos single] at wraps ⊢
    rw [compress_wraps cnt1 wraps, map_none]
  rw [if_neg single] at wraps ⊢
  rw [if_neg fun buffer => erase ⟨single, buffer⟩]
  by_cases second : buf2.length ≥ eraseCnt * wsola.samplesPerFrame
  · rw [if_pos second] at wraps ⊢
    rw [compress_wraps cnt2 wraps, map_none]
  rw [if_neg second] at wraps ⊢
  by_cases first : buf1.length ≥ eraseCnt * wsola.samplesPerFrame
  · rw [if_pos first] at wraps ⊢
    rw [compress_wraps cnt1 wraps, map_none]
  · rw [if_neg first] at wraps ⊢
    have eraseLength : (buf1 ++ buf2.take
        (min (buf1.length + buf2.length) (eraseCnt * wsola.samplesPerFrame) - buf1.length)).length =
          min (buf1.length + buf2.length) (eraseCnt * wsola.samplesPerFrame) := by
      rw [length_append, length_take]
      omega
    rw [← eraseLength] at wraps
    rw [compress_wraps (by omega) wraps, map_none]

/-- A session has a frame, and the erase buffer has room for less than 2³² samples. -/
theorem create_frame {clockRate samplesPerFrame channelCount : Nat} {options : Options}
    {wsola : Wsola}
    (created : create clockRate samplesPerFrame channelCount options = some wsola) :
    0 < wsola.samplesPerFrame ∧ eraseCnt * wsola.samplesPerFrame < 2 ^ 32 := by
  unfold create at created
  by_cases zero : clockRate = 0 ∨ samplesPerFrame = 0
  · simp only [if_pos zero, reduceCtorEq] at created
  by_cases fast : 65535 < clockRate
  · simp only [if_neg zero, if_pos fast, reduceCtorEq] at created
  by_cases long : clockRate ≤ samplesPerFrame
  · simp only [if_neg zero, if_neg fast, if_pos long, reduceCtorEq] at created
  by_cases mute : channelCount = 0
  · simp only [if_neg zero, if_neg fast, if_neg long, if_pos mute, reduceCtorEq] at created
  simp only [if_neg zero, if_neg fast, if_neg long, if_neg mute, Option.some.injEq] at created
  have frame : u16 samplesPerFrame = samplesPerFrame := u16_natCast (by omega)
  have same : wsola.samplesPerFrame = samplesPerFrame := by
    rw [← created]
    exact frame
  unfold eraseCnt
  omega

/-- For every two regions, and whatever the pitch search finds in its range, a call is refused or
discards samples as it should exactly if its count does not wrap around. -/
theorem wsola_discard_iff {clockRate samplesPerFrame channelCount : Nat} {options : Options}
    {wsola : Wsola}
    (created : create clockRate samplesPerFrame channelCount options = some wsola)
    (search : InRange findPitch) (cnt1 : buf1.length < 2 ^ 32) (cnt2 : buf2.length < 2 ^ 32) :
    (∃ out, discard findPitch wsola.toSetting buf1 buf2 delCnt = some out ∧
        Discards wsola.toSetting buf1 buf2 delCnt out) ↔
      Refused wsola.toSetting buf1 buf2 delCnt ∨
        Compressible wsola.toSetting (compressCnt wsola.toSetting buf1 buf2) delCnt := by
  have ⟨frame, small⟩ := create_frame created
  by_cases refused : Refused wsola.toSetting buf1 buf2 delCnt
  · exact iff_of_true (discard_refused refused) (Or.inl refused)
  by_cases fits : Compressible wsola.toSetting (compressCnt wsola.toSetting buf1 buf2) delCnt
  · exact iff_of_true (discard_discards search frame cnt1 cnt2 small refused fits) (Or.inr fits)
  · refine iff_of_false ?_ (not_or.mpr ⟨refused, fits⟩)
    rintro ⟨out, ran, _⟩
    rw [discard_wraps cnt1 cnt2 small refused fits] at ran
    cases ran

/-- A search that finds the first position. -/
def firstPitch : FindPitch := fun _ _ first _ _ => first

theorem firstPitch_inRange : InRange firstPitch := fun _ _ _ _ _ room => ⟨Int.le_refl _, room⟩

/-- The options of a session with everything. -/
def allOptions : Options :=
  { noHanning := false, noPlc := false, noDiscard := false, noFading := false }

/-- A session at 8 kHz with frames of 20 samples, which merges 20 samples. -/
theorem create_sample : ∃ wsola, create 8000 20 1 allOptions = some wsola ∧
    wsola.samplesPerFrame = 20 ∧ wsola.hanningSize = 20 :=
  ⟨_, rfl, by decide, by decide⟩

theorem wsola_discard_sample : ∃ wsola, create 8000 20 1 allOptions = some wsola ∧
    ((∃ out, discard firstPitch wsola.toSetting (List.replicate 40 0) (List.replicate 30 0) 7 =
          some out ∧
        Discards wsola.toSetting (List.replicate 40 0) (List.replicate 30 0) 7 out) ↔
      Refused wsola.toSetting (List.replicate 40 0) (List.replicate 30 0) 7 ∨
        Compressible wsola.toSetting
          (compressCnt wsola.toSetting (List.replicate 40 0) (List.replicate 30 0)) 7) := by
  have ⟨wsola, created, _⟩ := create_sample
  exact ⟨wsola, created, wsola_discard_iff created firstPitch_inRange (by decide) (by decide)⟩

/-- The greatest count wraps around: more than 19 samples pass the check, and the search starts
outside of the 40 samples. -/
theorem wsola_discard_overflows : ∃ wsola, create 8000 20 1 allOptions = some wsola ∧
    ¬∃ out, discard firstPitch wsola.toSetting (List.replicate 40 0) [] 4294967295 = some out ∧
      Discards wsola.toSetting (List.replicate 40 0) [] 4294967295 out := by
  have ⟨wsola, created, frame, hanning⟩ := create_sample
  have accepted : ¬Refused wsola.toSetting (List.replicate 40 0) [] 4294967295 := by
    rintro ((none | zero) | ⟨two, _⟩)
    · cases none
    · cases zero
    · exact two rfl
  have wraps : ¬Compressible wsola.toSetting
      (compressCnt wsola.toSetting (List.replicate 40 0) []) 4294967295 := by
    unfold Compressible compressCnt
    rw [hanning, if_pos rfl]
    decide
  have small : eraseCnt * wsola.samplesPerFrame < 2 ^ 32 := by
    rw [frame]
    decide
  refine ⟨wsola, created, ?_⟩
  rintro ⟨out, ran, _⟩
  rw [discard_wraps (by decide) (by decide) small accepted wraps] at ran
  cases ran

end Pjmedia.Wsola
