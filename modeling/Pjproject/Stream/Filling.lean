import Pjproject.Stream.Playback

/-!
# Filling the frames of a stream

Every frame that a stream is asked for is filled exactly if the codec frames fit what is required,
and none is lost to a decoding error behind which nothing was zeroed.
-/

namespace Pjmedia.Stream
open Pj

/-- A frame is filled: its size is what is required, every sample was written with audio of this
call, and no store was outside of its buffer. -/
structure Call.Filled (call : Call) : Prop where
  size : call.frameSize = call.stream.samplesRequired * 2
  whole : ∀ i < call.stream.samplesRequired, ∃ audio, call.cells i = some audio ∧ audio ≠ .stale
  frame : ∀ stored ∈ call.frameEnds, stored ≤ call.stream.samplesRequired
  dec : ∀ stored ∈ call.decEnds, stored ≤ call.stream.decBufSize.getD 0

/-- `get_frame` is not paused, ends, and fills its frame. -/
def Playback.Fills (stream : Playback) (frames : Nat → JbFrame) : Prop :=
  stream.paused = false ∧
    ∃ count, (stream.after frames count).Over ∧ (stream.after frames count).Filled

/-- A frame of the jitter buffer can be used: a codec frame fits what is required, or the decoding
buffer, and what the decoder leaves of it was written before. -/
def Call.Usable (call : Call) : JbFrame → Prop
  | .missing _ => call.stream.samplesPerFrame ≤ call.room
  | .zeroEmpty _ => True
  | .zeroPrefetch _ => True
  | .normal bitInfo decodes =>
    if call.UsesDecBuf bitInfo then
      decodes = true ∧ call.frameSamples bitInfo * 2 ≤ call.stream.decBufSize.getD 0
    else
      call.stream.samplesPerFrame ≤ call.room ∧
        ∀ i < call.samplesCount + call.stream.samplesPerFrame,
          call.samplesCount +
              (if call.Succeeds decodes (call.frameSamples bitInfo) then call.frameSamples bitInfo
              else 0) ≤ i →
            (call.cells i).isSome

/-- A frame that ends the loop, whatever a codec frame holds. -/
def Call.Ends (call : Call) : JbFrame → Prop
  | .missing _ => False
  | .zeroEmpty _ => True
  | .zeroPrefetch _ => True
  | .normal bitInfo _ => call.UsesDecBuf bitInfo

/-- The loop goes forward: a codec frame has samples, or nothing is required, or a frame ends it. -/
def Playback.Progresses (stream : Playback) (frames : Nat → JbFrame) : Prop :=
  0 < stream.samplesPerFrame ∨ stream.begin.Over ∨ ∃ k, stream.begin.Ends (frames k)

/-- The condition on a call: it goes forward, with frames that can be used. -/
def Playback.Fillable (stream : Playback) (frames : Nat → JbFrame) : Prop :=
  stream.paused = false ∧ stream.Progresses frames ∧
    ∀ count, Run.Meets Call.step (fun call frame => call.Over ∨ call.Usable frame) stream.begin
      ((List.range count).map frames)

/-! ## What a step leaves alone -/

namespace Call

/-- A later state of a call, with the same settings and the samples that were counted. -/
structure Extends (call next : Call) : Prop where
  required : next.stream.samplesRequired = call.stream.samplesRequired
  perFrame : next.stream.samplesPerFrame = call.stream.samplesPerFrame
  size : next.stream.decBufSize = call.stream.decBufSize
  later : call.samplesCount ≤ next.samplesCount
  cells : ∀ i < call.samplesCount, next.cells i = call.cells i

variable {call : Call}

theorem Extends.refl (call : Call) : call.Extends call :=
  ⟨rfl, rfl, rfl, Nat.le_refl _, fun _ _ => rfl⟩

theorem Extends.trans {next last : Call} (h : call.Extends next) (h' : next.Extends last) :
    call.Extends last where
  required := h'.required.trans h.required
  perFrame := h'.perFrame.trans h.perFrame
  size := h'.size.trans h.size
  later := Nat.le_trans h.later h'.later
  cells i inside := (h'.cells i (Nat.lt_of_lt_of_le inside h.later)).trans (h.cells i inside)

theorem store_cells (call : Call) (count : Nat) (source : Nat → Audio) (i : Nat) :
    (call.store count source).cells i =
      if call.samplesCount ≤ i ∧ i < call.samplesCount + count then
        some (source (i - call.samplesCount))
      else call.cells i := rfl

theorem extends_store (call : Call) (count : Nat) (source : Nat → Audio) :
    call.Extends (call.store count source) where
  required := rfl
  perFrame := rfl
  size := rfl
  later := Nat.le_refl _
  cells i inside := by
    rw [store_cells, if_neg (by omega)]

theorem extends_advance (call : Call) (count : Nat) : call.Extends (call.advance count) :=
  ⟨rfl, rfl, rfl, Nat.le_add_right _ _, fun _ _ => rfl⟩

theorem extends_countPlc (call : Call) : call.Extends call.countPlc :=
  ⟨rfl, rfl, rfl, Nat.le_refl _, fun _ _ => rfl⟩

theorem extends_storeDec (call : Call) (count : Nat) (audio : Audio) :
    call.Extends (call.storeDec count audio) :=
  ⟨rfl, rfl, rfl, Nat.le_refl _, fun _ _ => rfl⟩

theorem extends_report (call : Call) (frameType : FrameType) :
    call.Extends (call.report frameType) :=
  ⟨rfl, rfl, rfl, Nat.le_refl _, fun _ _ => rfl⟩

/-- Samples stored and counted. -/
theorem extends_write (call : Call) (count counted : Nat) (source : Nat → Audio) :
    call.Extends ((call.store count source).advance counted) :=
  (extends_store call count source).trans (extends_advance _ counted)

theorem extends_copyLeftover (call : Call) : call.Extends call.copyLeftover := by
  unfold copyLeftover
  split
  · have written := extends_write call
      (min call.room (call.stream.decBufCount - call.stream.decBufPos))
      (min call.room (call.stream.decBufCount - call.stream.decBufPos))
      fun i => call.stream.decCells (call.stream.decBufPos + i)
    exact ⟨rfl, rfl, rfl, written.later, written.cells⟩
  · exact Extends.refl call

theorem extends_missing (call : Call) (recovers : Bool) : call.Extends (call.missing recovers) := by
  unfold missing
  dsimp only
  split
  · split
    · exact ((extends_store _ _ _).trans (extends_countPlc _)).trans (extends_advance _ _)
    · exact ((extends_store _ _ _).trans (extends_countPlc _)).trans (extends_advance _ _)
  · exact extends_write _ _ _ _

theorem extends_conceal (recovers : Nat → Bool) (left index : Nat) (call : Call) :
    call.Extends (conceal recovers left index call) := by
  induction left generalizing index call with
  | zero => exact Extends.refl call
  | succ left ih =>
    unfold conceal
    dsimp only
    split
    · have next : call.Extends ((call.store call.stream.samplesPerFrame fun _ => .concealed).advance
          call.stream.samplesPerFrame).countPlc :=
        (extends_write _ _ _ _).trans (extends_countPlc _)
      split
      · exact next.trans (ih _ _)
      · exact next
    · exact Extends.refl call

theorem extends_empty (call : Call) (recovers : Nat → Bool) :
    call.Extends (call.empty recovers) := by
  obtain ⟨concealed, started⟩ : ∃ concealed, (if call.MayRecover then
      conceal recovers (call.stream.maxPlcCnt - call.stream.plcCnt) 0 call else call) =
        concealed := ⟨_, rfl⟩
  have first : call.Extends concealed := by
    rw [← started]
    split
    · exact extends_conceal recovers _ _ call
    · exact Extends.refl call
  unfold empty
  dsimp only
  rw [started]
  split
  · next short =>
    have stored := extends_store concealed concealed.room fun _ => .zero
    refine first.trans ⟨rfl, rfl, rfl, Nat.le_of_lt short, ?_⟩
    exact stored.cells
  · exact first.trans ⟨rfl, rfl, rfl, Nat.le_refl _, fun _ _ => rfl⟩

theorem extends_resetPlc (call : Call) : call.Extends call.resetPlc :=
  ⟨rfl, rfl, rfl, Nat.le_refl _, fun _ _ => rfl⟩

theorem extends_hold (call : Call) (count : Nat) : call.Extends (call.hold count) :=
  ⟨rfl, rfl, rfl, Nat.le_refl _, fun _ _ => rfl⟩

theorem extends_spoil (call : Call) : call.Extends call.spoil :=
  ⟨rfl, rfl, rfl, Nat.le_refl _, fun _ _ => rfl⟩

theorem extends_normal (call : Call) (bitInfo : Nat) (decodes : Bool) :
    call.Extends (call.normal bitInfo decodes) := by
  apply (extends_resetPlc call).trans
  unfold normal
  split
  · unfold decodeAside
    dsimp only
    split
    · exact (extends_storeDec _ _ _).trans (extends_hold _ _)
    · exact ((extends_hold _ _).trans (extends_spoil _)).trans (extends_store _ _ _)
  · unfold decodeDirect
    dsimp only
    split
    · exact extends_write _ _ _ _
    · exact (extends_storeDec _ _ _).trans (extends_advance _ _)

theorem extends_handle (call : Call) (frame : JbFrame) : call.Extends (call.handle frame) := by
  cases frame with
  | missing recovers => exact extends_missing call recovers
  | zeroEmpty recovers => exact extends_empty call recovers
  | zeroPrefetch recovers => exact extends_empty call recovers
  | normal bitInfo decodes => exact extends_normal call bitInfo decodes

/-- Every step extends the call. -/
theorem extends_step (call : Call) (frame : JbFrame) : call.Extends (call.step frame) := by
  have reported := (extends_handle call frame).trans (extends_report _ frame.frameType)
  unfold step
  split
  · exact Extends.refl call
  · dsimp only
    split
    · exact reported
    · exact reported.trans (extends_copyLeftover _)

/-! ## Wrong frames -/

/-- A frame that cannot be filled any more: it is too long, or a counted sample was not written with
audio of this call. -/
def Wrong (call : Call) : Prop :=
  call.stream.samplesRequired < call.samplesCount ∨
    ∃ i < call.samplesCount, i < call.stream.samplesRequired ∧
      ∀ audio, call.cells i = some audio → audio = .stale

theorem Wrong.extend {next : Call} (wrong : call.Wrong) (h : call.Extends next) : next.Wrong := by
  unfold Wrong
  rw [h.required]
  rcases wrong with long | ⟨i, counted, inside, unwritten⟩
  · exact .inl (Nat.lt_of_lt_of_le long h.later)
  · refine .inr ⟨i, Nat.lt_of_lt_of_le counted h.later, inside, ?_⟩
    rw [h.cells i counted]
    exact unwritten

theorem Wrong.not_filled (wrong : call.Wrong) : ¬call.Filled := by
  intro filled
  rcases wrong with long | ⟨i, _, inside, unwritten⟩
  · have size := filled.size
    unfold frameSize at size
    rw [if_neg (by omega)] at size
    omega
  · have ⟨audio, written, fresh⟩ := filled.whole i inside
    exact fresh (unwritten audio written)

end Call

/-! ## Sound calls -/

/-- The decoding buffer holds audio where it is to be copied from. -/
structure Playback.Ready (stream : Playback) : Prop where
  count : stream.decBufCount ≤ stream.decBufSize.getD 0
  pos : stream.decBufPos ≤ stream.decBufCount
  fresh : ∀ i, stream.decBufPos ≤ i → i < stream.decBufCount → stream.decCells i ≠ .stale

namespace Call

/-- The counted samples are written, no store was outside, and no stale sample was copied. -/
structure Sound (call : Call) : Prop where
  ready : call.stream.Ready
  counted : call.samplesCount ≤ call.stream.samplesRequired
  written : ∀ i < call.samplesCount, (call.cells i).isSome
  fresh : ∀ i audio, call.cells i = some audio → audio ≠ .stale
  frame : ∀ stored ∈ call.frameEnds, stored ≤ call.stream.samplesRequired
  dec : ∀ stored ∈ call.decEnds, stored ≤ call.stream.decBufSize.getD 0
  broken : call.broken = true → call.samplesCount = call.stream.samplesRequired

/-- The decoding buffer has nothing left, or the call is over. -/
def Drained (call : Call) : Prop :=
  call.Over ∨ call.stream.decBufCount ≤ call.stream.decBufPos

variable {call : Call}

section
variable (h : call.Sound)
include h

/-- Samples stored and counted, of which those beyond the stored ones were written before. -/
theorem Sound.write {count counted : Nat} (source : Nat → Audio) (fits : count ≤ call.room)
    (within : counted ≤ call.room) (fresh : ∀ i < count, source i ≠ .stale)
    (before : ∀ i < call.samplesCount + counted, call.samplesCount + count ≤ i →
      (call.cells i).isSome) :
    ((call.store count source).advance counted).Sound := by
  have total := h.counted
  unfold room at fits within
  constructor
  · exact h.ready
  · show call.samplesCount + counted ≤ call.stream.samplesRequired
    omega
  · intro i inside
    show ((call.store count source).cells i).isSome
    rw [store_cells]
    by_cases stored : call.samplesCount ≤ i ∧ i < call.samplesCount + count
    · rw [if_pos stored]
      rfl
    · rw [if_neg stored]
      by_cases old : i < call.samplesCount
      · exact h.written i old
      · exact before i inside (by omega)
  · intro i audio cell
    have stored : (call.store count source).cells i = some audio := cell
    rw [store_cells] at stored
    by_cases new : call.samplesCount ≤ i ∧ i < call.samplesCount + count
    · rw [if_pos new] at stored
      cases stored
      exact fresh _ (by omega)
    · rw [if_neg new] at stored
      exact h.fresh i audio stored
  · intro stored member
    rcases List.mem_cons.mp member with rfl | member
    · show call.samplesCount + count ≤ call.stream.samplesRequired
      omega
    · exact h.frame stored member
  · exact h.dec
  · intro broken
    have full := h.broken broken
    show call.samplesCount + counted = call.stream.samplesRequired
    omega

/-- As many samples stored as counted. -/
theorem Sound.writeAll {count : Nat} (source : Nat → Audio) (fits : count ≤ call.room)
    (fresh : ∀ i < count, source i ≠ .stale) : ((call.store count source).advance count).Sound := by
  apply h.write source fits fits fresh
  intro i inside beyond
  omega

theorem Sound.countPlc : call.countPlc.Sound :=
  ⟨⟨h.ready.count, h.ready.pos, h.ready.fresh⟩, h.counted, h.written, h.fresh, h.frame, h.dec,
    h.broken⟩

theorem Sound.resetPlc : call.resetPlc.Sound :=
  ⟨⟨h.ready.count, h.ready.pos, h.ready.fresh⟩, h.counted, h.written, h.fresh, h.frame, h.dec,
    h.broken⟩

theorem Sound.report (frameType : FrameType) : (call.report frameType).Sound :=
  ⟨⟨h.ready.count, h.ready.pos, h.ready.fresh⟩, h.counted, h.written, h.fresh, h.frame, h.dec,
    h.broken⟩

/-- Samples stored in the decoding buffer. -/
theorem Sound.storeDec {count : Nat} {audio : Audio} (fresh : audio ≠ .stale)
    (fits : count ≤ call.stream.decBufSize.getD 0) : (call.storeDec count audio).Sound := by
  refine ⟨⟨h.ready.count, h.ready.pos, ?_⟩, h.counted, h.written, h.fresh, h.frame, ?_, h.broken⟩
  · intro i after inside
    show (if i < count then audio else call.stream.decCells i) ≠ .stale
    split
    · exact fresh
    · exact h.ready.fresh i after inside
  · intro stored member
    rcases List.mem_cons.mp member with rfl | member
    · exact fits
    · exact h.dec stored member

/-- Copying what is left leaves nothing, or fills the frame. -/
theorem Sound.copyLeftover : call.copyLeftover.Sound ∧ call.copyLeftover.Drained := by
  have ready := h.ready
  unfold Call.copyLeftover
  split
  · next leftover =>
    obtain ⟨count, amount⟩ : ∃ count, min call.room
        (call.stream.decBufCount - call.stream.decBufPos) = count := ⟨_, rfl⟩
    rw [amount]
    have fits : count ≤ call.room := by omega
    have written := h.writeAll (fun i => call.stream.decCells (call.stream.decBufPos + i)) fits
      fun i inside => ready.fresh _ (by omega) (by omega)
    refine ⟨⟨⟨ready.count, ?_, ?_⟩, written.counted, written.written, written.fresh, written.frame,
      written.dec, written.broken⟩, ?_⟩
    · show call.stream.decBufPos + count ≤ call.stream.decBufCount
      omega
    · intro i after inside
      have later : call.stream.decBufPos + count ≤ i := after
      exact ready.fresh i (by omega) inside
    · by_cases full : count = call.room
      · have total := h.counted
        refine .inl (.inr ?_)
        show call.stream.samplesRequired ≤ call.samplesCount + count
        unfold room at full
        omega
      · refine .inr ?_
        show call.stream.decBufCount ≤ call.stream.decBufPos + count
        omega
  · next nothing =>
    refine ⟨h, .inr ?_⟩
    have size := ready.count
    cases buffer : call.stream.decBufSize with
    | none =>
      rw [buffer] at size
      exact Nat.le_trans size (Nat.zero_le _)
    | some size =>
      rw [buffer] at nothing
      exact Nat.le_of_not_lt fun left => nothing ⟨rfl, left⟩

end

theorem Succeeds.fits {codec : Bool} {samples : Nat} (h : call.Succeeds codec samples) :
    samples ≤ call.room := by
  have size := h.2
  unfold room
  omega

theorem Sound.missing (h : call.Sound) {recovers : Bool}
    (usable : call.stream.samplesPerFrame ≤ call.room) : (call.missing recovers).Sound := by
  have zeroed : ((call.store call.room fun _ => .zero).advance
      call.stream.samplesPerFrame).Sound := by
    apply h.write _ (Nat.le_refl _) usable (fun _ _ => by decide)
    intro i inside beyond
    omega
  unfold Call.missing
  dsimp only
  split
  · split
    · exact (h.writeAll _ usable fun _ _ => by decide).countPlc
    · exact zeroed.countPlc
  · exact zeroed

theorem Sound.conceal (h : call.Sound) (recovers : Nat → Bool) (left index : Nat) :
    (conceal recovers left index call).Sound := by
  induction left generalizing index call with
  | zero => exact h
  | succ left ih =>
    unfold Call.conceal
    dsimp only
    split
    · next success =>
      have next := (h.writeAll (fun _ => .concealed) success.fits fun _ _ => by decide).countPlc
      split
      · exact ih next _
      · exact next
    · exact h

theorem Sound.empty (h : call.Sound) (recovers : Nat → Bool) :
    (call.empty recovers).Sound ∧ (call.empty recovers).Over := by
  obtain ⟨concealed, started⟩ : ∃ concealed, (if call.MayRecover then
      Call.conceal recovers (call.stream.maxPlcCnt - call.stream.plcCnt) 0 call else call) =
        concealed := ⟨_, rfl⟩
  have first : concealed.Sound := by
    rw [← started]
    split
    · exact h.conceal recovers _ _
    · exact h
  have total := first.counted
  unfold Call.empty
  dsimp only
  rw [started]
  refine ⟨?_, .inl rfl⟩
  split
  · have zeroed := first.writeAll (fun _ => .zero) (Nat.le_refl _) fun _ _ => by decide
    have counted : concealed.samplesCount + concealed.room = concealed.stream.samplesRequired := by
      unfold room
      omega
    refine ⟨zeroed.ready, Nat.le_refl _, ?_, zeroed.fresh, zeroed.frame, zeroed.dec, fun _ => rfl⟩
    intro i inside
    have within : i < concealed.stream.samplesRequired := inside
    exact zeroed.written i (show i < concealed.samplesCount + concealed.room by omega)
  · exact ⟨first.ready, first.counted, first.written, first.fresh, first.frame, first.dec,
      fun _ => by
        show concealed.samplesCount = concealed.stream.samplesRequired
        omega⟩

variable {bitInfo : Nat}

/-- A frame for the decoding buffer is larger than what is required. -/
theorem UsesDecBuf.room_lt (h : call.UsesDecBuf bitInfo) :
    call.room < bitInfo ∧ call.frameSamples bitInfo = bitInfo := by
  have larger := h.2
  rw [u32_eq] at larger
  unfold room frameSamples
  refine ⟨by omega, if_neg ?_⟩
  rintro rfl
  omega

/-- A decoding buffer that holds enough fills the frame. -/
theorem copyLeftover_over (present : call.stream.decBufSize.isSome)
    (enough : call.room ≤ call.stream.decBufCount - call.stream.decBufPos) :
    call.copyLeftover.Over := by
  refine .inr ?_
  unfold room at enough
  unfold Call.copyLeftover
  split
  · show call.stream.samplesRequired ≤ call.samplesCount + min call.room _
    unfold room
    omega
  · next nothing =>
    have none : ¬call.stream.decBufPos < call.stream.decBufCount := fun left =>
      nothing ⟨present, left⟩
    omega

/-- Decoding into the decoding buffer fills the frame. -/
theorem Sound.decodeAside (h : call.Sound) {bitInfo : Nat} (uses : call.UsesDecBuf bitInfo)
    {decodes : Bool} (success : decodes = true ∧
      call.frameSamples bitInfo * 2 ≤ call.stream.decBufSize.getD 0) (frameType : FrameType) :
    let next := (call.decodeAside bitInfo decodes).report frameType
    next.Sound ∧ next.copyLeftover.Over := by
  have larger := uses.room_lt
  have fits := success.2
  have stored := @Sound.storeDec call h (call.frameSamples bitInfo) .decoded (by decide) (by omega)
  intro next
  have decoded : next = ((call.storeDec (call.frameSamples bitInfo) .decoded).hold
      (call.frameSamples bitInfo * 2 / 2)).report frameType := by
    show (call.decodeAside bitInfo decodes).report frameType = _
    unfold Call.decodeAside
    rw [if_pos success]
  rw [decoded]
  refine ⟨⟨⟨?_, Nat.zero_le _, ?_⟩, stored.counted, stored.written, stored.fresh, stored.frame,
    stored.dec, stored.broken⟩, ?_⟩
  · show call.frameSamples bitInfo * 2 / 2 ≤ call.stream.decBufSize.getD 0
    omega
  · intro i _ inside
    have within : i < call.frameSamples bitInfo * 2 / 2 := inside
    show (if i < call.frameSamples bitInfo then Audio.decoded else call.stream.decCells i) ≠ .stale
    rw [if_pos (by omega)]
    decide
  · apply copyLeftover_over
    · exact uses.1
    · show call.room ≤ call.frameSamples bitInfo * 2 / 2 - 0
      omega

/-- Decoding into the frame, or passing over what was written before. -/
theorem Sound.decodeDirect (h : call.Sound) {decodes : Bool}
    (fits : call.stream.samplesPerFrame ≤ call.room)
    (before : ∀ i < call.samplesCount + call.stream.samplesPerFrame,
      call.samplesCount + (if call.Succeeds decodes (call.frameSamples bitInfo) then
        call.frameSamples bitInfo else 0) ≤ i → (call.cells i).isSome) :
    (call.decodeDirect bitInfo decodes).Sound := by
  unfold Call.decodeDirect
  dsimp only
  split
  · next success =>
    rw [if_pos success] at before
    exact h.write _ success.fits fits (fun _ _ => by decide) before
  · next failure =>
    rw [if_neg failure] at before
    have zeroed := @Sound.storeDec call h _ .zero (by decide) h.ready.count
    have nothing := zeroed.write (fun _ => .zero) (Nat.zero_le _) fits (fun _ _ => by decide) before
    refine ⟨nothing.ready, nothing.counted, ?_, zeroed.fresh, zeroed.frame, zeroed.dec,
      nothing.broken⟩
    intro i inside
    by_cases old : i < call.samplesCount
    · exact h.written i old
    · exact before i inside (by omega)

theorem samplesCount_missing (call : Call) (recovers : Bool) :
    (call.missing recovers).samplesCount = call.samplesCount + call.stream.samplesPerFrame := by
  unfold Call.missing
  dsimp only
  split
  · split <;> rfl
  · rfl

theorem samplesCount_decodeDirect (call : Call) (bitInfo : Nat) (decodes : Bool) :
    (call.decodeDirect bitInfo decodes).samplesCount =
      call.samplesCount + call.stream.samplesPerFrame := by
  unfold Call.decodeDirect
  dsimp only
  split <;> rfl

/-- A frame that goes to the decoding buffer is copied from there. -/
theorem step_aside (open' : ¬call.Over) (uses : call.UsesDecBuf bitInfo) (decodes : Bool) :
    call.step (.normal bitInfo decodes) =
      ((call.resetPlc.decodeAside bitInfo decodes).report .normal).copyLeftover := by
  have aside : call.handle (.normal bitInfo decodes) = call.resetPlc.decodeAside bitInfo decodes :=
    if_pos (show call.resetPlc.UsesDecBuf bitInfo from uses)
  have unfinished : ¬((call.resetPlc.decodeAside bitInfo decodes).report .normal).Over := by
    unfold Call.decodeAside
    dsimp only
    split
    · exact open'
    · exact open'
  unfold Call.step
  rw [if_neg open', aside]
  exact if_neg unfinished

theorem usable_aside (uses : call.UsesDecBuf bitInfo) (decodes : Bool) :
    call.Usable (.normal bitInfo decodes) ↔
      decodes = true ∧ call.frameSamples bitInfo * 2 ≤ call.stream.decBufSize.getD 0 :=
  iff_of_eq (if_pos uses)

theorem usable_direct (uses : ¬call.UsesDecBuf bitInfo) (decodes : Bool) :
    call.Usable (.normal bitInfo decodes) ↔
      call.stream.samplesPerFrame ≤ call.room ∧
        ∀ i < call.samplesCount + call.stream.samplesPerFrame,
          call.samplesCount +
              (if call.Succeeds decodes (call.frameSamples bitInfo) then call.frameSamples bitInfo
              else 0) ≤ i →
            (call.cells i).isSome :=
  iff_of_eq (if_neg uses)

/-- A step whose frame leaves the call sound. -/
theorem Sound.stepOf (open' : ¬call.Over) (frame : JbFrame)
    (handled : (call.handle frame).Sound) :
    (call.step frame).Sound ∧ (call.step frame).Drained := by
  have reported := handled.report frame.frameType
  unfold Call.step
  rw [if_neg open']
  dsimp only
  split
  · next finished => exact ⟨reported, .inl finished⟩
  · exact reported.copyLeftover

/-- A step counts at least what its frame counts, and is over if its frame is. -/
theorem step_later (open' : ¬call.Over) (frame : JbFrame) :
    (call.handle frame).samplesCount ≤ (call.step frame).samplesCount ∧
      ((call.handle frame).Over → (call.step frame).Over) := by
  unfold Call.step
  rw [if_neg open']
  dsimp only
  split
  · next finished => exact ⟨Nat.le_refl _, fun _ => finished⟩
  · next unfinished =>
    exact ⟨(extends_copyLeftover ((call.handle frame).report frame.frameType)).later,
      fun finished => absurd finished unfinished⟩

/-- A frame that can be used keeps the call sound and drained, and moves it forward or ends it. -/
theorem Sound.step (h : call.Sound) (open' : ¬call.Over) {frame : JbFrame}
    (usable : call.Usable frame) :
    (call.step frame).Sound ∧ (call.step frame).Drained ∧
      ((call.step frame).Over ∨
        call.samplesCount + call.stream.samplesPerFrame ≤ (call.step frame).samplesCount) ∧
      (call.Ends frame → (call.step frame).Over) := by
  have ⟨later, ends⟩ := step_later open' frame
  cases frame with
  | missing recovers =>
    have ⟨sound, drained⟩ := Sound.stepOf open' (.missing recovers) (h.missing usable)
    have counted := samplesCount_missing call recovers
    exact ⟨sound, drained, .inr (by rw [← counted]; exact later), nofun⟩
  | zeroEmpty recovers =>
    have ⟨handled, finished⟩ := h.empty recovers
    have ⟨sound, drained⟩ := Sound.stepOf open' (.zeroEmpty recovers) handled
    exact ⟨sound, drained, .inl (ends finished), fun _ => ends finished⟩
  | zeroPrefetch recovers =>
    have ⟨handled, finished⟩ := h.empty recovers
    have ⟨sound, drained⟩ := Sound.stepOf open' (.zeroPrefetch recovers) handled
    exact ⟨sound, drained, .inl (ends finished), fun _ => ends finished⟩
  | normal bitInfo decodes =>
    by_cases uses : call.UsesDecBuf bitInfo
    · have success : decodes = true ∧
          call.frameSamples bitInfo * 2 ≤ call.stream.decBufSize.getD 0 :=
        (usable_aside uses decodes).mp usable
      have ⟨sound, finished⟩ :=
        @Sound.decodeAside call.resetPlc h.resetPlc bitInfo uses decodes success .normal
      rw [step_aside open' uses]
      have ⟨copied, drained⟩ := sound.copyLeftover
      exact ⟨copied, drained, .inl finished, fun _ => finished⟩
    · have condition := (usable_direct uses decodes).mp usable
      have direct : call.handle (.normal bitInfo decodes) =
          call.resetPlc.decodeDirect bitInfo decodes :=
        if_neg (show ¬call.resetPlc.UsesDecBuf bitInfo from uses)
      have handled : (call.handle (.normal bitInfo decodes)).Sound := by
        rw [direct]
        exact h.resetPlc.decodeDirect condition.1 condition.2
      have ⟨sound, drained⟩ := Sound.stepOf open' _ handled
      have counted : (call.handle (.normal bitInfo decodes)).samplesCount =
          call.samplesCount + call.stream.samplesPerFrame := by
        rw [direct]
        exact samplesCount_decodeDirect call.resetPlc bitInfo decodes
      exact ⟨sound, drained, .inr (by rw [← counted]; exact later), fun ends => absurd ends uses⟩

/-- A frame that was handled wrongly leaves the call wrong. -/
theorem Wrong.step (open' : ¬call.Over) {frame : JbFrame} (wrong : (call.handle frame).Wrong) :
    (call.step frame).Wrong := by
  have reported := wrong.extend (extends_report _ frame.frameType)
  unfold Call.step
  rw [if_neg open']
  dsimp only
  split
  · exact reported
  · exact reported.extend (extends_copyLeftover _)

/-- A stale sample that is copied makes the call wrong. -/
theorem copyLeftover_wrong (open' : ¬call.Over) (present : call.stream.decBufSize.isSome)
    (held : call.stream.decBufPos < call.stream.decBufCount)
    (stale : call.stream.decCells call.stream.decBufPos = .stale) : call.copyLeftover.Wrong := by
  have ⟨unbroken, short⟩ := not_or.mp open'
  obtain ⟨count, amount⟩ : ∃ count, min call.room
      (call.stream.decBufCount - call.stream.decBufPos) = count := ⟨_, rfl⟩
  have positive : 0 < count := by
    unfold room at amount
    omega
  unfold Call.copyLeftover
  rw [if_pos ⟨present, held⟩]
  rw [amount]
  refine .inr ⟨call.samplesCount, Nat.lt_add_of_pos_right positive, Nat.lt_of_not_le short, ?_⟩
  intro audio cell
  have stored : (call.store count fun i => call.stream.decCells (call.stream.decBufPos + i)).cells
      call.samplesCount = some audio := cell
  rw [store_cells, if_pos (by omega), Nat.sub_self, Nat.add_zero, stale] at stored
  exact (Option.some.inj stored).symm

/-- A frame that failed to be decoded into the decoding buffer is played from what was there. -/
theorem decodeAside_wrong (open' : ¬call.Over) {bitInfo : Nat} (uses : call.UsesDecBuf bitInfo)
    {decodes : Bool} (failure : ¬(decodes = true ∧
      call.frameSamples bitInfo * 2 ≤ call.stream.decBufSize.getD 0)) (frameType : FrameType) :
    ((call.decodeAside bitInfo decodes).report frameType).copyLeftover.Wrong := by
  have larger := uses.room_lt.1
  have failed : call.decodeAside bitInfo decodes =
      (call.hold bitInfo).spoil.store call.stream.samplesPerFrame fun _ => .zero := if_neg failure
  rw [failed]
  apply copyLeftover_wrong
  · exact open'
  · exact uses.1
  · show 0 < bitInfo
    omega
  · rfl

/-- A frame that is too long for what is required, or that leaves something unwritten. -/
theorem decodeDirect_wrong {bitInfo : Nat} {decodes : Bool}
    (unusable : ¬(call.stream.samplesPerFrame ≤ call.room ∧
      ∀ i < call.samplesCount + call.stream.samplesPerFrame,
        call.samplesCount + (if call.Succeeds decodes (call.frameSamples bitInfo) then
          call.frameSamples bitInfo else 0) ≤ i → (call.cells i).isSome)) :
    (call.decodeDirect bitInfo decodes).Wrong := by
  have counted := samplesCount_decodeDirect call bitInfo decodes
  have required : (call.decodeDirect bitInfo decodes).stream.samplesRequired =
      call.stream.samplesRequired := by
    unfold Call.decodeDirect
    dsimp only
    split <;> rfl
  unfold Wrong
  rw [counted, required]
  by_cases fits : call.stream.samplesPerFrame ≤ call.room
  · have ⟨i, unwritten⟩ := not_forall.mp fun all => unusable ⟨fits, all⟩
    have ⟨inside, later⟩ := Classical.not_imp.mp unwritten
    have ⟨beyond, empty⟩ := Classical.not_imp.mp later
    have none : call.cells i = none := Option.not_isSome_iff_eq_none.mp empty
    by_cases long : call.stream.samplesRequired <
        call.samplesCount + call.stream.samplesPerFrame
    · exact .inl long
    refine .inr ⟨i, inside, by omega, ?_⟩
    intro audio cell
    have same : (call.decodeDirect bitInfo decodes).cells i = call.cells i := by
      unfold Call.decodeDirect
      dsimp only
      split
      · next success =>
        rw [if_pos success] at beyond
        show (call.store (call.frameSamples bitInfo) fun _ => .decoded).cells i = call.cells i
        rw [store_cells, if_neg (by omega)]
      · rfl
    rw [same, none] at cell
    contradiction
  · unfold room at fits
    exact .inl (by omega)

/-- A frame that cannot be used makes the call wrong. -/
theorem step_wrong (open' : ¬call.Over) {frame : JbFrame}
    (unusable : ¬call.Usable frame) : (call.step frame).Wrong := by
  cases frame with
  | missing recovers =>
    have long : call.room < call.stream.samplesPerFrame := Nat.lt_of_not_le unusable
    have counted := samplesCount_missing call recovers
    have wrong : (call.missing recovers).Wrong := by
      refine .inl ?_
      rw [(extends_missing call recovers).required, counted]
      unfold room at long
      omega
    exact Wrong.step open' wrong
  | zeroEmpty recovers => exact absurd trivial unusable
  | zeroPrefetch recovers => exact absurd trivial unusable
  | normal bitInfo decodes =>
    by_cases uses : call.UsesDecBuf bitInfo
    · have failure := mt (usable_aside uses decodes).mpr unusable
      rw [step_aside open' uses]
      exact @decodeAside_wrong call.resetPlc open' bitInfo uses decodes failure .normal
    · have condition := mt (usable_direct uses decodes).mpr unusable
      have direct : call.handle (.normal bitInfo decodes) =
          call.resetPlc.decodeDirect bitInfo decodes :=
        if_neg (show ¬call.resetPlc.UsesDecBuf bitInfo from uses)
      apply Wrong.step open'
      rw [direct]
      exact @decodeDirect_wrong call.resetPlc bitInfo decodes condition

/-- A call that goes on uses the decoding buffer for the frames that used it before. -/
theorem Ends.extend {next : Call} {frame : JbFrame} (ends : call.Ends frame)
    (h : call.Extends next) : next.Ends frame := by
  cases frame with
  | missing recovers => exact ends
  | zeroEmpty recovers => exact trivial
  | zeroPrefetch recovers => exact trivial
  | normal bitInfo decodes =>
    have later := h.later
    constructor
    · rw [h.size]
      exact ends.1
    · rw [h.required]
      exact Nat.lt_of_le_of_lt (by omega) ends.2

/-- As long as nothing is counted, no more frames use the decoding buffer. -/
theorem Ends.of_extends {next : Call} {frame : JbFrame} (h : call.Extends next)
    (same : next.samplesCount = call.samplesCount) (ends : next.Ends frame) : call.Ends frame := by
  cases frame with
  | missing recovers => exact ends
  | zeroEmpty recovers => exact trivial
  | zeroPrefetch recovers => exact trivial
  | normal bitInfo decodes =>
    constructor
    · rw [← h.size]
      exact ends.1
    · rw [← h.required, ← same]
      exact ends.2

/-- A frame that does not end the loop counts a codec frame, and leaves the decoding buffer. -/
theorem handle_goesOn {frame : JbFrame} (goesOn : ¬call.Ends frame) :
    (call.handle frame).samplesCount = call.samplesCount + call.stream.samplesPerFrame ∧
      (call.handle frame).broken = call.broken ∧
      (call.handle frame).stream.decBufPos = call.stream.decBufPos ∧
      (call.handle frame).stream.decBufCount = call.stream.decBufCount := by
  cases frame with
  | missing recovers =>
    refine ⟨samplesCount_missing call recovers, ?_⟩
    show (call.missing recovers).broken = _ ∧ (call.missing recovers).stream.decBufPos = _ ∧
      (call.missing recovers).stream.decBufCount = _
    unfold Call.missing
    dsimp only
    split
    · split <;> exact ⟨rfl, rfl, rfl⟩
    · exact ⟨rfl, rfl, rfl⟩
  | zeroEmpty recovers => exact absurd trivial goesOn
  | zeroPrefetch recovers => exact absurd trivial goesOn
  | normal bitInfo decodes =>
    have direct : call.handle (.normal bitInfo decodes) =
        call.resetPlc.decodeDirect bitInfo decodes :=
      if_neg (show ¬call.resetPlc.UsesDecBuf bitInfo from goesOn)
    rw [direct]
    refine ⟨samplesCount_decodeDirect call.resetPlc bitInfo decodes, ?_⟩
    unfold Call.decodeDirect
    dsimp only
    split <;> exact ⟨rfl, rfl, rfl⟩

/-- A drained call counts a codec frame with every frame that does not end the loop. -/
theorem step_goesOn (drained : call.Drained) (open' : ¬call.Over) {frame : JbFrame}
    (goesOn : ¬call.Ends frame) :
    (call.step frame).samplesCount = call.samplesCount + call.stream.samplesPerFrame ∧
      (call.step frame).broken = call.broken ∧ (call.step frame).Drained := by
  have left : call.stream.decBufCount ≤ call.stream.decBufPos := drained.resolve_left open'
  have ⟨counted, unbroken, pos, count⟩ := handle_goesOn goesOn
  have nothing : ((call.handle frame).report frame.frameType).copyLeftover =
      (call.handle frame).report frame.frameType := by
    apply if_neg
    rintro ⟨_, more⟩
    have remains : (call.handle frame).stream.decBufPos < (call.handle frame).stream.decBufCount :=
      more
    omega
  have step : call.step frame = (call.handle frame).report frame.frameType := by
    unfold Call.step
    rw [if_neg open']
    dsimp only
    rw [nothing]
    exact ite_self _
  rw [step]
  refine ⟨counted, unbroken, .inr ?_⟩
  show (call.handle frame).stream.decBufCount ≤ (call.handle frame).stream.decBufPos
  omega

/-- Without samples in a codec frame, a frame that does not end the loop changes nothing. -/
theorem step_stalls (drained : call.Drained) (open' : ¬call.Over)
    (empty : call.stream.samplesPerFrame = 0) {frame : JbFrame} (goesOn : ¬call.Ends frame) :
    ¬(call.step frame).Over ∧ (call.step frame).Drained ∧
      (call.step frame).samplesCount = call.samplesCount := by
  have ⟨counted, unbroken, drained⟩ := step_goesOn drained open' goesOn
  rw [empty, Nat.add_zero] at counted
  have required := (extends_step call frame).required
  refine ⟨?_, drained, counted⟩
  rintro (broken | full)
  · exact open' (.inl (unbroken.symm.trans broken))
  · refine open' (.inr ?_)
    rw [← required, ← counted]
    exact full

/-- A sound call that is over has filled its frame. -/
theorem Sound.filled (h : call.Sound) (finished : call.Over) : call.Filled := by
  have counted := h.counted
  have full : call.samplesCount = call.stream.samplesRequired := by
    rcases finished with broken | full
    · exact h.broken broken
    · omega
  refine ⟨?_, ?_, h.frame, h.dec⟩
  · unfold frameSize
    split <;> omega
  · intro i inside
    have ⟨audio, cell⟩ := Option.isSome_iff_exists.mp (h.written i (by omega))
    exact ⟨audio, cell, h.fresh i audio cell⟩

end Call

/-! ## One frame -/

namespace Playback
variable {stream : Playback} {frames : Nat → JbFrame}

theorem begin_sound (ready : stream.Ready) : stream.begin.Sound ∧ stream.begin.Drained := by
  have entered : stream.enter.Sound := ⟨ready, Nat.zero_le _, nofun, nofun, nofun, nofun, nofun⟩
  unfold begin
  split
  · next finished => exact ⟨entered, .inl finished⟩
  · exact entered.copyLeftover

theorem after_succ (stream : Playback) (frames : Nat → JbFrame) (count : Nat) :
    stream.after frames (count + 1) = (stream.after frames count).step (frames count) := by
  unfold after
  rw [List.range_succ, List.map_append, List.foldl_append]
  rfl

theorem enter_extends (stream : Playback) : stream.enter.Extends stream.begin := by
  unfold begin
  split
  · exact Call.Extends.refl _
  · exact Call.extends_copyLeftover _

theorem after_extends (stream : Playback) (frames : Nat → JbFrame) (count more : Nat) :
    (stream.after frames count).Extends (stream.after frames (count + more)) := by
  induction more with
  | zero => exact Call.Extends.refl _
  | succ more ih =>
    rw [← Nat.add_assoc, after_succ]
    exact ih.trans (Call.extends_step _ _)

theorem begin_extends (stream : Playback) (frames : Nat → JbFrame) (count : Nat) :
    stream.begin.Extends (stream.after frames count) := by
  have later := after_extends stream frames 0 count
  rwa [Nat.zero_add] at later

/-- A call that is over stays as it is. -/
theorem after_over {count : Nat} (finished : (stream.after frames count).Over) (more : Nat) :
    stream.after frames (count + more) = stream.after frames count := by
  induction more with
  | zero => rfl
  | succ more ih =>
    rw [← Nat.add_assoc, after_succ, ih]
    exact if_pos finished

/-- All frames that are asked for can be used. -/
def AllUsable (stream : Playback) (frames : Nat → JbFrame) : Prop :=
  ∀ k, (stream.after frames k).Over ∨ (stream.after frames k).Usable (frames k)

theorem meets_iff :
    (∀ count, Run.Meets Call.step (fun call frame => call.Over ∨ call.Usable frame) stream.begin
      ((List.range count).map frames)) ↔ stream.AllUsable frames := by
  have split : ∀ count, Run.Meets Call.step (fun call frame => call.Over ∨ call.Usable frame)
      stream.begin ((List.range (count + 1)).map frames) ↔
      Run.Meets Call.step (fun call frame => call.Over ∨ call.Usable frame) stream.begin
        ((List.range count).map frames) ∧
        ((stream.after frames count).Over ∨ (stream.after frames count).Usable (frames count)) := by
    intro count
    rw [List.range_succ, List.map_append, Run.meets_append]
    exact and_congr_right fun _ => and_iff_left trivial
  constructor
  · intro meets k
    exact ((split k).mp (meets (k + 1))).2
  · intro usable count
    induction count with
    | zero => exact trivial
    | succ count ih => exact (split count).mpr ⟨ih, usable count⟩

/-- As long as the frames can be used, the call is sound. -/
theorem after_sound (ready : stream.Ready) {count : Nat}
    (usable : ∀ k < count, (stream.after frames k).Over ∨
      (stream.after frames k).Usable (frames k)) :
    (stream.after frames count).Sound ∧ (stream.after frames count).Drained := by
  induction count with
  | zero => exact begin_sound ready
  | succ count ih =>
    have ⟨sound, drained⟩ := ih fun k inside => usable k (Nat.lt_succ_of_lt inside)
    rw [after_succ]
    by_cases finished : (stream.after frames count).Over
    · rw [show (stream.after frames count).step (frames count) = stream.after frames count from
        if_pos finished]
      exact ⟨sound, drained⟩
    · have ⟨next, drained, _⟩ := sound.step finished
        ((usable count (Nat.lt_succ_self count)).resolve_left finished)
      exact ⟨next, drained⟩

/-- A call that fills its frame can use all its frames. -/
theorem allUsable_of_filled {count : Nat} (finished : (stream.after frames count).Over)
    (filled : (stream.after frames count).Filled) : stream.AllUsable frames := by
  intro k
  by_contra neither
  have ⟨open', unusable⟩ := not_or.mp neither
  have wrong : (stream.after frames (k + 1)).Wrong := by
    rw [after_succ]
    exact Call.step_wrong open' unusable
  rcases Nat.lt_or_ge k count with inside | beyond
  · obtain ⟨more, rfl⟩ : ∃ more, count = k + 1 + more := ⟨count - (k + 1), by omega⟩
    exact (wrong.extend (after_extends stream frames (k + 1) more)).not_filled filled
  · obtain ⟨more, rfl⟩ : ∃ more, k = count + more := ⟨k - count, by omega⟩
    rw [after_over finished] at open'
    exact open' finished

/-- A call that ends goes forward. -/
theorem progresses_of_over (ready : stream.Ready) {count : Nat}
    (finished : (stream.after frames count).Over) : stream.Progresses frames := by
  by_contra stalls
  have ⟨empty, later⟩ := not_or.mp stalls
  have ⟨open', goesOn⟩ := not_or.mp later
  have stalled : ∀ k, ¬(stream.after frames k).Over ∧ (stream.after frames k).Drained ∧
      (stream.after frames k).samplesCount = stream.begin.samplesCount := by
    intro k
    induction k with
    | zero => exact ⟨open', (begin_sound ready).2, rfl⟩
    | succ k ih =>
      have ⟨unfinished, drained, counted⟩ := ih
      have begun := begin_extends stream frames k
      have perFrame : (stream.after frames k).stream.samplesPerFrame = 0 := by
        rw [begun.perFrame, (enter_extends stream).perFrame]
        exact Nat.eq_zero_of_not_pos empty
      have goes : ¬(stream.after frames k).Ends (frames k) := fun ends =>
        goesOn ⟨k, Call.Ends.of_extends begun counted ends⟩
      have ⟨unfinished, drained, same⟩ := Call.step_stalls drained unfinished perFrame goes
      rw [after_succ]
      exact ⟨unfinished, drained, same.trans counted⟩
  exact (stalled count).1 finished

/-- A call that goes forward, with frames that can be used, ends. -/
theorem over_of_fillable (ready : stream.Ready) (progresses : stream.Progresses frames)
    (usable : stream.AllUsable frames) : ∃ count, (stream.after frames count).Over := by
  have sound : ∀ k, (stream.after frames k).Sound := fun k =>
    (after_sound ready fun j _ => usable j).1
  have stepped : ∀ k, ¬(stream.after frames k).Over →
      ((stream.after frames (k + 1)).Over ∨
        (stream.after frames k).samplesCount + stream.samplesPerFrame ≤
          (stream.after frames (k + 1)).samplesCount) ∧
      ((stream.after frames k).Ends (frames k) → (stream.after frames (k + 1)).Over) := by
    intro k open'
    have perFrame : (stream.after frames k).stream.samplesPerFrame = stream.samplesPerFrame :=
      (begin_extends stream frames k).perFrame.trans (enter_extends stream).perFrame
    have ⟨_, _, forward, ends⟩ := (sound k).step open' ((usable k).resolve_left open')
    rw [after_succ, ← perFrame]
    exact ⟨forward, ends⟩
  rcases progresses with positive | finished | ⟨k, ends⟩
  · by_contra never
    have counts : ∀ k, k ≤ (stream.after frames k).samplesCount := by
      intro k
      induction k with
      | zero => exact Nat.zero_le _
      | succ k ih =>
        have open' : ¬(stream.after frames (k + 1)).Over := fun finished => never ⟨k + 1, finished⟩
        have forward := (stepped k fun finished => never ⟨k, finished⟩).1.resolve_left open'
        omega
    have required := (begin_extends stream frames stream.samplesRequired).required.trans
      (enter_extends stream).required
    refine never ⟨stream.samplesRequired, .inr ?_⟩
    rw [required]
    exact counts _
  · exact ⟨0, finished⟩
  · by_cases finished : (stream.after frames k).Over
    · exact ⟨k, finished⟩
    · exact ⟨k + 1, (stepped k finished).2 (ends.extend (begin_extends stream frames k))⟩

/-- A call fills its frame if and only if it goes forward, with frames that can be used. -/
theorem fills_iff (ready : stream.Ready) : stream.Fills frames ↔ stream.Fillable frames := by
  unfold Fills Fillable
  rw [meets_iff]
  refine and_congr_right fun _ => ?_
  constructor
  · rintro ⟨count, finished, filled⟩
    exact ⟨progresses_of_over ready finished, allUsable_of_filled finished filled⟩
  · rintro ⟨progresses, usable⟩
    have ⟨count, finished⟩ := over_of_fillable ready progresses usable
    exact ⟨count, finished, (after_sound ready fun k _ => usable k).1.filled finished⟩

end Playback

/-! ## All frames -/

/-- A call of `get_frame`: whether the channel is paused, the frame time of the decoder at that
time, and the frames of the jitter buffer. -/
structure Request where
  paused : Bool
  decPtime : Nat
  frames : Nat → JbFrame

namespace Playback

/-- The stream when it is asked for a frame. -/
def ask (stream : Playback) (request : Request) : Playback :=
  { stream with paused := request.paused, decPtime := request.decPtime }

/-- The stream that a call leaves. -/
def Leaves (stream : Playback) (frames : Nat → JbFrame) (next : Playback) : Prop :=
  ∃ count, (stream.after frames count).Over ∧ (stream.after frames count).stream = next

/-- Every call of a run meets a condition. -/
def Each (condition : Playback → (Nat → JbFrame) → Prop) : Playback → List Request → Prop
  | _, [] => True
  | stream, request :: rest =>
    condition (stream.ask request) request.frames ∧
      ∀ next, (stream.ask request).Leaves request.frames next → Each condition next rest

/-- `MAX_PLC_MSEC`. -/
def maxPlcMsec : Nat := 240

/-- The part of `pjmedia_stream_create` for the playback; Opus has a decoding buffer. -/
def create (samplesRequired frmPtime clockRate channelCnt : Nat) (plc opus : Bool) : Playback where
  paused := false
  samplesRequired := samplesRequired
  decPtime := frmPtime
  clockRate := clockRate
  channelCnt := channelCnt
  plc := plc
  plcCnt := (maxPlcMsec + frmPtime - 1) / frmPtime
  maxPlcCnt := (maxPlcMsec + frmPtime - 1) / frmPtime
  decBufSize := if opus then some (u32 (clockRate * 120 : Nat) / 1000) else none
  decBufPos := 0
  decBufCount := 0
  decCells _ := .stale
  jbLastFrm := .normal
  jbLastFrmCnt := 0

/-- A call with usable frames leaves a stream that is ready. -/
theorem ready_of_leaves {stream next : Playback} {frames : Nat → JbFrame} (ready : stream.Ready)
    (usable : stream.AllUsable frames) (leaves : stream.Leaves frames next) : next.Ready := by
  obtain ⟨count, _, rfl⟩ := leaves
  exact (after_sound ready fun k _ => usable k).1.ready

theorem each_iff {stream : Playback} (ready : stream.Ready) (requests : List Request) :
    Each Fills stream requests ↔ Each Fillable stream requests := by
  induction requests generalizing stream with
  | nil => exact Iff.rfl
  | cons request rest ih =>
    have asked : (stream.ask request).Ready := ⟨ready.count, ready.pos, ready.fresh⟩
    have first := @fills_iff (stream.ask request) request.frames asked
    refine (and_congr_left fun _ => first).trans (and_congr_right fun fillable => ?_)
    have usable := meets_iff.mp fillable.2.2
    exact forall_congr' fun next => imp_congr_right fun leaves =>
      ih (ready_of_leaves asked usable leaves)

end Playback

end Pjmedia.Stream
