import Pjproject.Wsola.Session
import Pjproject.Lib.Run

/-!
# The length of the overlap-add buffer

With concealment enabled the buffer always holds the history and the extra samples, and at
most five of its six frames between two calls. An expansion stops within one search distance
of the samples it needs, which is the sixth frame, so that it never runs out of room.
-/

namespace Pjmedia.Wsola

open Pj Memory Circbuf

/-- The sizes of a session with concealment. -/
structure Sized (setting : Setting) : Prop where
  frame : 2 ≤ setting.samplesPerFrame
  bufSize : setting.bufSize = 6 * setting.samplesPerFrame
  small : setting.bufSize < 2 ^ 16
  hist : setting.histSize = 3 * setting.samplesPerFrame / 2
  hanning : setting.hanningSize ≤ setting.samplesPerFrame
  templ : setting.templSize ≤ setting.hanningSize
  extra : setting.minExtra = setting.hanningSize
  minDist : setting.expandSrMinDist = setting.samplesPerFrame / 2
  maxDist : setting.expandSrMaxDist = 3 * setting.samplesPerFrame / 2

/-- What the calls keep; after a generated frame there are `min_extra` samples more. -/
structure Inv (wsola : Wsola) (generated : Bool) : Prop where
  sized : Sized wsola.toSetting
  buf : Circbuf.Wf wsola.buf
  slots : wsola.buf.capacity = wsola.bufSize
  low : wsola.histSize + wsola.minExtra ≤ wsola.buf.len
  high : wsola.buf.len ≤ 5 * wsola.samplesPerFrame
  extra : generated = true → wsola.histSize + 2 * wsola.minExtra ≤ wsola.buf.len

/-- A session whose samples may have changed, but neither its constants nor its lengths. -/
structure SameShape (before after : Wsola) : Prop where
  setting : after.toSetting = before.toSetting
  capacity : after.buf.capacity = before.buf.capacity
  start : after.buf.start = before.buf.start
  len : after.buf.len = before.buf.len

theorem SameShape.refl (wsola : Wsola) : SameShape wsola wsola := ⟨rfl, rfl, rfl, rfl⟩

theorem SameShape.trans {first second third : Wsola} (h : SameShape first second)
    (h' : SameShape second third) : SameShape first third :=
  ⟨h'.setting.trans h.setting, h'.capacity.trans h.capacity, h'.start.trans h.start,
    h'.len.trans h.len⟩

/-- A pitch search is any function that returns a position in its half-open range. -/
def InRange (findPitch : FindPitch) : Prop :=
  ∀ buf frm first last templateCnt, first < last →
    first ≤ findPitch buf frm first last templateCnt ∧
      findPitch buf frm first last templateCnt < last

variable {wsola : Wsola}

/-- Creation with concealment sets the sizes. -/
theorem create_inv {clockRate samplesPerFrame channelCount : Nat} {options : Options}
    (created : create clockRate samplesPerFrame channelCount options = some wsola)
    (plc : options.noPlc = false) (frame : 2 ≤ samplesPerFrame)
    (fits : 6 * samplesPerFrame < 2 ^ 16) : Inv wsola false := by
  unfold create at created
  rw [plc] at created
  by_cases zero : clockRate = 0 ∨ samplesPerFrame = 0
  · simp only [if_pos zero, reduceCtorEq] at created
  by_cases fast : 65535 < clockRate
  · simp only [if_neg zero, if_pos fast, reduceCtorEq] at created
  by_cases long : clockRate ≤ samplesPerFrame
  · simp only [if_neg zero, if_neg fast, if_pos long, reduceCtorEq] at created
  by_cases mute : channelCount = 0
  · simp only [if_neg zero, if_neg fast, if_neg long, if_pos mute, reduceCtorEq] at created
  simp only [if_neg zero, if_neg fast, if_neg long, if_neg mute, Option.some.injEq,
    Bool.false_eq_true, if_false] at created
  have spf : u16 samplesPerFrame = samplesPerFrame := u16_natCast (by omega)
  have hist : u16 ((3 * samplesPerFrame / 2 : Nat) : Int) = 3 * samplesPerFrame / 2 :=
    u16_natCast (by omega)
  have half : u16 ((samplesPerFrame / 2 : Nat) : Int) = samplesPerFrame / 2 :=
    u16_natCast (by omega)
  have size : u16 (u32 (samplesPerFrame * 6)) = 6 * samplesPerFrame := by
    have product : u32 (samplesPerFrame * 6) = samplesPerFrame * 6 := by
      rw [u32_eq]
      omega
    rw [product, u16_natCast (by omega)]
    omega
  rw [spf, hist, half, size] at created
  subst created
  generalize u16 ((u32 (5 * clockRate * channelCount) / 1000 : Nat) : Int) = window
  have capped : (if samplesPerFrame < window then samplesPerFrame else window) ≤
      samplesPerFrame := by
    split <;> omega
  refine ⟨⟨frame, rfl, fits, rfl, capped, le_refl _, rfl, rfl, rfl⟩, ⟨?_, ?_, ?_⟩, rfl, ?_, ?_,
    nofun⟩
  · show 0 < 6 * samplesPerFrame
    omega
  · show 3 * samplesPerFrame / 2 + _ ≤ 6 * samplesPerFrame
    omega
  · show 6 * samplesPerFrame < 2 ^ 32
    omega
  · exact le_refl _
  · show 3 * samplesPerFrame / 2 + _ ≤ 5 * samplesPerFrame
    omega

/-- Fading changes samples only. -/
theorem wsolaFadeOut_shape (wsola : Wsola) (first count : Nat) :
    SameShape wsola (wsolaFadeOut wsola first count) := ⟨rfl, rfl, rfl, rfl⟩

theorem fadeTail_shape (wsola : Wsola) (count : Nat) : SameShape wsola (fadeTail wsola count) := by
  unfold fadeTail
  dsimp only
  split
  · exact wsolaFadeOut_shape ..
  · split
    · exact wsolaFadeOut_shape ..
    · exact (wsolaFadeOut_shape ..).trans (wsolaFadeOut_shape ..)

@[simp] theorem length_fadeIn (buf : List Sample) (fadeInPos fadeCnt : Int) :
    (fadeIn buf fadeInPos fadeCnt).length = buf.length := by
  unfold fadeIn
  simp only [List.length_append, List.length_mapIdx, List.length_take, List.length_drop]
  omega

/-- The session left by the loop of `expand`. -/
structure Expanded (before : Wsola) (expansion : Expansion) (low high : Nat) : Prop where
  exit : expansion.exit = .done
  setting : expansion.wsola.toSetting = before.toSetting
  capacity : expansion.wsola.buf.capacity = before.buf.capacity
  start : expansion.wsola.buf.start = before.buf.start
  low : low ≤ expansion.wsola.buf.len
  high : expansion.wsola.buf.len < high
  inside : ∀ search ∈ expansion.searches, search.Inside

variable {findPitch : FindPitch}

/-- Each pass of the loop searches inside the buffered samples and adds what it matched, until
the samples suffice. They exceed what is needed by less than the longest distance. -/
theorem expandLoop_spec (range : InRange findPitch) {needed low : Nat} (short : needed ≤ low)
    (fuel : Nat) : ∀ (wsola : Wsola) (reg1Len generated : Nat),
      Sized wsola.toSetting → wsola.buf.len = reg1Len →
      wsola.histSize + wsola.minExtra ≤ reg1Len → reg1Len + needed = low + generated →
      generated < needed → needed ≤ fuel + generated →
      low ≤ wsola.histSize + wsola.samplesPerFrame + 2 * wsola.minExtra →
      Expanded wsola (expandLoop findPitch needed fuel wsola 0 reg1Len generated) low
        (low + wsola.histSize) := by
  induction fuel with
  | zero =>
    intro wsola reg1Len generated _ _ _ _ hneeded hfuel
    omega
  | succ fuel ih =>
    intro wsola reg1Len generated sized hlen hlow hsum hneeded hfuel hbound
    have ⟨frame, bufSize, small, hist, hanning, templ, extra, minDist, maxDist⟩ := id sized
    have inside : Search.Inside ⟨((0 : Nat) : Int) + reg1Len - wsola.hanningSize,
        ((0 : Nat) : Int) + reg1Len - wsola.hanningSize - wsola.expandSrMaxDist,
        ((0 : Nat) : Int) + reg1Len - wsola.hanningSize - wsola.expandSrMinDist,
        wsola.templSize, 0, reg1Len⟩ := by
      unfold Search.Inside
      simp only
      omega
    have ⟨after, before⟩ := range wsola.buf.buf
      (((0 : Nat) : Int) + reg1Len - wsola.hanningSize) _ _ wsola.templSize inside.1
    rw [expandLoop]
    simp only at inside after before ⊢
    generalize findPitch wsola.buf.buf _ _ _ _ = start at after before ⊢
    obtain ⟨dist, hdist⟩ : ∃ dist : Nat,
        ((0 : Nat) : Int) + reg1Len - wsola.hanningSize - start = dist :=
      ⟨_, (Int.toNat_of_nonneg (by omega)).symm⟩
    have counted : u32 (dist : Int) = dist := u32_natCast (by omega)
    have longer : u32 ((reg1Len : Int) + dist) = reg1Len + dist := u32_add (by omega)
    have total : u32 ((generated : Int) + dist) = generated + dist := u32_add (by omega)
    rw [hdist, counted, longer, total, if_neg (by omega)]
    let next := repeatPitch wsola (((0 : Nat) : Int) + reg1Len - wsola.hanningSize) start dist
      (reg1Len + dist)
    by_cases enough : needed ≤ generated + dist
    · rw [if_pos enough]
      have len : next.buf.len = reg1Len + dist := rfl
      refine ⟨rfl, rfl, rfl, rfl, ?_, ?_, ?_⟩
      · show low ≤ reg1Len + dist
        omega
      · show reg1Len + dist < low + wsola.histSize
        omega
      · intro search member
        rw [List.mem_singleton.mp member]
        exact inside
    · rw [if_neg enough]
      have rest := ih next (reg1Len + dist) (generated + dist) sized rfl
        (by show wsola.histSize + wsola.minExtra ≤ reg1Len + dist; omega) (by omega) (by omega)
        (by omega) hbound
      refine ⟨rest.exit, rest.setting, rest.capacity, rest.start, rest.low, rest.high, ?_⟩
      intro search member
      rcases List.mem_cons.mp member with this | later
      · rw [this]
        exact inside
      · exact rest.inside search later

variable {generated : Bool}

/-- An expansion packs the buffer and ends with the samples needed. -/
theorem expand_spec (range : InRange findPitch) (inv : Inv wsola generated) {needed : Nat}
    (positive : 0 < needed)
    (sum : wsola.buf.len + needed = wsola.histSize + wsola.samplesPerFrame + 2 * wsola.minExtra) :
    let expansion := expand findPitch wsola needed
    Expanded { wsola with buf := (packBuffer wsola.buf).2 } expansion
        (wsola.buf.len + needed) (wsola.buf.len + needed + wsola.histSize) ∧
      Circbuf.Wf expansion.wsola.buf ∧ expansion.wsola.buf.capacity = wsola.bufSize := by
  have ⟨frame, bufSize, small, hist, hanning, templ, extra, minDist, maxDist⟩ := inv.sized
  have slots := inv.slots
  have low := inv.low
  have high := inv.high
  have packs : (packBuffer wsola.buf).1 = .success := by
    cases status : (packBuffer wsola.buf).1 with
    | success => rfl
    | etoobig =>
      have full := ((packBuffer_etoobig_iff inv.buf).mp status).1
      omega
  have ⟨start, _, capacity, len, wf⟩ := packBuffer_success inv.buf (by omega) packs
  have regions : getReadRegions (packBuffer wsola.buf).2 =
      ⟨0, wsola.buf.len, none, 0⟩ := by
    unfold getReadRegions
    rw [start, len, capacity, if_neg (by omega)]
  have expanded := expandLoop_spec range (show needed ≤ wsola.buf.len + needed by omega)
    (needed + 1) { wsola with buf := (packBuffer wsola.buf).2 } wsola.buf.len 0 inv.sized len low
    rfl positive (by omega) (le_of_eq sum)
  intro expansion
  have same : expansion = expandLoop findPitch needed (needed + 1)
      { wsola with buf := (packBuffer wsola.buf).2 } 0 wsola.buf.len 0 := by
    show expand findPitch wsola needed = _
    unfold expand
    simp only [regions]
  rw [← same] at expanded
  have room : expansion.wsola.buf.len < wsola.buf.len + needed + wsola.histSize := expanded.high
  have edge := expanded.start
  have size := expanded.capacity
  simp only [start, capacity, slots] at edge size
  exact ⟨expanded, ⟨by omega, by omega, by omega⟩, size⟩

/-- A call that does what it should: it succeeds, its expansion ends with enough samples, and
every pitch search it makes stays inside the buffered samples. -/
structure Sound (outcome : Outcome) : Prop where
  status : outcome.status = .success
  exit : outcome.exit = .done
  inside : ∀ search ∈ outcome.searches, search.Inside

/-- Taking a frame from the front of a long enough buffer. -/
theorem takeFrame_spec (sized : Sized wsola.toSetting) (buf : Circbuf.Wf wsola.buf)
    (slots : wsola.buf.capacity = wsola.bufSize)
    (low : wsola.histSize + wsola.minExtra + wsola.samplesPerFrame ≤ wsola.buf.len)
    (extra : generated = true →
      wsola.histSize + 2 * wsola.minExtra + wsola.samplesPerFrame ≤ wsola.buf.len) :
    (copy wsola.buf wsola.histSize wsola.samplesPerFrame).1 = .success ∧
      ∀ fadeOutPos, Inv { wsola with
        buf := advReadPtr wsola.buf wsola.samplesPerFrame, fadeOutPos } generated := by
  have ⟨frame, bufSize, small, hist, hanning, templ, minExtra, minDist, maxDist⟩ := id sized
  have bounded := buf.bounded
  have copied := copy_eq buf (show wsola.histSize + wsola.samplesPerFrame ≤ wsola.buf.len by omega)
    (by omega)
  have left : (advReadPtr wsola.buf wsola.samplesPerFrame).len =
      wsola.buf.len - wsola.samplesPerFrame := by
    rw [advReadPtr_some buf (by omega)]
  refine ⟨by rw [copied], fun _ => ⟨sized, wf_advReadPtr buf _, ?_, ?_, ?_, ?_⟩⟩
  · exact (capacity_advReadPtr _ _).trans slots
  · rw [left]
    show wsola.histSize + wsola.minExtra ≤ _
    omega
  · rw [left]
    show _ ≤ 5 * wsola.samplesPerFrame
    omega
  · intro h
    have enough := extra h
    rw [left]
    show wsola.histSize + 2 * wsola.minExtra ≤ _
    omega

/-- Generating a frame. -/
theorem generate_spec (range : InRange findPitch) (inv : Inv wsola generated) :
    Sound (generate findPitch wsola) ∧ Inv (generate findPitch wsola).wsola true ∧
      (generate findPitch wsola).wsola.toSetting = wsola.toSetting := by
  have ⟨frame, bufSize, small, hist, hanning, templ, minExtra, minDist, maxDist⟩ := inv.sized
  have low := inv.low
  have high := inv.high
  have samplesLen : u32 ((wsola.buf.len : Int) - wsola.histSize) =
      wsola.buf.len - wsola.histSize := u32_sub (by omega) (by omega)
  obtain ⟨expansion, hexpansion⟩ : ∃ expansion : Expansion, expansion =
      if wsola.buf.len - wsola.histSize < wsola.samplesPerFrame + 2 * wsola.minExtra then
        expand findPitch wsola
          (wsola.samplesPerFrame + 2 * wsola.minExtra - (wsola.buf.len - wsola.histSize))
      else ⟨wsola, .done, []⟩ := ⟨_, rfl⟩
  have expanded : expansion.exit = .done ∧ expansion.wsola.toSetting = wsola.toSetting ∧
      Circbuf.Wf expansion.wsola.buf ∧ expansion.wsola.buf.capacity = wsola.bufSize ∧
      wsola.histSize + 2 * wsola.minExtra + wsola.samplesPerFrame ≤ expansion.wsola.buf.len ∧
      ∀ search ∈ expansion.searches, search.Inside := by
    by_cases short : wsola.buf.len - wsola.histSize < wsola.samplesPerFrame + 2 * wsola.minExtra
    · rw [if_pos short] at hexpansion
      have ⟨spec, wf, capacity⟩ := expand_spec range inv
        (show 0 < wsola.samplesPerFrame + 2 * wsola.minExtra - (wsola.buf.len - wsola.histSize)
          by omega) (by omega)
      rw [← hexpansion] at spec wf capacity
      have enough := spec.low
      exact ⟨spec.exit, spec.setting, wf, capacity, by omega, spec.inside⟩
    · rw [if_neg short] at hexpansion
      have enough : wsola.histSize + 2 * wsola.minExtra + wsola.samplesPerFrame ≤
          wsola.buf.len := by omega
      rw [hexpansion]
      exact ⟨rfl, rfl, inv.buf, inv.slots, enough, nofun⟩
  have ⟨exit, setting, wf, capacity, enough, inside⟩ := expanded
  have sized := inv.sized
  rw [← setting] at sized
  have bufSize' : expansion.wsola.bufSize = wsola.bufSize := congrArg Setting.bufSize setting
  have hist' : expansion.wsola.histSize = wsola.histSize := congrArg Setting.histSize setting
  have extra' : expansion.wsola.minExtra = wsola.minExtra := congrArg Setting.minExtra setting
  have frame' : expansion.wsola.samplesPerFrame = wsola.samplesPerFrame :=
    congrArg Setting.samplesPerFrame setting
  have ⟨copied, after⟩ := @takeFrame_spec expansion.wsola true sized wf (by omega) (by omega)
    (fun _ => by omega)
  unfold generate
  simp only [samplesLen, ← hexpansion, ne_eq, copied, not_true_eq_false, if_false]
  exact ⟨⟨rfl, exit, inside⟩, after _, setting⟩

/-- After a loss the buffer is trimmed to twice the extra samples. -/
theorem trimExcess_spec (inv : Inv wsola true) :
    (trimExcess wsola).toSetting = wsola.toSetting ∧
      (trimExcess wsola).buf.capacity = wsola.buf.capacity ∧
      (trimExcess wsola).buf.start = wsola.buf.start ∧
      (trimExcess wsola).buf.len = wsola.histSize + 2 * wsola.minExtra := by
  have ⟨frame, bufSize, small, hist, hanning, templ, minExtra, minDist, maxDist⟩ := inv.sized
  have high := inv.high
  have extra := inv.extra rfl
  have signed : i32 wsola.buf.len = wsola.buf.len := i32_natCast (by omega)
  unfold trimExcess
  dsimp only
  split
  · exact ⟨rfl, rfl, rfl, rfl⟩
  · exact ⟨rfl, rfl, rfl, by omega⟩

/-- The frame after a loss keeps its length, and the buffer is cut to the history and the
extra samples. -/
theorem saveAfterLoss_spec (inv : Inv wsola true) {frm : List Sample}
    (whole : frm.length = wsola.samplesPerFrame) :
    (saveAfterLoss wsola frm).1.length = wsola.samplesPerFrame ∧
      (saveAfterLoss wsola frm).2.toSetting = wsola.toSetting ∧
      (saveAfterLoss wsola frm).2.buf.capacity = wsola.buf.capacity ∧
      (saveAfterLoss wsola frm).2.buf.start = wsola.buf.start ∧
      (saveAfterLoss wsola frm).2.buf.len = wsola.histSize + wsola.minExtra := by
  have ⟨frame, bufSize, small, hist, hanning, templ, minExtra, minDist, maxDist⟩ := inv.sized
  have ⟨setting, capacity, start, len⟩ := trimExcess_spec inv
  obtain ⟨faded, hfaded⟩ : ∃ faded : Wsola, faded =
      if (trimExcess wsola).options.noFading then trimExcess wsola
      else fadeTail (trimExcess wsola) (2 * (trimExcess wsola).minExtra) := ⟨_, rfl⟩
  have shape : SameShape (trimExcess wsola) faded := by
    rw [hfaded]
    split
    · exact .refl _
    · exact fadeTail_shape ..
  have extra : faded.minExtra = wsola.minExtra :=
    congrArg Setting.minExtra (shape.setting.trans setting)
  have cut : u32 (((trimExcess wsola).buf.len : Int) - faded.minExtra) =
      wsola.histSize + wsola.minExtra := by
    rw [len, extra, u32_sub (by omega) (by omega)]
    omega
  unfold saveAfterLoss
  simp only [← hfaded, cut]
  refine ⟨?_, shape.setting.trans setting, shape.capacity.trans capacity,
    shape.start.trans start, rfl⟩
  have merged : ∀ l r, (overlappAddSimple faded.minExtra l r).length = faded.minExtra := by
    intro l r
    simp [overlappAddSimple]
  rw [List.length_append, merged, List.length_drop, extra]
  split
  · omega
  · rw [fadeInFrame, length_fadeIn]
    omega

section
variable {frm : List Sample} {prevLost : Bool} (inv : Inv wsola generated)
  (whole : frm.length = wsola.samplesPerFrame) (protocol : prevLost = true → generated = true)
include inv whole protocol

/-- Smoothening a frame keeps its length and leaves room for it. -/
theorem smoothen_spec :
    (smoothen wsola frm prevLost).1.length = wsola.samplesPerFrame ∧
      (smoothen wsola frm prevLost).2.toSetting = wsola.toSetting ∧
      (smoothen wsola frm prevLost).2.buf.capacity = wsola.buf.capacity ∧
      (smoothen wsola frm prevLost).2.buf.start = wsola.buf.start ∧
      wsola.histSize + wsola.minExtra ≤ (smoothen wsola frm prevLost).2.buf.len ∧
      (smoothen wsola frm prevLost).2.buf.len ≤ wsola.buf.len := by
  have low := inv.low
  unfold smoothen
  cases prevLost with
  | true =>
    have lost := protocol rfl
    subst lost
    have extra := inv.extra rfl
    have ⟨length, setting, capacity, start, len⟩ := saveAfterLoss_spec inv whole
    rw [if_pos rfl, len]
    exact ⟨length, setting, capacity, start, le_refl _, by omega⟩
  | false =>
    rw [if_neg Bool.false_ne_true]
    split
    · unfold saveFaded
      dsimp only
      have shape : SameShape wsola (if wsola.histSize < wsola.buf.len then
          fadeTail wsola (wsola.buf.len - wsola.histSize) else wsola) := by
        split
        · exact fadeTail_shape ..
        · exact .refl _
      refine ⟨?_, shape.setting, shape.capacity, shape.start, ?_, le_of_eq shape.len⟩
      · rw [fadeInFrame, length_fadeIn, whole]
      · rw [shape.len]
        exact low
    · exact ⟨whole, rfl, rfl, rfl, low, le_refl _⟩

/-- Saving a frame. -/
theorem save_spec :
    Sound (save wsola frm prevLost) ∧ Inv (save wsola frm prevLost).wsola false ∧
      (save wsola frm prevLost).wsola.toSetting = wsola.toSetting := by
  have ⟨frame, bufSize, small, hist, hanning, templ, minExtra, minDist, maxDist⟩ := inv.sized
  have ⟨length, setting, capacity, start, low, high⟩ := smoothen_spec inv whole protocol
  obtain ⟨smooth, hsmooth⟩ : ∃ smooth, smooth = smoothen wsola frm prevLost := ⟨_, rfl⟩
  rw [← hsmooth] at length setting capacity start low high
  have sized := inv.sized
  rw [← setting] at sized
  have frame' : smooth.2.samplesPerFrame = wsola.samplesPerFrame :=
    congrArg Setting.samplesPerFrame setting
  have hist' : smooth.2.histSize = wsola.histSize := congrArg Setting.histSize setting
  have extra' : smooth.2.minExtra = wsola.minExtra := congrArg Setting.minExtra setting
  have bufSize' : smooth.2.bufSize = wsola.bufSize := congrArg Setting.bufSize setting
  have top := inv.high
  have slots := inv.slots
  have inside := inv.buf.inside
  have wf : Circbuf.Wf smooth.2.buf := ⟨by omega, by omega, by omega⟩
  have all : smooth.1.take smooth.2.samplesPerFrame = smooth.1 := by
    rw [frame', ← length, List.take_length]
  have fits : smooth.2.buf.len + smooth.1.length ≤ smooth.2.buf.capacity := by omega
  obtain ⟨buf, hbuf⟩ : ∃ buf, buf = (write smooth.2.buf smooth.1).2 := ⟨_, rfl⟩
  have written : write smooth.2.buf smooth.1 = (.success, buf) := by
    rw [hbuf, write_eq wf fits (by omega)]
  have len : buf.len = smooth.2.buf.len + wsola.samplesPerFrame := by
    rw [hbuf, write_eq wf fits (by omega), ← length]
  have writtenWf : Circbuf.Wf buf := by
    rw [hbuf]
    exact wf_write wf fits (by omega)
  have room : buf.capacity = smooth.2.bufSize := by
    rw [hbuf, capacity_write, capacity, slots, bufSize']
  have ⟨copied, after⟩ := @takeFrame_spec
    { smooth.2 with buf, fadeOutPos := smooth.2.maxExpandCnt } false sized writtenWf room
    (by show smooth.2.histSize + smooth.2.minExtra + smooth.2.samplesPerFrame ≤ buf.len; omega)
    nofun
  unfold save
  simp only [← hsmooth, all, written, copied, ne_eq, not_true_eq_false, if_false]
  exact ⟨⟨rfl, rfl, nofun⟩, after _, setting⟩

end

/-- A call on the session. -/
inductive Op where
  | save (frm : List Sample) (prevLost : Bool)
  | generate
  deriving DecidableEq, Repr

/-- One call. -/
def execute (findPitch : FindPitch) (wsola : Wsola) : Op → Outcome
  | .save frm prevLost => save wsola frm prevLost
  | .generate => generate findPitch wsola

/-- A session, and whether its last call generated a frame. -/
structure Session where
  wsola : Wsola
  generated : Bool

/-- The session after a call. -/
def Session.next (findPitch : FindPitch) (session : Session) (op : Op) : Session :=
  ⟨(execute findPitch session.wsola op).wsola, op == .generate⟩

/-- The protocol of the concealment wrapper: frames are whole, and `prev_lost` is set only
directly after a generated frame. -/
def Protocol (session : Session) : Op → Prop
  | .save frm prevLost =>
    frm.length = session.wsola.samplesPerFrame ∧ (prevLost = true → session.generated = true)
  | .generate => True

instance (session : Session) : (op : Op) → Decidable (Protocol session op)
  | .save frm prevLost => inferInstanceAs (Decidable
      (frm.length = session.wsola.samplesPerFrame ∧
        (prevLost = true → session.generated = true)))
  | .generate => .isTrue trivial

/-- One call of the protocol. -/
theorem execute_spec (range : InRange findPitch) {session : Session}
    (inv : Inv session.wsola session.generated) {op : Op} (met : Protocol session op) :
    Sound (execute findPitch session.wsola op) ∧
      Inv (session.next findPitch op).wsola (session.next findPitch op).generated ∧
      (session.next findPitch op).wsola.toSetting = session.wsola.toSetting := by
  cases op with
  | save frm prevLost => exact save_spec inv met.1 met.2
  | generate => exact generate_spec range inv

/-- The bounds of the claimed length. -/
theorem Inv.bounds (inv : Inv wsola generated) :
    wsola.histSize + wsola.minExtra ≤ wsola.buf.len ∧ wsola.buf.len ≤ wsola.bufSize := by
  have bufSize := inv.sized.bufSize
  have high := inv.high
  exact ⟨inv.low, by omega⟩

end Pjmedia.Wsola
