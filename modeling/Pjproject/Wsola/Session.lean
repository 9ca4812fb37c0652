import Mathlib.Data.Int.Bitwise
import Pjproject.Circbuf.Contents

/-!
# Waveform similarity overlap-add

`pjmedia_wsola` of `wsola.c` in the fixed-point version that `PJ_CONFIG_ANDROID` selects,
with creation, saving and generating. Pointers into the circular buffer are offsets from its
start; those that the source computes by subtraction are integers. The pitch search is a
parameter. The running timestamp and the discard functions are left out.
-/

namespace Pjmedia.Wsola

open Pj Memory Circbuf

/-- `WINDOW_MAX_VAL`; the window has 15 bits. -/
def windowMaxVal : Int := 2 ^ 15 - 1

/-- The creation options, one flag each. -/
structure Options where
  noHanning : Bool
  noPlc : Bool
  noDiscard : Bool
  noFading : Bool
  deriving DecidableEq, Repr

/-- The constants of a session. -/
structure Setting where
  clockRate : Nat
  samplesPerFrame : Nat
  channelCount : Nat
  options : Options
  bufSize : Nat
  hanningSize : Nat
  templSize : Nat
  histSize : Nat
  minExtra : Nat
  maxExpandCnt : Nat
  expandSrMinDist : Nat
  expandSrMaxDist : Nat
  hanning : List Nat

/-- `pjmedia_wsola`. -/
structure Wsola extends Setting where
  buf : CircBuf
  fadeOutPos : Nat

/-- A C assignment of an `int` to a `pj_int16_t`. -/
def toSample (value : Int) : Sample := Int16.ofInt value

/-- `overlapp_add`: the two stretches weighted by the window and its mirror image. -/
def overlappAdd (count : Nat) (l r : List Sample) (w : List Nat) : List Sample :=
  (List.range count).map fun i =>
    toSample (((l.getD i 0).toInt * (w.getD (count - 1 - i) 0) +
      (r.getD i 0).toInt * (w.getD i 0)) >>> 15)

/-- `overlapp_add_simple`. -/
def overlappAddSimple (count : Nat) (l r : List Sample) : List Sample :=
  let step := (windowMaxVal + 1) / count
  (List.range count).map fun i : Nat =>
    let stepdown := windowMaxVal - step * i
    toSample (((l.getD i 0).toInt * stepdown + (r.getD i 0).toInt * (1 - stepdown)) >>> 15)

/-- `create_win`: the linear window of the fixed-point version. -/
def createWin (count : Nat) : List Nat :=
  (List.range count).map fun i => u16 (u32 (i * windowMaxVal) / count)

/-- One fading step `*buf * fade_pos / fade_cnt`. -/
def fadeSample (sample : Sample) (fadePos fadeCnt : Int) : Sample :=
  toSample ((sample.toInt * fadePos).tdiv fadeCnt)

/-- `fade_in`. -/
def fadeIn (buf : List Sample) (fadeInPos fadeCnt : Int) : List Sample :=
  let faded := if fadeCnt - fadeInPos < buf.length then (fadeCnt - fadeInPos).toNat else buf.length
  ((buf.take faded).mapIdx fun i sample => fadeSample sample (fadeInPos + i) fadeCnt) ++
    buf.drop faded

/-- The samples of `wsola_fade_out` and the position it leaves in `fade_out_pos`. -/
def fadeOut (fadeCnt : Int) (fadeOutPos : Nat) (buf : List Sample) : List Sample × Nat :=
  let fadePos := i32 fadeOutPos
  let scaled := fun samples : List Sample =>
    samples.mapIdx fun i sample => fadeSample sample (fadePos - i) fadeCnt
  if fadeOutPos = 0 then (List.replicate buf.length 0, 0)
  else if fadePos < buf.length then
    (scaled (buf.take fadePos.toNat) ++ List.replicate (buf.length - fadePos.toNat) 0, 0)
  else (scaled buf, u32 ((fadeOutPos : Int) - buf.length))

/-- `pjmedia_wsola_create`; `none` is `PJ_EINVAL`. -/
def create (clockRate samplesPerFrame channelCount : Nat) (options : Options) : Option Wsola :=
  if clockRate = 0 ∨ samplesPerFrame = 0 then none
  else if 65535 < clockRate then none
  else if clockRate ≤ samplesPerFrame then none
  else if channelCount = 0 then none
  else
    let maxExpandCnt := u32 (clockRate * 80) / 1000
    let bufSize := u16 (u32 (samplesPerFrame * 6))
    let histSize := u16 (3 * samplesPerFrame / 2 : Nat)
    let templSize := u16 (u32 (5 * clockRate * channelCount) / 1000 : Nat)
    let templSize := if samplesPerFrame < templSize then u16 samplesPerFrame else templSize
    let hanningSize := u16 (u32 (5 * clockRate * channelCount) / 1000 : Nat)
    let hanningSize := if u16 samplesPerFrame < hanningSize then u16 samplesPerFrame else hanningSize
    let minExtra := if options.noPlc then 0 else hanningSize
    some {
      clockRate := u16 clockRate
      samplesPerFrame := u16 samplesPerFrame
      channelCount := u16 channelCount
      options, bufSize, hanningSize, templSize, histSize, minExtra, maxExpandCnt
      expandSrMinDist := if options.noPlc then 0 else u16 (u16 samplesPerFrame / 2 : Nat)
      expandSrMaxDist := if options.noPlc then 0 else u16 (3 * u16 samplesPerFrame / 2 : Nat)
      hanning := if options.noHanning then [] else createWin hanningSize
      buf := setLen (Circbuf.create bufSize) (histSize + minExtra)
      fadeOutPos := maxExpandCnt }

/-- A pitch search: the memory, the template, the bounds of the search and the template's
length give the position of the best match. -/
abbrev FindPitch := (Nat → Sample) → Int → Int → Int → Nat → Int

/-- One call of `find_pitch`, with the samples buffered at that time. -/
structure Search where
  frm : Int
  first : Int
  last : Int
  templateCnt : Nat
  reg1 : Nat
  reg1Len : Nat
  deriving DecidableEq, Repr

/-- The searched positions are there, and the template and the stretch compared to it at
every position lie in the buffered samples. -/
def Search.Inside (search : Search) : Prop :=
  search.first < search.last ∧ (search.reg1 : Int) ≤ search.first ∧
    (search.reg1 : Int) ≤ search.frm ∧
    search.last - 1 + search.templateCnt ≤ search.reg1 + search.reg1Len ∧
    search.frm + search.templateCnt ≤ search.reg1 + search.reg1Len

/-- How the loop of `expand` ends. -/
inductive Exit where
  | done
  | bufferTooSmall
  | outOfFuel
  deriving DecidableEq, Repr

/-- The result of `expand`. -/
structure Expansion where
  wsola : Wsola
  exit : Exit
  searches : List Search

/-- The samples merged at the template. -/
def merge (wsola : Wsola) (templ start : Int) : List Sample :=
  let left := span wsola.buf.buf templ.toNat wsola.hanningSize
  let right := span wsola.buf.buf start.toNat wsola.hanningSize
  if wsola.options.noHanning then overlappAddSimple wsola.hanningSize left right
  else overlappAdd wsola.hanningSize left right wsola.hanning

/-- The buffer after the samples behind `start` were repeated behind the template. -/
def repeatPitch (wsola : Wsola) (templ start : Int) (dist reg1Len : Nat) : Wsola :=
  let mergeBuf := merge wsola templ start
  let buf := moveSamples wsola.buf.buf (templ + wsola.hanningSize).toNat
    (start + wsola.hanningSize).toNat dist
  let buf := storeSamples buf templ.toNat mergeBuf wsola.hanningSize
  { wsola with buf := setLen { wsola.buf with buf } reg1Len }

/-- The loop of `expand`. A pass with a match before its template generates at least one
sample, so that `needed` passes are enough. -/
def expandLoop (findPitch : FindPitch) (needed : Nat) :
    Nat → Wsola → Nat → Nat → Nat → Expansion
  | 0, wsola, _, _, _ => ⟨wsola, .outOfFuel, []⟩
  | fuel + 1, wsola, reg1, reg1Len, generated =>
    let templ : Int := (reg1 : Int) + reg1Len - wsola.hanningSize
    let search : Search := ⟨templ, templ - wsola.expandSrMaxDist, templ - wsola.expandSrMinDist,
      wsola.templSize, reg1, reg1Len⟩
    let start := findPitch wsola.buf.buf search.frm search.first search.last search.templateCnt
    let dist := u32 (templ - start)
    if wsola.bufSize < u32 (reg1Len + dist) then ⟨wsola, .bufferTooSmall, [search]⟩
    else
      let reg1Len := u32 (reg1Len + dist)
      let wsola := repeatPitch wsola templ start dist reg1Len
      let generated := u32 (generated + dist)
      if needed ≤ generated then ⟨wsola, .done, [search]⟩
      else
        let rest := expandLoop findPitch needed fuel wsola reg1 reg1Len generated
        { rest with searches := search :: rest.searches }

/-- `expand`. -/
def expand (findPitch : FindPitch) (wsola : Wsola) (needed : Nat) : Expansion :=
  let wsola := { wsola with buf := (packBuffer wsola.buf).2 }
  let regions := getReadRegions wsola.buf
  expandLoop findPitch needed (needed + 1) wsola regions.reg1 regions.reg1Len 0

/-- `wsola_fade_out` of `count` samples of the buffer from `first` on. -/
def wsolaFadeOut (wsola : Wsola) (first count : Nat) : Wsola :=
  let faded := fadeOut (i32 wsola.maxExpandCnt) wsola.fadeOutPos (span wsola.buf.buf first count)
  { wsola with
    buf := { wsola.buf with buf := store wsola.buf.buf first faded.1 }
    fadeOutPos := faded.2 }

/-- The fade out of the last `count` samples in the two read regions. -/
def fadeTail (wsola : Wsola) (count : Nat) : Wsola :=
  let regions := getReadRegions wsola.buf
  if regions.reg2Len = 0 then
    wsolaFadeOut wsola (regions.reg1 + regions.reg1Len - count) count
  else if count ≤ regions.reg2Len then
    wsolaFadeOut wsola (regions.reg2.getD 0 + regions.reg2Len - count) count
  else
    let tmp := count - regions.reg2Len
    let wsola := wsolaFadeOut wsola (regions.reg1 + regions.reg1Len - tmp) tmp
    wsolaFadeOut wsola (regions.reg2.getD 0) regions.reg2Len

/-- The last `min_extra` samples, which are merged with the frame. -/
def olaLeft (wsola : Wsola) : List Sample :=
  let regions := getReadRegions wsola.buf
  if regions.reg2Len = 0 then
    span wsola.buf.buf (regions.reg1 + regions.reg1Len - wsola.minExtra) wsola.minExtra
  else if wsola.minExtra ≤ regions.reg2Len then
    span wsola.buf.buf (regions.reg2.getD 0 + regions.reg2Len - wsola.minExtra) wsola.minExtra
  else
    let tmp := wsola.minExtra - regions.reg2Len
    loadSamples wsola.buf.buf (regions.reg1 + regions.reg1Len - tmp) tmp ++
      loadSamples wsola.buf.buf (regions.reg2.getD 0) regions.reg2Len

/-- The fade in of a frame, from a position scaled to the last fade out. -/
def fadeInFrame (wsola : Wsola) (frm : List Sample) : List Sample :=
  let count := wsola.minExtra
  let fadeInPos := i32 (u32 (wsola.fadeOutPos * count) / wsola.maxExpandCnt : Nat)
  fadeIn frm fadeInPos count

/-- The trimming of `pjmedia_wsola_save` after a loss. -/
def trimExcess (wsola : Wsola) : Wsola :=
  let twice := 2 * wsola.minExtra
  if (wsola.histSize : Int) + twice < i32 wsola.buf.len then
    { wsola with buf := setLen wsola.buf (wsola.histSize + twice) }
  else wsola

/-- The part of `pjmedia_wsola_save` for a frame after a lost one: the buffer is trimmed, its
end faded out and merged with the frame. -/
def saveAfterLoss (wsola : Wsola) (frm : List Sample) : List Sample × Wsola :=
  let wsola := trimExcess wsola
  let bufLen := wsola.buf.len
  let wsola := if wsola.options.noFading then wsola else fadeTail wsola (2 * wsola.minExtra)
  let left := olaLeft wsola
  let frm := if wsola.options.noFading then frm else fadeInFrame wsola frm
  let merged := overlappAddSimple wsola.minExtra left frm ++ frm.drop wsola.minExtra
  let bufLen := u32 ((bufLen : Int) - wsola.minExtra)
  (merged, { wsola with buf := setLen wsola.buf bufLen })

/-- The part of `pjmedia_wsola_save` for a frame after others that followed a loss: the
synthetic samples still buffered are faded out. -/
def saveFaded (wsola : Wsola) (frm : List Sample) : List Sample × Wsola :=
  let bufLen := wsola.buf.len
  let wsola :=
    if wsola.histSize < bufLen then fadeTail wsola (bufLen - wsola.histSize) else wsola
  (fadeInFrame wsola frm, wsola)

/-- The first part of `pjmedia_wsola_save`. -/
def smoothen (wsola : Wsola) (frm : List Sample) (prevLost : Bool) : List Sample × Wsola :=
  if prevLost then saveAfterLoss wsola frm
  else if wsola.options.noFading = false ∧ wsola.fadeOutPos ≠ wsola.maxExpandCnt then
    saveFaded wsola frm
  else (frm, wsola)

/-- What a call returns: its status, the frame, the session, and for the expansion it made
how that ended and where it searched. -/
structure Outcome where
  status : Status
  frm : List Sample
  wsola : Wsola
  exit : Exit
  searches : List Search

/-- `pjmedia_wsola_save`. -/
def save (wsola : Wsola) (frm : List Sample) (prevLost : Bool) : Outcome :=
  let smooth := smoothen wsola frm prevLost
  let frm := smooth.1
  let wsola := { smooth.2 with fadeOutPos := smooth.2.maxExpandCnt }
  let written := write wsola.buf (frm.take wsola.samplesPerFrame)
  if written.1 ≠ .success then ⟨written.1, frm, wsola, .done, []⟩
  else
    let wsola := { wsola with buf := written.2 }
    let copied := copy wsola.buf wsola.histSize wsola.samplesPerFrame
    if copied.1 ≠ .success then ⟨copied.1, frm, wsola, .done, []⟩
    else
      ⟨.success, copied.2,
        { wsola with buf := advReadPtr wsola.buf wsola.samplesPerFrame }, .done, []⟩

/-- `pjmedia_wsola_generate`. -/
def generate (findPitch : FindPitch) (wsola : Wsola) : Outcome :=
  let samplesLen := u32 ((wsola.buf.len : Int) - wsola.histSize)
  let samplesReq := wsola.samplesPerFrame + 2 * wsola.minExtra
  let expansion : Expansion :=
    if samplesLen < samplesReq then expand findPitch wsola (samplesReq - samplesLen)
    else ⟨wsola, .done, []⟩
  let wsola := expansion.wsola
  let copied := copy wsola.buf wsola.histSize wsola.samplesPerFrame
  if copied.1 ≠ .success then ⟨copied.1, [], wsola, expansion.exit, expansion.searches⟩
  else
    let wsola := { wsola with buf := advReadPtr wsola.buf wsola.samplesPerFrame }
    let faded :=
      if wsola.options.noFading then (copied.2, wsola.fadeOutPos)
      else fadeOut (i32 wsola.maxExpandCnt) wsola.fadeOutPos copied.2
    ⟨.success, faded.1, { wsola with fadeOutPos := faded.2 }, expansion.exit, expansion.searches⟩

end Pjmedia.Wsola
