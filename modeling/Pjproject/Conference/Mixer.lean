import Pjproject.Circbuf.Buffer
import Pjproject.Conference.Graph

/-!
# The mixer of the conference bridge

`get_frame` of `conference.c` and the part of `write_port` that converts the mixed signal. A clock
tick takes a frame from every port that delivers one, adds it to the mix buffers of its listeners,
and hands every port its mixed signal. The levels that are only reported to the user are left out,
and so is `SIMPLE_AGC`, which is compiled to nothing.
-/

namespace Pjmedia.Conference.Mixer
open Pj Circbuf

/-- A frame of the bridge. -/
abbrev Frame (samplesPerFrame : Nat) := Fin samplesPerFrame → Sample

/-- `MAX_LEVEL`. -/
def maxLevel : Int := 32767

/-- `MIN_LEVEL`. -/
def minLevel : Int := -32768

/-- A signal that is too loud is clipped. -/
def clip (itemp : Int) : Int :=
  if maxLevel < itemp then maxLevel else if itemp < minLevel then minLevel else itemp

variable {samplesPerFrame : Nat}

/-- The adjustment of a frame to a level, of a port or of a connection. -/
def adjustFrame (level : Nat) (frame : Frame samplesPerFrame) : Frame samplesPerFrame :=
  if (level : Int) ≠ normalLevel then
    fun k => Int16.ofInt (clip (i32 ((frame k).toInt * level) / 128))
  else frame

/-- `mix_buf` and `mix_adj` of a port. -/
structure Mix (samplesPerFrame : Nat) where
  mixBuf : Fin samplesPerFrame → Int
  mixAdj : Int

/-- `mix_buf_min`, after the loop. -/
def mixBufMin (mixBuf : Fin samplesPerFrame → Int) : Int :=
  (List.finRange samplesPerFrame).foldl
    (fun least k => if mixBuf k < least then mixBuf k else least) 0

/-- `mix_buf_max`, after the loop. -/
def mixBufMax (mixBuf : Fin samplesPerFrame → Int) : Int :=
  (List.finRange samplesPerFrame).foldl
    (fun most k => if most < mixBuf k then mixBuf k else most) 0

/-- Adding a frame to the mix of a port with several transmitters. -/
def mixSamples (mix : Mix samplesPerFrame) (frame : Frame samplesPerFrame) :
    Mix samplesPerFrame :=
  let mixBuf := fun k => i32 (mix.mixBuf k + (frame k).toInt)
  if mixBufMin mixBuf < minLevel ∨ maxLevel < mixBufMax mixBuf then
    let peak :=
      if mixBufMax mixBuf < i32 (-mixBufMin mixBuf) then i32 (-mixBufMin mixBuf)
      else mixBufMax mixBuf
    let tmpAdj := (maxLevel * 128).tdiv peak
    { mixBuf := mixBuf, mixAdj := if tmpAdj < mix.mixAdj then tmpAdj else mix.mixAdj }
  else { mixBuf := mixBuf, mixAdj := mix.mixAdj }

/-- Adding a frame to the mix of a port: with one transmitter the samples are only copied. -/
def addFrame (transmitterCnt : Int) (mix : Mix samplesPerFrame) (frame : Frame samplesPerFrame) :
    Mix samplesPerFrame :=
  if 1 < transmitterCnt then mixSamples mix frame
  else { mix with mixBuf := fun k => (frame k).toInt }

/-- A clock tick of a bridge, with the levels of its ports, the audio frame that every port delivers
in this tick, if any, and what the last tick left in the mix buffers. -/
structure Tick (samplesPerFrame : Nat) where
  conf : Conf
  linked : Linked conf
  rxAdjLevel : Nat → Nat
  txAdjLevel : Nat → Nat
  frames : Nat → Option (Frame samplesPerFrame)
  mixes : Nat → Mix samplesPerFrame

/-- The slots that a loop over the ports visits, up to `port_cnt` of them. -/
def visited (conf : Conf) : List Nat :=
  ((List.range conf.maxPorts).filter fun slot => (conf.ports slot).isSome).take conf.portCnt.toNat

/-- The first loop of `get_frame`, which resets the mixes. -/
def resetMix (conf : Conf) (mixes : Nat → Mix samplesPerFrame) (slot : Nat) :
    Mix samplesPerFrame :=
  if conf.transmitters slot ≠ 0 then { mixBuf := fun _ => 0, mixAdj := normalLevel }
  else { mixes slot with mixAdj := normalLevel }

/-- The frame of a source reaches the listener at an index. Every listener has a port. -/
def addToListener (conf : Conf) (port : ConfPort) (pIn : Frame samplesPerFrame)
    (mixes : Nat → Mix samplesPerFrame) (listener : Nat × Nat) : Nat → Mix samplesPerFrame :=
  match conf.ports listener.1 with
  | none => mixes
  | some sink =>
    if sink.txSetting ≠ .enable then mixes
    else
      let leveled := adjustFrame (port.listenerAdjLevel listener.2) pIn
      Function.update mixes listener.1 (addFrame sink.transmitterCnt (mixes listener.1) leveled)

/-- One round of the second loop of `get_frame`: the frame of a slot goes to all its listeners. -/
def addSource (tick : Tick samplesPerFrame) (mixes : Nat → Mix samplesPerFrame) (slot : Nat) :
    Nat → Mix samplesPerFrame :=
  match tick.conf.ports slot with
  | none => mixes
  | some port =>
    if port.rxSetting = .disable then mixes
    else if port.listenerSlots.length = 0 then mixes
    else
      match tick.frames slot with
      | none => mixes
      | some frame =>
        let pIn := adjustFrame (tick.rxAdjLevel slot) frame
        port.listenerSlots.zipIdx.foldl (addToListener tick.conf port pIn) mixes

/-- The mixes after the second loop of `get_frame`. -/
def mixed (tick : Tick samplesPerFrame) : Nat → Mix samplesPerFrame :=
  (visited tick.conf).foldl (addSource tick) (resetMix tick.conf tick.mixes)

/-- The 16-bit halves of `mix_buf` in memory, the lower half of a word first. -/
def halves (mixBuf : Fin samplesPerFrame → Int) (address : Nat) : Sample :=
  if h : address / 2 < samplesPerFrame then
    if address % 2 = 0 then Int16.ofInt (mixBuf ⟨address / 2, h⟩)
    else Int16.ofInt (mixBuf ⟨address / 2, h⟩ / 2 ^ 16)
  else 0

/-- A 32-bit word of the memory. -/
def loadWord (memory : Nat → Sample) (j : Nat) : Int :=
  (memory (2 * j + 1)).toInt * 2 ^ 16 + (memory (2 * j)).toUInt16.toNat

/-- The conversion of the mixed samples in the mix buffer itself. -/
def convertInPlace (convert : Int → Sample) (count : Nat) (memory : Nat → Sample) :
    Nat → Sample :=
  (List.range count).foldl
    (fun memory j => Function.update memory j (convert (loadWord memory j))) memory

/-- The conversion of a mixed sample at a level. -/
def convertSample (adjLevel itemp : Int) : Sample :=
  if adjLevel ≠ normalLevel then Int16.ofInt (clip (i32 (itemp * adjLevel) / 128))
  else Int16.ofInt itemp

/-- What `write_port` hands to a port. -/
inductive Handed (samplesPerFrame : Nat)
  | null
  | nothing
  | audio (frame : Frame samplesPerFrame)

/-- `write_port`, up to the conversion to the format of the port. -/
def writePort (port : ConfPort) (txAdjLevel : Nat) (mix : Mix samplesPerFrame) :
    Handed samplesPerFrame :=
  if port.txSetting = .mute ∨ port.transmitterCnt = 0 then .null
  else if port.txSetting ≠ .enable then .nothing
  else
    let adjLevel := i32 (txAdjLevel * mix.mixAdj) / 128
    let buf := convertInPlace (convertSample adjLevel) samplesPerFrame (halves mix.mixBuf)
    .audio fun j => buf j

/-- `get_frame`: what the ports are handed in a tick, by their slots. -/
def getFrame (tick : Tick samplesPerFrame) : List (Nat × Handed samplesPerFrame) :=
  (visited tick.conf).filterMap fun slot =>
    (tick.conf.ports slot).map fun port =>
      (slot, writePort port (tick.txAdjLevel slot) (mixed tick slot))

/-! ## Settings -/

/-- `pjmedia_conf_configure_port`, which leaves a setting that is not given. -/
def configurePort (conf : Conf) (slot : Nat) (tx rx : Option PortOp) : Conf :=
  conf.modify slot fun port =>
    { port with txSetting := tx.getD port.txSetting, rxSetting := rx.getD port.rxSetting }

/-- Settings keep the counters and the graph in agreement. -/
theorem linked_configurePort {conf : Conf} (linked : Linked conf) (slot : Nat)
    (tx rx : Option PortOp) : Linked (configurePort conf slot tx rx) := by
  have same : ∀ index, ((configurePort conf slot tx rx).ports index).isSome =
      (conf.ports index).isSome := by
    intro index
    exact isSome_modify conf slot index _
  have listeners : (configurePort conf slot tx rx).listeners = conf.listeners := by
    funext index
    unfold Conf.listeners configurePort
    rw [ports_modify]
    split
    · cases conf.ports index <;> rfl
    · rfl
  constructor
  · intro index occupied
    rw [same] at occupied
    exact linked.inside index occupied
  · rw [occupied_congr same]
    exact linked.portCount
  · rw [listeners]
    exact linked.nodup
  · intro index sink member
    rw [listeners] at member
    rw [same]
    exact linked.named index sink member
  · intro index
    rw [listeners]
    exact (transmitters_modify (by intro port; rfl) slot index).trans (linked.transmitters index)
  · rw [listeners]
    exact linked.connections

end Pjmedia.Conference.Mixer
