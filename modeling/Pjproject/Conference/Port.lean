import Pjproject.Pjlib.Int

/-!
# Ports of the conference bridge

`struct conf_port` of `conference.c` and its creation. TX and RX are seen from the bridge.
The sample buffers are modelled by their capacities and counts; names, levels shown to the
user and the resampling sessions' state are left out.
-/

namespace Pjmedia.Conference

open Pj

/-- `NORMAL_LEVEL`. -/
def normalLevel : Int := 128

/-- `pjmedia_port_op`, as far as a port can be set to it. -/
inductive PortOp where
  | disable
  | mute
  | enable
  deriving DecidableEq, Repr

/-- The audio format of a port, `pjmedia_audio_format_detail`. -/
structure Format where
  clockRate : Nat
  channelCount : Nat
  frameTimeUsec : Nat
  deriving DecidableEq, Repr

/-- The settings of the bridge that its ports depend on. -/
structure Settings where
  clockRate : Nat
  channelCount : Nat
  samplesPerFrame : Nat
  deriving DecidableEq, Repr

/-- `struct conf_port`. The listeners are the first `listener_cnt` entries of
`listener_slots`; `listener_adj_level` is the whole array. Counters that the source only
counts up and down are integers: one below zero is an underflow. -/
structure ConfPort where
  rxSetting : PortOp
  txSetting : PortOp
  listenerSlots : List Nat
  listenerAdjLevel : Nat → Nat
  transmitterCnt : Int
  clockRate : Nat
  samplesPerFrame : Nat
  channelCount : Nat
  rxBufCap : Nat
  rxBufCount : Nat
  txBufCap : Nat
  txBufCount : Nat
  txHeartBeat : Nat

/-- `PJMEDIA_AFD_SPF`. -/
def afdSpf (format : Format) : Nat :=
  u32 (format.frameTimeUsec * format.clockRate * format.channelCount % 2 ^ 64 / 1000000 : Nat)

/-- `pjmedia_resample_create`: it refuses rates and frame sizes of zero. -/
def resampleCreate (rateIn rateOut samplesPerFrame : Nat) : Bool :=
  rateIn ≠ 0 ∧ rateOut ≠ 0 ∧ samplesPerFrame ≠ 0

/-- The two resampling sessions of `create_conf_port`, for different clock rates. -/
def resamples (conf : Settings) (clockRate : Nat) : Bool :=
  clockRate = conf.clockRate ∨
    (conf.clockRate ≠ 0 ∧
      resampleCreate clockRate conf.clockRate
        (u32 (conf.samplesPerFrame * clockRate) / conf.clockRate) ∧
      resampleCreate conf.clockRate clockRate conf.samplesPerFrame)

/-- The frame time in milliseconds. -/
def ptime (samplesPerFrame channelCount clockRate : Nat) : Nat :=
  u32 (samplesPerFrame / channelCount * 1000 : Nat) / clockRate

/-- The frame time that the port buffers are made for: the larger one, and the sum where it is
not a multiple of the smaller one. -/
def buffPtime (portPtime confPtime : Nat) : Nat :=
  if confPtime < portPtime then
    if portPtime % confPtime ≠ 0 then portPtime + confPtime else portPtime
  else
    if confPtime % portPtime ≠ 0 then confPtime + portPtime else confPtime

/-- The capacity of the RX and the TX buffer. -/
def bufCap (conf : Settings) (clockRate samplesPerFrame channelCount : Nat) : Nat :=
  let time := buffPtime (ptime samplesPerFrame channelCount clockRate)
    (ptime conf.samplesPerFrame conf.channelCount conf.clockRate)
  let cap := u32 (clockRate * time) / 1000
  if conf.channelCount < channelCount then u32 (cap * channelCount)
  else u32 (cap * conf.channelCount)

/-- The divisions that `create_conf_port` makes for a port with buffers have divisors other
than zero. -/
def divides (conf : Settings) (clockRate samplesPerFrame channelCount : Nat) : Bool :=
  clockRate ≠ 0 ∧ conf.clockRate ≠ 0 ∧ channelCount ≠ 0 ∧ conf.channelCount ≠ 0 ∧
    (if ptime conf.samplesPerFrame conf.channelCount conf.clockRate <
        ptime samplesPerFrame channelCount clockRate then
      ptime conf.samplesPerFrame conf.channelCount conf.clockRate ≠ 0
    else ptime samplesPerFrame channelCount clockRate ≠ 0)

/-- The port has another format than the bridge. -/
def differs (conf : Settings) (clockRate samplesPerFrame channelCount : Nat) : Bool :=
  clockRate ≠ conf.clockRate ∨ channelCount ≠ conf.channelCount ∨
    samplesPerFrame ≠ conf.samplesPerFrame

/-- A port without listeners, transmitters and buffered samples. -/
def newPort (clockRate samplesPerFrame channelCount cap : Nat) : ConfPort where
  rxSetting := .enable
  txSetting := .enable
  listenerSlots := []
  listenerAdjLevel := fun _ => 0
  transmitterCnt := 0
  clockRate := clockRate
  samplesPerFrame := samplesPerFrame
  channelCount := channelCount
  rxBufCap := cap
  rxBufCount := 0
  txBufCap := cap
  txBufCount := 0
  txHeartBeat := 0

/-- `create_conf_port`, without a format for the sound device's port; `none` is a failed
resampling session, or a division by zero. -/
def createConfPort (conf : Settings) (port : Option Format) : Option ConfPort :=
  let clockRate := (port.map Format.clockRate).getD conf.clockRate
  let samplesPerFrame := (port.map afdSpf).getD conf.samplesPerFrame
  let channelCount := (port.map Format.channelCount).getD conf.channelCount
  if resamples conf clockRate = false then none
  else if differs conf clockRate samplesPerFrame channelCount = false then
    some (newPort clockRate samplesPerFrame channelCount 0)
  else if divides conf clockRate samplesPerFrame channelCount = false then none
  else
    some (newPort clockRate samplesPerFrame channelCount
      (bufCap conf clockRate samplesPerFrame channelCount))

end Pjmedia.Conference
