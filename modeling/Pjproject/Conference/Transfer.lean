import Pjproject.Conference.Port

/-!
# Reading from and writing to a port

`read_port` and `write_port` of `conference.c`, as far as they store in the port buffers. The
samples are left out; a store is where it ends in the buffer. Sample counts that the source
computes in floating point are rounded exactly.
-/

namespace Pjmedia.Conference

open Pj

/-- What a call does to a port buffer: where its stores end, and the port it leaves. -/
structure Transfer where
  ends : List Nat
  port : ConfPort

/-- `(unsigned)(count * 1.0 * clockRate / confRate + 0.5)`. -/
def resampled (count clockRate confRate : Nat) : Nat :=
  (2 * count * clockRate + confRate) / (2 * confRate)

/-- Where the stores of `pjmedia_convert_channel_1ton` end. It goes down from the product of its
arguments, which wraps; if that is no multiple of the channels it passes zero, and goes on from
the top of the index range. -/
def end1toN (channelCount samplesPerFrame : Nat) : Nat :=
  if channelCount ∣ u32 (samplesPerFrame * channelCount) then u32 (samplesPerFrame * channelCount)
  else 2 ^ 32

/-- Where the stores of `pjmedia_convert_channel_nto1` end. Its index goes up by the channels, and
never gets to the end of a frame whose last index wraps. -/
def endNto1 (channelCount samplesPerFrame : Nat) : Nat :=
  let steps := (samplesPerFrame + channelCount - 1) / channelCount
  if steps * channelCount < 2 ^ 32 then steps else 2 ^ 32

/-- The samples that a frame has in another number of channels. -/
def convertedCount (channelCount toCount samplesPerFrame : Nat) : Nat :=
  if channelCount = toCount then samplesPerFrame
  else if channelCount = 1 then u32 (samplesPerFrame * toCount)
  else samplesPerFrame / channelCount

/-- Where the stores of a frame end that is converted to another number of channels in place. -/
def convertedEnd (channelCount toCount samplesPerFrame : Nat) : Nat :=
  if channelCount = toCount then samplesPerFrame
  else if channelCount = 1 then max samplesPerFrame (end1toN toCount samplesPerFrame)
  else max samplesPerFrame (endNto1 channelCount samplesPerFrame)

/-- `samples_req` of `read_port`. -/
def samplesReq (conf : Settings) (port : ConfPort) : Nat :=
  resampled conf.samplesPerFrame port.clockRate conf.clockRate

/-- The samples that a frame of the port adds to `rx_buf`. -/
def rxAdded (conf : Settings) (port : ConfPort) : Nat :=
  convertedCount port.channelCount conf.channelCount port.samplesPerFrame

/-- The room that a frame of the port takes in `rx_buf`. -/
def rxEnd (conf : Settings) (port : ConfPort) : Nat :=
  convertedEnd port.channelCount conf.channelCount port.samplesPerFrame

/-- The loop of `read_port`, on `rx_buf_count`: where it stores, and the count it leaves. A number
of `get_frame` calls succeed before one fails, which ends the loop. -/
def fillRxBuf (conf : Settings) (port : ConfPort) : Nat → Nat → List Nat × Nat
  | 0, count =>
    if count < samplesReq conf port then ([count + port.samplesPerFrame], count) else ([], count)
  | received + 1, count =>
    if count < samplesReq conf port then
      let rest := fillRxBuf conf port received (u32 (count + rxAdded conf port))
      ((count + rxEnd conf port) :: rest.1, rest.2)
    else ([], count)

/-- `read_port`: the bridge takes its samples if the loop got them. -/
def readPort (conf : Settings) (port : ConfPort) (received : Nat) : Transfer :=
  if port.rxBufCap = 0 then ⟨[], port⟩
  else
    let filled := fillRxBuf conf port received port.rxBufCount
    if filled.2 < samplesReq conf port then ⟨filled.1, { port with rxBufCount := filled.2 }⟩
    else if port.clockRate ≠ conf.clockRate then
      ⟨filled.1, { port with rxBufCount := filled.2 - samplesReq conf port }⟩
    else ⟨filled.1, { port with rxBufCount := filled.2 - conf.samplesPerFrame }⟩

/-- The heart-beat samples of a frame of the bridge. -/
def heartBeat (conf : Settings) (port : ConfPort) : Nat :=
  u32 (u32 (conf.samplesPerFrame * port.clockRate) / conf.clockRate * port.channelCount : Nat) /
    conf.channelCount

/-- `dst_count` of `write_port`, before the channels are adjusted. -/
def txCount (conf : Settings) (port : ConfPort) : Nat :=
  if port.clockRate ≠ conf.clockRate then
    resampled conf.samplesPerFrame port.clockRate conf.clockRate
  else conf.samplesPerFrame

/-- The samples that a frame of the bridge adds to `tx_buf`. -/
def txAdded (conf : Settings) (port : ConfPort) : Nat :=
  convertedCount conf.channelCount port.channelCount (txCount conf port)

/-- The room that a frame of the bridge takes in `tx_buf`. -/
def txEnd (conf : Settings) (port : ConfPort) : Nat :=
  convertedEnd conf.channelCount port.channelCount (txCount conf port)

/-- The last loop of `write_port`, on `tx_buf_count`. A number of `put_frame` calls succeed before
one fails; its frame is taken off the buffer, and the loop ends. -/
def drainTxBuf (samplesPerFrame : Nat) : Nat → Nat → Nat
  | 0, count => if samplesPerFrame ≤ count then count - samplesPerFrame else count
  | sent + 1, count =>
    if samplesPerFrame ≤ count then drainTxBuf samplesPerFrame sent (count - samplesPerFrame)
    else count

/-- `write_port`, to a port that is not the sound device's. -/
def writePort (conf : Settings) (port : ConfPort) (sent : Nat) : Transfer :=
  if port.txSetting = .mute ∨ port.transmitterCnt = 0 then
    ⟨[], { port with
      txBufCount := 0
      txHeartBeat := u32 (port.txHeartBeat + heartBeat conf port) % port.samplesPerFrame }⟩
  else if port.txSetting ≠ .enable then ⟨[], port⟩
  else if differs conf port.clockRate port.samplesPerFrame port.channelCount = false then
    ⟨[], { port with txHeartBeat := 0 }⟩
  else
    ⟨[port.txBufCount + txEnd conf port],
      { port with
        txBufCount := drainTxBuf port.samplesPerFrame sent
          (u32 (port.txBufCount + txAdded conf port))
        txHeartBeat := 0 }⟩

/-- A clock tick at a port: the `get_frame` calls that succeed, if somebody listens to the port,
its setting and its transmitters, and the `put_frame` calls that succeed. -/
structure Tick where
  received : Option Nat
  txSetting : PortOp
  transmitterCnt : Int
  sent : Nat

/-- A port, and where the stores of the last tick ended. -/
structure Buffered where
  port : ConfPort
  rxEnds : List Nat
  txEnds : List Nat

/-- The port is read if somebody listens to it. -/
def readTick (conf : Settings) (port : ConfPort) : Option Nat → Transfer
  | some received => readPort conf port received
  | none => ⟨[], port⟩

/-- The port with its setting and its transmitters in a tick. -/
def ConfPort.configure (port : ConfPort) (txSetting : PortOp) (transmitterCnt : Int) : ConfPort :=
  { port with txSetting, transmitterCnt }

/-- One clock tick: the port is read, and then written. -/
def Buffered.next (conf : Settings) (state : Buffered) (tick : Tick) : Buffered :=
  let read := readTick conf state.port tick.received
  let write := writePort conf (read.port.configure tick.txSetting tick.transmitterCnt) tick.sent
  ⟨write.port, read.ends, write.ends⟩

/-- No store of the last tick ended beyond its buffer. -/
def Buffered.Within (state : Buffered) : Prop :=
  (∀ stored ∈ state.rxEnds, stored ≤ state.port.rxBufCap) ∧
    ∀ stored ∈ state.txEnds, stored ≤ state.port.txBufCap

end Pjmedia.Conference
