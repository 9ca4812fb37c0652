import Pjproject.Conference.Transfer
import Pjproject.Lib.Residue
import Pjproject.Lib.Run

/-!
# The capacity of the port buffers

The samples left in a buffer after many ticks are the residues of the multiples of what a frame
adds, modulo what is taken at a time. The largest of them, and the room of one more frame, decide
whether the buffer is ever overrun.
-/

namespace Pjmedia.Conference

open List Pj

variable {conf : Settings} {port : ConfPort}

/-- The largest rest in a buffer leaves room for a frame. The rest is what is taken at a time, less
its greatest common divisor with what a frame adds. -/
def Fits (cap taken added room : Nat) : Prop :=
  taken + room ≤ cap + Nat.gcd added taken

/-- The RX buffer of a port is not overrun. -/
def RxFits (conf : Settings) (format : Format) : Prop :=
  let cap := bufCap conf format.clockRate (afdSpf format) format.channelCount
  let taken := resampled conf.samplesPerFrame format.clockRate conf.clockRate
  cap = 0 ∨ taken = 0 ∨
    Fits cap taken (convertedCount format.channelCount conf.channelCount (afdSpf format))
      (convertedEnd format.channelCount conf.channelCount (afdSpf format))

/-- `dst_count` of `write_port` for a format, before the channels are adjusted. -/
def formatCount (conf : Settings) (format : Format) : Nat :=
  if format.clockRate ≠ conf.clockRate then
    resampled conf.samplesPerFrame format.clockRate conf.clockRate
  else conf.samplesPerFrame

/-- The TX buffer of a port is not overrun while all frames are sent. -/
def TxFits (conf : Settings) (format : Format) : Prop :=
  Fits (bufCap conf format.clockRate (afdSpf format) format.channelCount) (afdSpf format)
    (convertedCount conf.channelCount format.channelCount (formatCount conf format))
    (convertedEnd conf.channelCount format.channelCount (formatCount conf format))

/-- A frame of the bridge is no longer than one of the port, so that a tick sends one at most. -/
def SendsOne (conf : Settings) (format : Format) : Prop :=
  convertedCount conf.channelCount format.channelCount (formatCount conf format) ≤ afdSpf format

/-- The rest after some frames were added and some rounds taken. -/
def Rest (taken added count : Nat) : Prop :=
  ∃ frames rounds, count + rounds * taken = frames * added

/-- A rest that is less than what is taken is less by the greatest common divisor. -/
theorem Rest.add_gcd_le {taken added count : Nat} (rest : Rest taken added count)
    (less : count < taken) : count + Nat.gcd added taken ≤ taken := by
  have ⟨frames, rounds, balance⟩ := rest
  have residue : frames * added % taken = count := by
    rw [← balance, Nat.add_mul_mod_self_right, Nat.mod_eq_of_lt less]
  have bound := Residue.mul_mod_add_gcd_le frames added (by omega : 0 < taken)
  rwa [residue] at bound

/-- A frame takes at least its own samples' room. -/
theorem le_convertedEnd (channelCount toCount samplesPerFrame : Nat) :
    samplesPerFrame ≤ convertedEnd channelCount toCount samplesPerFrame := by
  unfold convertedEnd
  split
  · exact le_rfl
  · split <;> exact Nat.le_max_left _ _

/-- A frame takes at least the room of what it adds. -/
theorem convertedCount_le (channelCount toCount samplesPerFrame : Nat) :
    convertedCount channelCount toCount samplesPerFrame ≤
      convertedEnd channelCount toCount samplesPerFrame := by
  unfold convertedCount convertedEnd
  split
  · exact le_rfl
  · split
    · refine Nat.le_trans ?_ (Nat.le_max_right _ _)
      unfold end1toN
      split
      · exact le_rfl
      · exact Nat.le_of_lt (u32_lt _)
    · exact Nat.le_trans (Nat.div_le_self _ _) (Nat.le_max_left _ _)

/-- Resampling to the same rate. -/
theorem resampled_self (count : Nat) {clockRate : Nat} (positive : 0 < clockRate) :
    resampled count clockRate clockRate = count := by
  have double : 2 * count * clockRate + clockRate = clockRate + 2 * clockRate * count := by ring
  unfold resampled
  rw [double, Nat.add_mul_div_left _ _ (by omega), Nat.div_eq_of_lt (by omega), Nat.zero_add]

/-- The loop of `read_port` stays in a buffer that fits, and leaves a rest. -/
theorem fillRxBuf_within {cap : Nat} (small : cap < 2 ^ 32)
    (fits : Fits cap (samplesReq conf port) (rxAdded conf port) (rxEnd conf port))
    (received : Nat) {count : Nat} (rest : Rest (samplesReq conf port) (rxAdded conf port) count) :
    (∀ stored ∈ (fillRxBuf conf port received count).1, stored ≤ cap) ∧
      Rest (samplesReq conf port) (rxAdded conf port) (fillRxBuf conf port received count).2 := by
  have own : port.samplesPerFrame ≤ rxEnd conf port := le_convertedEnd _ _ _
  have grows : rxAdded conf port ≤ rxEnd conf port := convertedCount_le _ _ _
  unfold Fits at fits
  induction received generalizing count with
  | zero =>
    unfold fillRxBuf
    split
    · have room := rest.add_gcd_le ‹_›
      refine ⟨?_, rest⟩
      intro stored member
      rw [mem_singleton.mp member]
      omega
    · exact ⟨fun stored member => absurd member not_mem_nil, rest⟩
  | succ received ih =>
    unfold fillRxBuf
    split
    · have room := rest.add_gcd_le ‹_›
      have sum : u32 (count + rxAdded conf port) = count + rxAdded conf port :=
        u32_add (by omega)
      have more : Rest (samplesReq conf port) (rxAdded conf port) (count + rxAdded conf port) := by
        have ⟨frames, rounds, balance⟩ := rest
        refine ⟨frames + 1, rounds, ?_⟩
        rw [Nat.succ_mul, ← balance]
        omega
      have ⟨inside, left⟩ := ih more
      rw [sum]
      refine ⟨?_, left⟩
      intro stored member
      cases mem_cons.mp member with
      | inl first => omega
      | inr later => exact inside stored later
    · exact ⟨fun stored member => absurd member not_mem_nil, rest⟩

/-- The last loop of `write_port` leaves less than a frame if no `put_frame` but the last one of
the tick fails. -/
theorem drainTxBuf_of_sent {samplesPerFrame sent count : Nat}
    (enough : count / samplesPerFrame ≤ sent + 1) (positive : 0 < samplesPerFrame) :
    drainTxBuf samplesPerFrame sent count = count % samplesPerFrame := by
  induction sent generalizing count with
  | zero =>
    unfold drainTxBuf
    split
    · have once : count - samplesPerFrame < samplesPerFrame := by
        have whole := Nat.lt_mul_of_div_lt (Nat.lt_succ_of_le enough) positive
        omega
      rw [Nat.mod_eq_sub_mod ‹_›, Nat.mod_eq_of_lt once]
    · exact (Nat.mod_eq_of_lt (by omega)).symm
  | succ sent ih =>
    unfold drainTxBuf
    split
    · have less := Nat.div_eq_sub_div positive ‹samplesPerFrame ≤ count›
      have fewer : (count - samplesPerFrame) / samplesPerFrame ≤ sent + 1 := by omega
      rw [ih fewer]
      exact (Nat.mod_eq_sub_mod ‹_›).symm
    · exact (Nat.mod_eq_of_lt (by omega)).symm

/-- The port with other buffered samples and settings. -/
def ConfPort.buffer (port : ConfPort) (rx tx beat : Nat) (setting : PortOp)
    (transmitters : Int) : ConfPort :=
  { port with
    rxBufCount := rx
    txBufCount := tx
    txHeartBeat := beat
    txSetting := setting
    transmitterCnt := transmitters }

/-- Where `read_port` stores, and the samples it leaves. -/
def readCount (conf : Settings) (port : ConfPort) (received count : Nat) : List Nat × Nat :=
  let filled := fillRxBuf conf port received count
  (filled.1,
    if filled.2 < samplesReq conf port then filled.2 else filled.2 - samplesReq conf port)

/-- The loop reads the counts it starts from nowhere else. -/
theorem fillRxBuf_buffer (conf : Settings) (port : ConfPort) (rx tx beat : Nat)
    (setting : PortOp) (transmitters : Int) (received count : Nat) :
    fillRxBuf conf (port.buffer rx tx beat setting transmitters) received count =
      fillRxBuf conf port received count := by
  induction received generalizing count with
  | zero => rfl
  | succ received ih =>
    unfold fillRxBuf
    rw [ih]
    rfl

/-- `read_port` changes the samples of the RX buffer only. -/
theorem readPort_buffer (positive : 0 < conf.clockRate) (buffered : port.rxBufCap ≠ 0)
    (rx tx beat : Nat) (setting : PortOp) (transmitters : Int) (received : Nat) :
    readPort conf (port.buffer rx tx beat setting transmitters) received =
      ⟨(readCount conf port received rx).1,
        port.buffer (readCount conf port received rx).2 tx beat setting transmitters⟩ := by
  obtain ⟨changed, hchanged⟩ : ∃ changed, changed =
      port.buffer rx tx beat setting transmitters := ⟨_, rfl⟩
  have fill : fillRxBuf conf changed received changed.rxBufCount =
      fillRxBuf conf port received rx := by
    rw [hchanged]
    exact fillRxBuf_buffer conf port rx tx beat setting transmitters received rx
  have same : samplesReq conf changed = samplesReq conf port := by rw [hchanged]; rfl
  have cap : changed.rxBufCap ≠ 0 := by rw [hchanged]; exact buffered
  have rates : changed.clockRate = port.clockRate := by rw [hchanged]; rfl
  unfold readPort readCount
  rw [← hchanged, if_neg cap]
  dsimp only
  rw [fill, same, rates]
  by_cases short : (fillRxBuf conf port received rx).2 < samplesReq conf port
  · rw [if_pos short, if_pos short, hchanged]
    rfl
  · rw [if_neg short, if_neg short]
    by_cases rate : port.clockRate = conf.clockRate
    · have taken : samplesReq conf port = conf.samplesPerFrame := by
        rw [samplesReq, rate, resampled_self _ positive]
      rw [if_neg (not_not.mpr rate), taken, hchanged]
      rfl
    · rw [if_pos rate, hchanged]
      rfl

/-- `write_port` to a port of another format: it stores nothing, and clears the buffer or leaves it,
or it stores a frame and sends what it can. -/
theorem writePort_buffer
    (different : differs conf port.clockRate port.samplesPerFrame port.channelCount = true)
    (rx tx beat : Nat) (setting : PortOp) (transmitters : Int) (sent : Nat) :
    ∃ left later, (writePort conf (port.buffer rx tx beat setting transmitters) sent).port =
        port.buffer rx left later setting transmitters ∧
      (((writePort conf (port.buffer rx tx beat setting transmitters) sent).ends = [] ∧
          (left = 0 ∨ left = tx)) ∨
        ((writePort conf (port.buffer rx tx beat setting transmitters) sent).ends =
            [tx + txEnd conf port] ∧ setting = .enable ∧ transmitters ≠ 0 ∧
          left = drainTxBuf port.samplesPerFrame sent (u32 (tx + txAdded conf port)))) := by
  obtain ⟨changed, hchanged⟩ : ∃ changed, changed =
      port.buffer rx tx beat setting transmitters := ⟨_, rfl⟩
  have settings : changed.txSetting = setting := by rw [hchanged]; rfl
  have transmit : changed.transmitterCnt = transmitters := by rw [hchanged]; rfl
  have formats : differs conf changed.clockRate changed.samplesPerFrame changed.channelCount =
      true := by
    rw [hchanged]
    exact different
  rw [← hchanged]
  unfold writePort
  rw [settings, transmit]
  by_cases silent : setting = .mute ∨ transmitters = 0
  · rw [if_pos silent, hchanged]
    exact ⟨0, _, rfl, .inl ⟨rfl, .inl rfl⟩⟩
  rw [if_neg silent]
  by_cases off : setting ≠ .enable
  · rw [if_pos off, hchanged]
    exact ⟨tx, _, rfl, .inl ⟨rfl, .inr rfl⟩⟩
  rw [if_neg off, formats, if_neg Bool.noConfusion, hchanged]
  exact ⟨_, _, rfl, .inr ⟨rfl, not_not.mp off, fun none => silent (.inr none), rfl⟩⟩

/-- The loop of `read_port` reads nothing while there are enough samples. -/
theorem fillRxBuf_of_le {count : Nat} (enough : samplesReq conf port ≤ count) (received : Nat) :
    fillRxBuf conf port received count = ([], count) := by
  cases received <;> exact if_neg (Nat.not_lt.mpr enough)

/-- A port that has buffers, as `create_conf_port` makes it. -/
structure Buffers (conf : Settings) (port : ConfPort) : Prop where
  different : differs conf port.clockRate port.samplesPerFrame port.channelCount = true
  rate : 0 < conf.clockRate
  frame : 0 < port.samplesPerFrame
  rxSmall : port.rxBufCap < 2 ^ 32
  txSmall : port.txBufCap < 2 ^ 32

/-- The RX buffer is not used, or what is left in it leaves room for a frame. -/
def ConfPort.RxFits (conf : Settings) (port : ConfPort) : Prop :=
  port.rxBufCap = 0 ∨ samplesReq conf port = 0 ∨
    Fits port.rxBufCap (samplesReq conf port) (rxAdded conf port) (rxEnd conf port)

/-- What is left in the TX buffer leaves room for a frame. -/
def ConfPort.TxFits (conf : Settings) (port : ConfPort) : Prop :=
  Fits port.txBufCap port.samplesPerFrame (txAdded conf port) (txEnd conf port)

/-- The samples in the RX buffer are a rest, if there is one. -/
def ConfPort.RxRest (conf : Settings) (port : ConfPort) (count : Nat) : Prop :=
  port.rxBufCap = 0 ∨ samplesReq conf port = 0 ∨
    Rest (samplesReq conf port) (rxAdded conf port) count

/-- A tick in which no `put_frame` but the last one of a whole frame fails. -/
def Buffered.Sent (conf : Settings) (state : Buffered) (tick : Tick) : Prop :=
  tick.txSetting = .enable → tick.transmitterCnt ≠ 0 →
    (state.port.txBufCount + txAdded conf state.port) / state.port.samplesPerFrame ≤ tick.sent + 1

/-- The port after some ticks: the buffers hold rests. -/
def Buffered.Rests (conf : Settings) (port : ConfPort) (state : Buffered) : Prop :=
  ∃ rx tx beat setting transmitters,
    state.port = port.buffer rx tx beat setting transmitters ∧ port.RxRest conf rx ∧
      (∃ frames, tx = frames * txAdded conf port % port.samplesPerFrame) ∧ state.Within

variable {state : Buffered}

section
variable (buffers : Buffers conf port)
include buffers

/-- `read_port` stays in a buffer that fits, and leaves a rest. -/
theorem readCount_within (fits : port.RxFits conf) (buffered : port.rxBufCap ≠ 0) {rx : Nat}
    (rest : port.RxRest conf rx) (received : Nat) :
    (∀ stored ∈ (readCount conf port received rx).1, stored ≤ port.rxBufCap) ∧
      port.RxRest conf (readCount conf port received rx).2 := by
  have room := fits.resolve_left buffered
  have left := rest.resolve_left buffered
  by_cases none : samplesReq conf port = 0
  · refine ⟨?_, .inr (.inl none)⟩
    intro stored member
    rw [readCount, fillRxBuf_of_le (by omega)] at member
    exact absurd member not_mem_nil
  have ⟨inside, after⟩ := fillRxBuf_within buffers.rxSmall (room.resolve_left none) received
    (left.resolve_left none)
  refine ⟨inside, .inr (.inr ?_)⟩
  unfold readCount
  dsimp only
  split
  · exact after
  · have ⟨frames, rounds, balance⟩ := after
    refine ⟨frames, rounds + 1, ?_⟩
    rw [← balance, Nat.succ_mul]
    omega

/-- Reading in a tick stays in a buffer that fits, and leaves a rest. -/
theorem readTick_within (fits : port.RxFits conf) {rx : Nat} (rest : port.RxRest conf rx)
    (tx beat : Nat) (setting : PortOp) (transmitters : Int) (received : Option Nat) :
    ∃ left ends, readTick conf (port.buffer rx tx beat setting transmitters) received =
        ⟨ends, port.buffer left tx beat setting transmitters⟩ ∧
      (∀ stored ∈ ends, stored ≤ port.rxBufCap) ∧ port.RxRest conf left := by
  cases received with
  | none => exact ⟨rx, [], rfl, fun _ member => absurd member not_mem_nil, rest⟩
  | some received =>
    by_cases buffered : port.rxBufCap = 0
    · exact ⟨rx, [], if_pos buffered, fun _ member => absurd member not_mem_nil, rest⟩
    · have within := readCount_within buffers fits buffered rest received
      exact ⟨_, _, readPort_buffer buffers.rate buffered rx tx beat setting transmitters received,
        within⟩

/-- A tick leaves rests in buffers that fit. -/
theorem rests_next (rxFits : port.RxFits conf) (txFits : port.TxFits conf) {tick : Tick}
    (rests : state.Rests conf port) (sent : state.Sent conf tick) :
    (state.next conf tick).Rests conf port := by
  have ⟨state, oldRx, oldTx⟩ := state
  obtain ⟨rx, tx, beat, setting, transmitters, rfl, rxRest, ⟨frames, residue⟩, -⟩ := rests
  have ⟨newRx, rxEnds, read, inside, newRest⟩ := readTick_within buffers rxFits rxRest tx beat
    setting transmitters tick.received
  have ⟨left, later, written, stores⟩ := writePort_buffer buffers.different newRx tx beat
    tick.txSetting tick.transmitterCnt tick.sent
  have after : Buffered.next conf ⟨port.buffer rx tx beat setting transmitters, oldRx, oldTx⟩ tick =
      ⟨(writePort conf (port.buffer newRx tx beat tick.txSetting tick.transmitterCnt)
          tick.sent).port, rxEnds,
        (writePort conf (port.buffer newRx tx beat tick.txSetting tick.transmitterCnt)
          tick.sent).ends⟩ := by
    unfold Buffered.next
    rw [read]
    rfl
  rw [after]
  have room := Residue.mul_mod_add_gcd_le frames (txAdded conf port) buffers.frame
  have grows : txAdded conf port ≤ txEnd conf port := convertedCount_le _ _ _
  have small := buffers.txSmall
  unfold ConfPort.TxFits Fits at txFits
  refine ⟨newRx, left, later, tick.txSetting, tick.transmitterCnt, written, newRest, ?_, ?_⟩
  · cases stores with
    | inl silent =>
      cases silent.2 with
      | inl cleared => exact ⟨0, by rw [cleared, Nat.zero_mul, Nat.zero_mod]⟩
      | inr kept => exact ⟨frames, by rw [kept, residue]⟩
    | inr stored =>
      have ⟨_, enabled, transmits, drained⟩ := stored
      have enough : (tx + txAdded conf port) / port.samplesPerFrame ≤ tick.sent + 1 :=
        sent enabled transmits
      have sum : u32 (tx + txAdded conf port) = tx + txAdded conf port := u32_add (by omega)
      refine ⟨frames + 1, ?_⟩
      rw [drained, sum, drainTxBuf_of_sent enough buffers.frame, residue, Nat.mod_add_mod,
        Nat.succ_mul]
  · constructor
    · rw [written]
      exact inside
    · rw [written]
      intro stored member
      cases stores with
      | inl silent =>
        rw [silent.1] at member
        exact absurd member not_mem_nil
      | inr stores =>
        rw [stores.1] at member
        rw [mem_singleton.mp member]
        show tx + txEnd conf port ≤ port.txBufCap
        omega

/-- A tick that only reads. -/
theorem next_read (buffered : port.rxBufCap ≠ 0) (rx tx beat : Nat) (setting : PortOp)
    (transmitters : Int) (oldRx oldTx : List Nat) (received : Nat) :
    ∃ later, Buffered.next conf ⟨port.buffer rx tx beat setting transmitters, oldRx, oldTx⟩
        ⟨some received, .mute, 0, 0⟩ =
      ⟨port.buffer (readCount conf port received rx).2 0 later .mute 0,
        (readCount conf port received rx).1, []⟩ := by
  unfold Buffered.next readTick
  dsimp only
  rw [readPort_buffer buffers.rate buffered]
  exact ⟨_, rfl⟩

/-- A tick that only writes. -/
theorem next_write (rx tx beat : Nat) (setting : PortOp) (transmitters : Int)
    (oldRx oldTx : List Nat) (sent : Nat) :
    Buffered.next conf ⟨port.buffer rx tx beat setting transmitters, oldRx, oldTx⟩
        ⟨none, .enable, 1, sent⟩ =
      ⟨port.buffer rx (drainTxBuf port.samplesPerFrame sent (u32 (tx + txAdded conf port))) 0
          .enable 1, [], [tx + txEnd conf port]⟩ := by
  have silent : ¬(PortOp.enable = .mute ∨ (1 : Int) = 0) := by decide
  have formats : ¬differs conf port.clockRate port.samplesPerFrame port.channelCount = false := by
    rw [buffers.different]
    exact Bool.noConfusion
  have written : writePort conf (port.buffer rx tx beat .enable 1) sent =
      ⟨[tx + txEnd conf port], port.buffer rx
        (drainTxBuf port.samplesPerFrame sent (u32 (tx + txAdded conf port))) 0 .enable 1⟩ := by
    exact (if_neg silent).trans ((if_neg (not_not.mpr rfl)).trans (if_neg formats))
  exact congrArg (fun write : Transfer => (⟨write.port, [], write.ends⟩ : Buffered)) written

end

section Overrun

/-! What the buffers must hold if no run of ticks overruns them. -/

variable {start : Buffered}

/-- The port has a number of samples in its RX buffer after some ticks. -/
def HoldsRx (conf : Settings) (port : ConfPort) (start : Buffered) (rx : Nat) : Prop :=
  ∃ tx beat setting transmitters rxEnds txEnds, Run.Reaches (Buffered.next conf) start
    ⟨port.buffer rx tx beat setting transmitters, rxEnds, txEnds⟩

/-- The port has a number of samples in its TX buffer after some ticks. -/
def HoldsTx (conf : Settings) (port : ConfPort) (start : Buffered) (tx : Nat) : Prop :=
  ∃ rx beat setting transmitters rxEnds txEnds, Run.Reaches (Buffered.next conf) start
    ⟨port.buffer rx tx beat setting transmitters, rxEnds, txEnds⟩

section
variable (buffers : Buffers conf port)
include buffers

/-- One more tick reads the port. -/
theorem HoldsRx.read (buffered : port.rxBufCap ≠ 0) {rx : Nat} (holds : HoldsRx conf port start rx)
    (received : Nat)
    (within : ∀ state, Run.Reaches (Buffered.next conf) start state → state.Within) :
    HoldsRx conf port start (readCount conf port received rx).2 ∧
      ∀ stored ∈ (readCount conf port received rx).1, stored ≤ port.rxBufCap := by
  have ⟨tx, beat, setting, transmitters, oldRx, oldTx, reached⟩ := holds
  have ⟨later, after⟩ := next_read buffers buffered rx tx beat setting transmitters oldRx oldTx
    received
  have again := reached.next ⟨some received, .mute, 0, 0⟩
  rw [after] at again
  exact ⟨⟨_, _, _, _, _, _, again⟩, (within _ again).1⟩

/-- One more tick writes the port. -/
theorem HoldsTx.write {tx : Nat} (holds : HoldsTx conf port start tx) (sent : Nat)
    (within : ∀ state, Run.Reaches (Buffered.next conf) start state → state.Within) :
    tx + txEnd conf port ≤ port.txBufCap ∧
      HoldsTx conf port start
        (drainTxBuf port.samplesPerFrame sent (tx + txAdded conf port)) := by
  have ⟨rx, beat, setting, transmitters, oldRx, oldTx, reached⟩ := holds
  have again := reached.next ⟨none, .enable, 1, sent⟩
  rw [next_write buffers] at again
  have room : tx + txEnd conf port ≤ port.txBufCap :=
    (within _ again).2 _ mem_cons_self
  have grows : txAdded conf port ≤ txEnd conf port := convertedCount_le _ _ _
  have small := buffers.txSmall
  have sum : u32 (tx + txAdded conf port) = tx + txAdded conf port := u32_add (by omega)
  rw [sum] at again
  exact ⟨room, _, _, _, _, _, _, again⟩

/-- Ticks that get no frame take what is there. -/
theorem HoldsRx.mod (buffered : port.rxBufCap ≠ 0) {rx : Nat} (holds : HoldsRx conf port start rx)
    (within : ∀ state, Run.Reaches (Buffered.next conf) start state → state.Within) :
    HoldsRx conf port start (rx % samplesReq conf port) := by
  induction rx using Nat.strong_induction_on with
  | _ rx ih =>
    by_cases none : samplesReq conf port = 0
    · rwa [none, Nat.mod_zero]
    by_cases less : rx < samplesReq conf port
    · rwa [Nat.mod_eq_of_lt less]
    · have enough := Nat.not_lt.mp less
      have taken := (holds.read buffers buffered 0 within).1
      rw [readCount, fillRxBuf_of_le enough] at taken
      rw [if_neg less] at taken
      rw [Nat.mod_eq_sub_mod enough]
      exact ih _ (by omega) taken

/-- After some ticks the RX buffer holds any rest. -/
theorem holdsRx_rest (buffered : port.rxBufCap ≠ 0) (takes : 0 < samplesReq conf port)
    (holds : HoldsRx conf port start 0)
    (within : ∀ state, Run.Reaches (Buffered.next conf) start state → state.Within) (frames : Nat) :
    HoldsRx conf port start (frames * rxAdded conf port % samplesReq conf port) ∧
      frames * rxAdded conf port % samplesReq conf port + rxEnd conf port ≤ port.rxBufCap := by
  have room : ∀ rx, HoldsRx conf port start rx → rx < samplesReq conf port →
      rx + rxEnd conf port ≤ port.rxBufCap ∧
        HoldsRx conf port start ((rx + rxAdded conf port) % samplesReq conf port) := by
    intro rx holds less
    have ⟨next, stored⟩ := holds.read buffers buffered 1 within
    have fill : fillRxBuf conf port 1 rx =
        ((rx + rxEnd conf port) ::
          (fillRxBuf conf port 0 (u32 (rx + rxAdded conf port))).1,
        (fillRxBuf conf port 0 (u32 (rx + rxAdded conf port))).2) := if_pos less
    rw [readCount, fill] at next stored
    have first := stored _ mem_cons_self
    have grows : rxAdded conf port ≤ rxEnd conf port := convertedCount_le _ _ _
    have small := buffers.rxSmall
    have sum : u32 (rx + rxAdded conf port) = rx + rxAdded conf port := u32_add (by omega)
    have left : (fillRxBuf conf port 0 (rx + rxAdded conf port)).2 = rx + rxAdded conf port := by
      unfold fillRxBuf
      split <;> rfl
    rw [sum, left] at next
    refine ⟨first, ?_⟩
    by_cases short : rx + rxAdded conf port < samplesReq conf port
    · rw [if_pos short] at next
      exact next.mod buffers buffered within
    · rw [if_neg short] at next
      rw [Nat.mod_eq_sub_mod (Nat.not_lt.mp short)]
      exact next.mod buffers buffered within
  induction frames with
  | zero =>
    rw [Nat.zero_mul, Nat.zero_mod]
    exact ⟨holds, (room 0 holds takes).1⟩
  | succ frames ih =>
    have next := (room _ ih.1 (Nat.mod_lt _ takes)).2
    rw [Nat.mod_add_mod, ← Nat.succ_mul] at next
    exact ⟨next, (room _ next (Nat.mod_lt _ takes)).1⟩

/-- An RX buffer that is never overrun has room for a frame after the largest rest. -/
theorem rxFits_of_within (holds : HoldsRx conf port start 0)
    (within : ∀ state, Run.Reaches (Buffered.next conf) start state → state.Within) :
    port.RxFits conf := by
  by_cases buffered : port.rxBufCap = 0
  · exact .inl buffered
  by_cases none : samplesReq conf port = 0
  · exact .inr (.inl none)
  have takes := Nat.pos_of_ne_zero none
  have ⟨frames, largest⟩ := Residue.exists_mul_mod_add_gcd (rxAdded conf port) takes
  have room := (holdsRx_rest buffers buffered takes holds within frames).2
  refine .inr (.inr ?_)
  unfold Fits
  omega

end

section
variable (buffers : Buffers conf port) (holds : HoldsTx conf port start 0)
  (within : ∀ state, Run.Reaches (Buffered.next conf) start state → state.Within)
include buffers holds within

/-- After some ticks that send all frames the TX buffer holds any rest. -/
theorem holdsTx_rest (frames : Nat) :
    HoldsTx conf port start (frames * txAdded conf port % port.samplesPerFrame) := by
  induction frames with
  | zero => rwa [Nat.zero_mul, Nat.zero_mod]
  | succ frames ih =>
    obtain ⟨rest, hrest⟩ : ∃ rest, rest = frames * txAdded conf port % port.samplesPerFrame :=
      ⟨_, rfl⟩
    rw [← hrest] at ih
    have next := (ih.write buffers (rest + txAdded conf port) within).2
    have enough : (rest + txAdded conf port) / port.samplesPerFrame ≤
        rest + txAdded conf port + 1 := Nat.le_succ_of_le (Nat.div_le_self _ _)
    rw [drainTxBuf_of_sent enough buffers.frame, hrest, Nat.mod_add_mod, ← Nat.succ_mul] at next
    exact next

/-- A TX buffer that is never overrun has room for a frame after the largest rest. -/
theorem txFits_of_within : port.TxFits conf := by
  have ⟨frames, largest⟩ := Residue.exists_mul_mod_add_gcd (txAdded conf port) buffers.frame
  have room := ((holdsTx_rest buffers holds within frames).write buffers 0 within).1
  unfold ConfPort.TxFits Fits
  omega

/-- If ticks send one frame, and more is added, the TX buffer fills up. -/
theorem holdsTx_growing (long : port.samplesPerFrame < txAdded conf port) (ticks : Nat) :
    HoldsTx conf port start (ticks * (txAdded conf port - port.samplesPerFrame)) := by
  induction ticks with
  | zero => rwa [Nat.zero_mul]
  | succ ticks ih =>
    have next := (ih.write buffers 0 within).2
    rw [drainTxBuf, if_pos (by omega), Nat.add_sub_assoc (Nat.le_of_lt long),
      ← Nat.succ_mul] at next
    exact next

/-- A port whose TX buffer is never overrun, whatever `put_frame` returns, gets no more than one
of its frames in a tick. -/
theorem txAdded_le_of_within : txAdded conf port ≤ port.samplesPerFrame := by
  by_contra long
  have filled := holdsTx_growing buffers holds within (Nat.not_le.mp long) (port.txBufCap + 1)
  have room := (filled.write buffers 0 within).1
  have many := Nat.le_mul_of_pos_right (port.txBufCap + 1)
    (by omega : 0 < txAdded conf port - port.samplesPerFrame)
  omega

end

end Overrun

/-- Buffers that hold rests were not overrun. -/
theorem Buffered.Rests.within (rests : state.Rests conf port) :
    state.Within := by
  have ⟨_, _, _, _, _, _, _, _, within⟩ := rests
  exact within

/-- A port that gets no more than one of its frames in a tick sends it. -/
theorem Buffered.Rests.sent (buffers : Buffers conf port)
    (one : txAdded conf port ≤ port.samplesPerFrame) (rests : state.Rests conf port) (tick : Tick) :
    state.Sent conf tick := by
  intro _ _
  have ⟨rx, tx, beat, setting, transmitters, same, _, ⟨frames, residue⟩, _⟩ := rests
  rw [same]
  show (tx + txAdded conf port) / port.samplesPerFrame ≤ tick.sent + 1
  have less : tx < port.samplesPerFrame := by
    rw [residue]
    exact Nat.mod_lt _ buffers.frame
  have once : (tx + txAdded conf port) / port.samplesPerFrame < 2 := by
    rw [Nat.div_lt_iff_lt_mul buffers.frame]
    omega
  omega

/-- Buffers that fit are not overrun in any run if a tick sends one frame at most. -/
theorem within_of_sendsOne (buffers : Buffers conf port) (rxFits : port.RxFits conf)
    (txFits : port.TxFits conf) (one : txAdded conf port ≤ port.samplesPerFrame)
    {start : Buffered} (rests : start.Rests conf port) (ticks : List Tick) :
    Run.Always (Buffered.next conf) Buffered.Within start ticks := by
  have kept : ∀ (state : Buffered) (tick : Tick), state.Rests conf port → True →
      (state.next conf tick).Rests conf port :=
    fun _ tick rests _ => rests_next buffers rxFits txFits rests (rests.sent buffers one tick)
  have always := Run.always kept rests (Run.meets_of_forall (fun _ _ => trivial) start ticks)
  exact always.imp fun _ rests => rests.within

/-- A port of the bridge's format is read and written without a buffer. -/
theorem within_of_same (unbuffered : port.rxBufCap = 0)
    (same : differs conf port.clockRate port.samplesPerFrame port.channelCount = false)
    (rx tx beat : Nat) (setting : PortOp) (transmitters : Int) (ticks : List Tick) :
    Run.Always (Buffered.next conf) Buffered.Within
      ⟨port.buffer rx tx beat setting transmitters, [], []⟩ ticks := by
  have silent : ∀ rx tx beat setting transmitters sent, ∃ left later,
      writePort conf (port.buffer rx tx beat setting transmitters) sent =
        ⟨[], port.buffer rx left later setting transmitters⟩ := by
    intro rx tx beat setting transmitters sent
    unfold writePort
    split
    · exact ⟨0, _, rfl⟩
    · split
      · exact ⟨tx, beat, rfl⟩
      · exact ⟨tx, 0, if_pos same⟩
  have kept : ∀ (state : Buffered) (tick : Tick),
      (∃ rx tx beat setting transmitters,
        state = ⟨port.buffer rx tx beat setting transmitters, [], []⟩) → True →
      ∃ rx tx beat setting transmitters,
        state.next conf tick = ⟨port.buffer rx tx beat setting transmitters, [], []⟩ := by
    intro state tick held _
    obtain ⟨rx, tx, beat, setting, transmitters, rfl⟩ := held
    have read : readTick conf (port.buffer rx tx beat setting transmitters) tick.received =
        ⟨[], port.buffer rx tx beat setting transmitters⟩ := by
      cases tick.received with
      | none => rfl
      | some received => exact if_pos unbuffered
    have ⟨left, later, written⟩ := silent rx tx beat tick.txSetting tick.transmitterCnt tick.sent
    refine ⟨rx, left, later, tick.txSetting, tick.transmitterCnt, ?_⟩
    unfold Buffered.next
    rw [read]
    exact congrArg (fun write : Transfer => (⟨write.port, [], write.ends⟩ : Buffered)) written
  have always := Run.always kept ⟨rx, tx, beat, setting, transmitters, rfl⟩
    (Run.meets_of_forall (fun _ _ => trivial) _ ticks)
  refine always.imp fun state held => ?_
  obtain ⟨_, _, _, _, _, rfl⟩ := held
  exact ⟨fun _ member => absurd member not_mem_nil,
    fun _ member => absurd member not_mem_nil⟩

/-- The ports that `create_conf_port` makes. -/
theorem createConfPort_cases {format : Format}
    (created : createConfPort conf (some format) = some port) :
    (differs conf format.clockRate (afdSpf format) format.channelCount = false ∧
        port = newPort format.clockRate (afdSpf format) format.channelCount 0) ∨
      (differs conf format.clockRate (afdSpf format) format.channelCount = true ∧
        divides conf format.clockRate (afdSpf format) format.channelCount = true ∧
        port = newPort format.clockRate (afdSpf format) format.channelCount
          (bufCap conf format.clockRate (afdSpf format) format.channelCount)) := by
  unfold createConfPort at created
  dsimp only [Option.map_some, Option.getD_some] at created
  split at created
  · exact absurd created nofun
  · split at created
    · exact .inl ⟨‹_›, (Option.some.inj created).symm⟩
    · split at created
      · exact absurd created nofun
      · refine .inr ⟨?_, ?_, (Option.some.inj created).symm⟩
        · exact (Bool.not_eq_false _).mp ‹_›
        · exact (Bool.not_eq_false _).mp ‹_›

/-- The capacity of a buffer is an `unsigned`. -/
theorem bufCap_lt (conf : Settings) (clockRate samplesPerFrame channelCount : Nat) :
    bufCap conf clockRate samplesPerFrame channelCount < 2 ^ 32 := by
  unfold bufCap
  split <;> exact u32_lt _

/-- A port for which `create_conf_port` does not divide by zero has frames that are not empty. -/
theorem frame_pos_of_divides {clockRate samplesPerFrame channelCount : Nat}
    (divided : divides conf clockRate samplesPerFrame channelCount = true) :
    0 < conf.clockRate ∧ 0 < samplesPerFrame := by
  unfold divides at divided
  rw [decide_eq_true_iff] at divided
  have ⟨_, rate, _, _, times⟩ := divided
  refine ⟨Nat.pos_of_ne_zero rate, ?_⟩
  by_contra empty
  have zero : samplesPerFrame = 0 := by omega
  have instant : ptime samplesPerFrame channelCount clockRate = 0 := by
    rw [zero, ptime, Nat.zero_div, Nat.zero_mul]
    exact Nat.zero_div _
  rw [instant, if_neg (Nat.not_lt_zero _)] at times
  exact times rfl

/-- The buffers of a port are never overrun, in any run of ticks and whatever the port returns, if
and only if the port has the bridge's format, or the largest rests in the buffers leave room for a
frame and a tick sends one frame at most. -/
theorem buffers_within_iff {format : Format}
    (created : createConfPort conf (some format) = some port) :
    (∀ ticks, Run.Always (Buffered.next conf) Buffered.Within ⟨port, [], []⟩ ticks) ↔
      differs conf format.clockRate (afdSpf format) format.channelCount = false ∨
        (RxFits conf format ∧ TxFits conf format ∧ SendsOne conf format) := by
  cases createConfPort_cases created with
  | inl same =>
    obtain ⟨same, rfl⟩ := same
    have within := @within_of_same conf
      (newPort format.clockRate (afdSpf format) format.channelCount 0) rfl same 0 0 0 .enable 0
    exact iff_of_true within (.inl same)
  | inr buffered =>
    obtain ⟨different, divided, rfl⟩ := buffered
    have ⟨rate, frame⟩ := frame_pos_of_divides divided
    have small := bufCap_lt conf format.clockRate (afdSpf format) format.channelCount
    obtain ⟨port, hport⟩ : ∃ port, port =
        newPort format.clockRate (afdSpf format) format.channelCount
          (bufCap conf format.clockRate (afdSpf format) format.channelCount) := ⟨_, rfl⟩
    have buffers : Buffers conf port := by
      rw [hport]
      exact ⟨different, rate, frame, small, small⟩
    have rxFits : port.RxFits conf ↔ RxFits conf format := by rw [hport]; rfl
    have txFits : port.TxFits conf ↔ TxFits conf format := by rw [hport]; rfl
    have one : txAdded conf port ≤ port.samplesPerFrame ↔ SendsOne conf format := by
      rw [hport]
      rfl
    have fresh : port = port.buffer 0 0 0 .enable 0 := by rw [hport]; rfl
    have other : ¬differs conf format.clockRate (afdSpf format) format.channelCount = false := by
      rw [different]
      exact Bool.noConfusion
    rw [← hport, or_iff_right other, ← rxFits, ← txFits, ← one]
    constructor
    · intro always
      have within : ∀ state, Run.Reaches (Buffered.next conf) ⟨port, [], []⟩ state →
          state.Within := fun state reached => reached.of_always always
      have start : Run.Reaches (Buffered.next conf) ⟨port, [], []⟩
          ⟨port.buffer 0 0 0 .enable 0, [], []⟩ := by
        rw [← fresh]
        exact Run.reaches_start
      have holdsRx : HoldsRx conf port ⟨port, [], []⟩ 0 := ⟨_, _, _, _, _, _, start⟩
      have holdsTx : HoldsTx conf port ⟨port, [], []⟩ 0 := ⟨_, _, _, _, _, _, start⟩
      exact ⟨rxFits_of_within buffers holdsRx within, txFits_of_within buffers holdsTx within,
        txAdded_le_of_within buffers holdsTx within⟩
    · intro fits ticks
      have ⟨rx, tx, sends⟩ := fits
      apply within_of_sendsOne buffers rx tx sends
      refine ⟨0, 0, 0, .enable, 0, fresh, .inr (.inr ⟨0, 0, by omega⟩), ⟨0, ?_⟩, ?_⟩
      · rw [Nat.zero_mul, Nat.zero_mod]
      · exact ⟨fun _ member => absurd member not_mem_nil,
          fun _ member => absurd member not_mem_nil⟩

/-- A port of 8 kHz on a bridge of 16 kHz, with frames of 20 ms. -/
theorem buffers_within_iff_wideband :
    (∀ ticks, Run.Always (Buffered.next ⟨16000, 1, 320⟩) Buffered.Within
        ⟨newPort 8000 160 1 160, [], []⟩ ticks) ↔
      differs ⟨16000, 1, 320⟩ 8000 160 1 = false ∨
        (RxFits ⟨16000, 1, 320⟩ ⟨8000, 1, 20000⟩ ∧ TxFits ⟨16000, 1, 320⟩ ⟨8000, 1, 20000⟩ ∧
          SendsOne ⟨16000, 1, 320⟩ ⟨8000, 1, 20000⟩) :=
  @buffers_within_iff _ _ ⟨8000, 1, 20000⟩ rfl

/-- A port of 11025 Hz on a bridge of 8 kHz: the second frame of the first tick ends at 440, in a
buffer of 429. -/
theorem rx_overrun : createConfPort ⟨8000, 1, 160⟩ (some ⟨11025, 1, 20000⟩) =
      some (newPort 11025 220 1 429) ∧
    ¬Run.Always (Buffered.next ⟨8000, 1, 160⟩) Buffered.Within
      ⟨newPort 11025 220 1 429, [], []⟩ [⟨some 2, .enable, 0, 0⟩] := by
  refine ⟨rfl, ?_⟩
  intro always
  have within := always.last.1 440 (by decide)
  exact absurd within (by decide)

end Pjmedia.Conference
