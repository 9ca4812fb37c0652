import Mathlib.Data.List.DropRight
import Pjproject.Stream.Dtmf

/-!
# Delivery of telephone events

The payloads of the sender reach the receiver in order and without loss. The payloads of a digit
have durations that grow up to the DTMF duration, which the last three have; the first payload of
the next digit has a shorter one, so that the receiver takes it for a new event, the same digit
included.
-/

namespace Pjmedia.Stream
open List Pj

/-- The two streams, with the events that were queued. -/
structure System where
  sender : Sender
  receiver : Receiver
  queued : List Nat
deriving DecidableEq, Repr

/-- A digit of the queue that is not transmitted yet. -/
def Dtmf.queued (event : Nat) : Dtmf := { event := event, duration := 0, ebitCnt := 0 }

/-- A queue of digits before the first tick. -/
def System.start (tsLenPerPkt dtmfDuration : Nat) (dtmfCb : Bool) (queue : List Nat) : System :=
  { sender :=
      { tsLenPerPkt := tsLenPerPkt, dtmfDuration := dtmfDuration
        txDtmfBuf := queue.map Dtmf.queued }
    receiver :=
      { lastDtmf := none, lastDtmfDur := 0
        digits := { dtmfCb := dtmfCb, called := [], rxDtmfBuf := [] } }
    queued := queue }

/-- What happens to the streams. -/
inductive Input
  | dial (digitChar : Str)
  | tick
deriving DecidableEq, Repr

/-- A transmit tick: a payload is created if there is a digit, and the receiver handles it. -/
def System.tick (system : System) : System :=
  match createDtmfPayload system.sender false with
  | none => system
  | some (payload, sender) =>
    { system with
      sender := sender, receiver := handleIncomingDtmf system.receiver payload.payload }

/-- One input. -/
def System.step (system : System) : Input → System
  | .dial digitChar =>
    let (accepted, sender) := pjmediaStreamDialDtmf system.sender digitChar
    { system with
      sender := sender
      queued := if accepted then system.queued ++ (digitChar.mapM eventOf).getD []
        else system.queued }
  | .tick => system.tick

/-! ## One payload -/

variable {sender : Sender}

/-- The duration of the next payload of a digit. -/
def Sender.nextDuration (sender : Sender) (digit : Dtmf) : Nat :=
  min sender.dtmfDuration (digit.duration + sender.tsLenPerPkt)

/-- Durations that fit the payload. -/
structure Sender.Timed (sender : Sender) : Prop where
  positive : 0 < sender.tsLenPerPkt
  shorter : sender.tsLenPerPkt < sender.dtmfDuration
  fits : sender.dtmfDuration < 2 ^ 16

/-- The digit at the front sends its event with the next duration, and leaves the queue after the
third payload of full duration. -/
theorem createDtmfPayload_spec (timed : sender.Timed) {digit : Dtmf} {rest : List Dtmf}
    (front : sender.txDtmfBuf = digit :: rest) (event : digit.event ≤ 16)
    (duration : digit.duration ≤ sender.dtmfDuration) :
    ∃ payload sender', createDtmfPayload sender false = some (payload, sender') ∧
      payload.payload.event = digit.event ∧
      payload.payload.duration = sender.nextDuration digit ∧
      sender'.tsLenPerPkt = sender.tsLenPerPkt ∧ sender'.dtmfDuration = sender.dtmfDuration ∧
      (sender.nextDuration digit = sender.dtmfDuration ∧ sender'.txDtmfBuf = rest ∨
        ∃ ebitCnt, (sender.nextDuration digit < sender.dtmfDuration ∧ ebitCnt = digit.ebitCnt ∨
            digit.ebitCnt < ebitCnt ∧ ebitCnt < ebitRetransmitCnt) ∧
          sender'.txDtmfBuf =
            { digit with duration := sender.nextDuration digit, ebitCnt := ebitCnt } :: rest) := by
  have positive := timed.positive
  have shorter := timed.shorter
  have fits := timed.fits
  have sum : (digit.duration + sender.tsLenPerPkt) % 2 ^ 32 =
      digit.duration + sender.tsLenPerPkt := Nat.mod_eq_of_lt (by omega)
  have next : (if sender.dtmfDuration ≤ digit.duration + sender.tsLenPerPkt then
      sender.dtmfDuration else digit.duration + sender.tsLenPerPkt) =
      sender.nextDuration digit := by
    rw [Sender.nextDuration, Nat.min_def]
  have bounded : sender.nextDuration digit ≤ sender.dtmfDuration := Nat.min_le_left _ _
  have event' : digit.event % 2 ^ 8 = digit.event := Nat.mod_eq_of_lt (by omega)
  have duration' : sender.nextDuration digit % 2 ^ 16 = sender.nextDuration digit :=
    Nat.mod_eq_of_lt (by omega)
  unfold createDtmfPayload
  rw [front]
  dsimp only
  rw [sum, next, event', duration']
  simp only [Bool.false_eq_true, if_false]
  split
  · next full =>
    have equal : sender.nextDuration digit = sender.dtmfDuration := by omega
    split
    · exact ⟨_, _, rfl, rfl, rfl, rfl, rfl, .inl ⟨equal, rfl⟩⟩
    · next again =>
      exact ⟨_, _, rfl, rfl, rfl, rfl, rfl, .inr ⟨digit.ebitCnt + 1, .inr ⟨by omega, by omega⟩,
        rfl⟩⟩
  · exact ⟨_, _, rfl, rfl, rfl, rfl, rfl, .inr ⟨digit.ebitCnt, .inl ⟨by omega, rfl⟩, rfl⟩⟩

/-- A payload that goes on with the current event is not delivered. -/
theorem handleIncomingDtmf_same (receiver : Receiver) (event : DtmfEvent)
    (same : receiver.lastDtmf = some event.event)
    (longer : receiver.lastDtmfDur ≤ event.duration) :
    handleIncomingDtmf receiver event = { receiver with lastDtmfDur := event.duration } :=
  if_pos ⟨same, longer⟩

/-- A payload of a shorter duration is a new event. -/
theorem handleIncomingDtmf_new (receiver : Receiver) (event : DtmfEvent)
    (shorter : receiver.lastDtmf = none ∨ event.duration < receiver.lastDtmfDur)
    (known : event.event ≤ 16) :
    handleIncomingDtmf receiver event =
      { lastDtmf := some event.event, lastDtmfDur := event.duration
        digits := receiver.digits.deliver (digitOf event.event) } := by
  have new : ¬(receiver.lastDtmf = some event.event ∧
      receiver.lastDtmfDur ≤ event.duration) := by
    rintro ⟨same, longer⟩
    rcases shorter with none | shorter
    · rw [none] at same
      contradiction
    · omega
  rw [handleIncomingDtmf, if_neg new, if_neg (by omega)]

/-! ## The invariant -/

variable {system : System} {dtmfCb : Bool} {waiting : List Nat}

/-- The events that are delivered are the queued ones without those that wait. -/
def System.Delivered (dtmfCb : Bool) (system : System) (waiting : List Nat) : Prop :=
  ∃ started, system.queued = started ++ waiting ∧
    system.receiver.digits = (started.map digitOf).foldl Digits.deliver
      { dtmfCb := dtmfCb, called := [], rxDtmfBuf := [] }

/-- The digits that wait are at the end of the queue. In front of them there is at most the digit
that is transmitted, which is the receiver's current one. -/
structure System.Synced (dtmfCb : Bool) (system : System) (front : Option Dtmf)
    (waiting : List Nat) : Prop where
  timed : system.sender.Timed
  queue : system.sender.txDtmfBuf = front.toList ++ waiting.map Dtmf.queued
  known : ∀ event ∈ waiting, event ≤ 16
  delivered : system.Delivered dtmfCb waiting
  idle : front = none → system.receiver.lastDtmf = none ∨
    system.receiver.lastDtmfDur = system.sender.dtmfDuration
  current : ∀ digit ∈ front, digit.event ≤ 16 ∧ digit.duration ≤ system.sender.dtmfDuration ∧
    0 < digit.duration ∧ system.receiver.lastDtmf = some digit.event ∧
    system.receiver.lastDtmfDur = digit.duration

/-- The two sides agree about what is delivered. -/
def System.Inv (dtmfCb : Bool) (system : System) : Prop :=
  ∃ front waiting, system.Synced dtmfCb front waiting

theorem System.start_synced {tsLenPerPkt dtmfDuration : Nat} {queue : List Nat}
    (positive : 0 < tsLenPerPkt) (shorter : tsLenPerPkt < dtmfDuration)
    (fits : dtmfDuration < 2 ^ 16) (known : ∀ event ∈ queue, event ≤ 16) :
    (System.start tsLenPerPkt dtmfDuration dtmfCb queue).Synced dtmfCb none queue where
  timed := ⟨positive, shorter, fits⟩
  queue := rfl
  known := known
  delivered := ⟨[], rfl, rfl⟩
  idle _ := .inl rfl
  current := nofun

/-- A character that stands for an event stands for a known one. -/
theorem eventOf_le {char : UInt8} {event : Nat} (h : eventOf char = some event) : event ≤ 16 := by
  unfold eventOf at h
  dsimp only at h
  split at h
  · next isDigit =>
    have bounds : 48 ≤ pjTolower char ∧ pjTolower char ≤ 57 := by
      simpa [pjIsdigit] using isDigit
    have upper : (pjTolower char).toNat ≤ 57 := UInt8.le_iff_toNat_le.mp bounds.2
    have value := Option.some.inj h
    omega
  · split at h
    · next letter =>
      have upper : (pjTolower char).toNat ≤ 100 := UInt8.le_iff_toNat_le.mp letter.2
      have value := Option.some.inj h
      omega
    · split at h
      · have value := Option.some.inj h
        omega
      · split at h
        · have value := Option.some.inj h
          omega
        · split at h
          · have value := Option.some.inj h
            omega
          · contradiction

/-- So do the characters of a string. -/
theorem mapM_eventOf_le {digitChar : Str} {events : List Nat}
    (h : digitChar.mapM eventOf = some events) : ∀ event ∈ events, event ≤ 16 := by
  induction digitChar generalizing events with
  | nil =>
    have empty : events = [] := by simpa using h.symm
    rw [empty]
    exact nofun
  | cons char rest ih =>
    simp only [mapM_cons, Option.bind_eq_bind, Option.bind_eq_some_iff, Option.pure_def,
      Option.some.injEq] at h
    obtain ⟨event, first, others, later, rfl⟩ := h
    intro other member
    rcases mem_cons.mp member with rfl | member
    · exact eventOf_le first
    · exact ih later other member

/-- Digits are dialed behind those that wait. -/
theorem System.Synced.dial {front : Option Dtmf} (h : system.Synced dtmfCb front waiting)
    (digitChar : Str) :
    ∃ waiting', (system.step (.dial digitChar)).Synced dtmfCb front waiting' := by
  unfold System.step pjmediaStreamDialDtmf
  dsimp only
  split
  · exact ⟨waiting, h⟩
  cases dialed : digitChar.mapM eventOf with
  | none => exact ⟨waiting, h⟩
  | some events =>
    have ⟨started, queued, digits⟩ := h.delivered
    have queue := h.queue
    have timed := h.timed
    refine ⟨waiting ++ events, ⟨⟨timed.positive, timed.shorter, timed.fits⟩, ?_, ?_,
      ⟨started, ?_, digits⟩, h.idle, h.current⟩⟩
    · show system.sender.txDtmfBuf ++ events.map Dtmf.queued = _
      rw [queue, map_append, append_assoc]
    · intro event member
      rcases mem_append.mp member with member | member
      · exact h.known event member
      · exact mapM_eventOf_le dialed event member
    · show system.queued ++ events = _
      rw [queued, append_assoc]

/-- The timing of a stream does not change. -/
theorem Sender.Timed.congr {sender' : Sender} (h : sender.Timed)
    (len : sender'.tsLenPerPkt = sender.tsLenPerPkt)
    (full : sender'.dtmfDuration = sender.dtmfDuration) : sender'.Timed := by
  have positive := h.positive
  have shorter := h.shorter
  have fits := h.fits
  rw [← len] at positive shorter
  rw [← full] at shorter fits
  exact ⟨positive, shorter, fits⟩

/-- Once the receiver has taken the payload of the digit at the front, the two sides are in step. -/
theorem System.synced_of_sent (dtmfCb : Bool) (system : System) (digit : Dtmf) {duration : Nat}
    (timed : system.sender.Timed) (event : digit.event ≤ 16) (positive : 0 < duration)
    (bounded : duration ≤ system.sender.dtmfDuration) (known : ∀ event ∈ waiting, event ≤ 16)
    (delivered : system.Delivered dtmfCb waiting)
    (last : system.receiver.lastDtmf = some digit.event)
    (lastDur : system.receiver.lastDtmfDur = duration)
    (queue : duration = system.sender.dtmfDuration ∧
        system.sender.txDtmfBuf = waiting.map Dtmf.queued ∨
      ∃ ebitCnt, system.sender.txDtmfBuf =
        { digit with duration := duration, ebitCnt := ebitCnt } :: waiting.map Dtmf.queued) :
    ∃ front, system.Synced dtmfCb front waiting := by
  rcases queue with ⟨ended, queue⟩ | ⟨ebitCnt, queue⟩
  · exact ⟨none, timed, queue, known, delivered, fun _ => .inr (lastDur.trans ended), nofun⟩
  · refine ⟨some { digit with duration := duration, ebitCnt := ebitCnt }, timed, queue, known,
      delivered, nofun, ?_⟩
    rintro _ ⟨⟩
    exact ⟨event, bounded, positive, last, lastDur⟩

theorem System.tick_eq {payload : DtmfPayload}
    (created : createDtmfPayload system.sender false = some (payload, sender)) :
    system.tick =
      { system with
        sender := sender, receiver := handleIncomingDtmf system.receiver payload.payload } := by
  rw [System.tick, created]

/-- A tick without a digit does nothing. -/
theorem System.tick_idle (h : system.sender.txDtmfBuf = []) :
    system.tick = system := by
  rw [System.tick, createDtmfPayload, h]

/-- Transmissions that are left, at most. -/
def Sender.work (sender : Sender) : Nat :=
  (sender.txDtmfBuf.map fun digit =>
    sender.dtmfDuration - digit.duration + (ebitRetransmitCnt - digit.ebitCnt) + 1).sum

/-- A tick keeps the two sides in step: a payload is either the first one of the digit that
waits longest, or it goes on with the current digit. -/
theorem System.Synced.tick {front : Option Dtmf} (h : system.Synced dtmfCb front waiting) :
    ∃ front' waiting', system.tick.Synced dtmfCb front' waiting' := by
  have timed := h.timed
  have positive := timed.positive
  have shorter := timed.shorter
  have queue := h.queue
  have ⟨started, queued, digits⟩ := h.delivered
  cases front with
  | none =>
    cases waiting with
    | nil =>
      rw [System.tick_idle queue]
      exact ⟨none, [], h⟩
    | cons event waiting =>
      have known : event ≤ 16 := h.known event mem_cons_self
      have ⟨payload, sender, created, same, duration, len, full, rest⟩ :=
        createDtmfPayload_spec timed queue known (Nat.zero_le _)
      have next : system.sender.nextDuration (Dtmf.queued event) =
          system.sender.tsLenPerPkt := by
        simp only [Sender.nextDuration, Dtmf.queued]
        omega
      have positiveNext : 0 < system.sender.nextDuration (Dtmf.queued event) := by omega
      have new := handleIncomingDtmf_new system.receiver payload.payload
        ((h.idle rfl).imp_right fun lastDur => by omega) (le_of_eq_of_le same known)
      have ticked := System.tick_eq created
      rw [new] at ticked
      rw [ticked]
      have ⟨front, synced⟩ := System.synced_of_sent dtmfCb
        { system with
          sender := sender
          receiver :=
            { lastDtmf := some payload.payload.event, lastDtmfDur := payload.payload.duration
              digits := system.receiver.digits.deliver (digitOf payload.payload.event) } }
        (Dtmf.queued event) (timed.congr len full) known positiveNext
        (le_of_le_of_eq (Nat.min_le_left _ _) full.symm)
        (fun other member => h.known other (mem_cons_of_mem _ member))
        ⟨started ++ [event], by simp [queued], by simp [digits, same, Dtmf.queued]⟩
        (by simp only [same]) duration
        (rest.imp (And.imp_left (·.trans full.symm)) fun ⟨ebitCnt, _, left⟩ => ⟨ebitCnt, left⟩)
      exact ⟨front, waiting, synced⟩
  | some digit =>
    have ⟨known, bounded, begun, last, lastDur⟩ := h.current digit rfl
    have ⟨payload, sender, created, same, duration, len, full, rest⟩ :=
      createDtmfPayload_spec timed queue known bounded
    have next : digit.duration ≤ system.sender.nextDuration digit := by
      simp only [Sender.nextDuration]
      omega
    have current := handleIncomingDtmf_same system.receiver payload.payload
      (last.trans (congrArg some same.symm)) (by omega)
    have ticked := System.tick_eq created
    rw [current] at ticked
    rw [ticked]
    have ⟨front, synced⟩ := System.synced_of_sent dtmfCb
      { system with
        sender := sender
        receiver := { system.receiver with lastDtmfDur := payload.payload.duration } }
      digit (timed.congr len full) known (Nat.lt_of_lt_of_le begun next)
      (le_of_le_of_eq (Nat.min_le_left _ _) full.symm) h.known
      ⟨started, queued, digits⟩ last duration
      (rest.imp (And.imp_left (·.trans full.symm)) fun ⟨ebitCnt, _, left⟩ => ⟨ebitCnt, left⟩)
    exact ⟨front, waiting, synced⟩

/-! ## Runs -/

/-- The two sides stay in step. -/
theorem System.inv_step (h : system.Inv dtmfCb) (input : Input) :
    (system.step input).Inv dtmfCb := by
  have ⟨front, waiting, synced⟩ := h
  cases input with
  | dial digitChar => exact ⟨front, synced.dial digitChar⟩
  | tick => exact synced.tick

/-- The digit at the front of the queue, the current one or not. -/
theorem System.Synced.front_digit {front : Option Dtmf} (h : system.Synced dtmfCb front waiting)
    {digit : Dtmf} {rest : List Dtmf} (queue : system.sender.txDtmfBuf = digit :: rest) :
    digit.event ≤ 16 ∧ digit.duration ≤ system.sender.dtmfDuration := by
  rw [h.queue] at queue
  cases front with
  | some current =>
    have ⟨same, _⟩ := List.cons.inj queue
    have ⟨known, bounded, _⟩ := h.current current rfl
    exact same ▸ ⟨known, bounded⟩
  | none =>
    cases waiting with
    | nil => contradiction
    | cons event waiting =>
      have ⟨same, _⟩ := List.cons.inj queue
      exact same ▸ ⟨h.known event mem_cons_self, Nat.zero_le _⟩

/-- A tick shortens what is left. -/
theorem System.work_tick (h : system.Inv dtmfCb) (busy : system.sender.txDtmfBuf ≠ []) :
    system.tick.sender.work < system.sender.work ∧ system.tick.queued = system.queued := by
  have ⟨front, waiting, synced⟩ := h
  have timed := synced.timed
  have positive := timed.positive
  have ⟨digit, digits, queue⟩ := exists_cons_of_ne_nil busy
  have known := synced.front_digit queue
  have ⟨payload, sender, created, same, duration, len, full, rest⟩ :=
    createDtmfPayload_spec timed queue known.1 known.2
  rw [System.tick_eq created]
  refine ⟨?_, rfl⟩
  obtain ⟨_, left⟩ | ⟨ebitCnt, progress, left⟩ := rest
  · simp only [Sender.work, queue, left, full, map_cons, sum_cons]
    omega
  · have next : system.sender.nextDuration digit =
        min system.sender.dtmfDuration (digit.duration + system.sender.tsLenPerPkt) := rfl
    simp only [Sender.work, queue, left, full, map_cons, sum_cons]
    omega

/-- With an empty queue of the sender, all events are delivered. -/
theorem System.Inv.all_delivered (h : system.Inv dtmfCb) (idle : system.sender.txDtmfBuf = []) :
    system.Delivered dtmfCb [] := by
  have ⟨front, waiting, synced⟩ := h
  have queue := synced.queue
  rw [idle] at queue
  obtain ⟨_, none⟩ := append_eq_nil_iff.mp queue.symm
  rw [← map_eq_nil_iff.mp none]
  exact synced.delivered

/-- Enough ticks transmit all of the queue. -/
theorem System.Inv.ticks_transmit (h : system.Inv dtmfCb) :
    ∃ ticks, ((List.replicate ticks Input.tick).foldl System.step system).sender.txDtmfBuf = [] ∧
      ((List.replicate ticks Input.tick).foldl System.step system).queued = system.queued := by
  induction left : system.sender.work using Nat.strongRecOn generalizing system with
  | _ work ih =>
    by_cases idle : system.sender.txDtmfBuf = []
    · exact ⟨0, idle, rfl⟩
    · have ⟨shorter, same⟩ := System.work_tick h idle
      have ⟨ticks, sent, queued⟩ :=
        ih _ (left ▸ shorter) (System.inv_step h Input.tick) rfl
      exact ⟨ticks + 1, sent, queued.trans same⟩

/-- What the receiver is given, in all: with a callback its calls, else what the buffer keeps. -/
theorem Digits.foldl_deliver (dtmfCb : Bool) (digits : Str) :
    digits.foldl Digits.deliver { dtmfCb := dtmfCb, called := [], rxDtmfBuf := [] } =
      { dtmfCb := dtmfCb, called := if dtmfCb then digits else []
        rxDtmfBuf := if dtmfCb then [] else digits.rtake dtmfBufSize } := by
  induction digits using List.reverseRecOn with
  | nil => cases dtmfCb <;> rfl
  | append_singleton digits digit ih =>
    rw [foldl_concat, ih]
    cases dtmfCb with
    | true => rfl
    | false =>
      have kept : (digits.rtake dtmfBufSize).length = min dtmfBufSize digits.length := by
        rw [List.rtake, length_drop]
        omega
      simp only [Bool.false_eq_true, if_false, Digits.deliver]
      rw [dtmfBufSize, rtake_concat_succ, ← dtmfBufSize, kept]
      split
      · next full =>
        have oldest : digits.length - 31 = digits.length - dtmfBufSize + 1 := by
          rw [dtmfBufSize] at full ⊢
          omega
        rw [List.rtake, List.rtake, tail_drop, oldest]
      · next room =>
        have all : digits.length - 31 = digits.length - dtmfBufSize := by
          rw [dtmfBufSize] at room ⊢
          omega
        rw [List.rtake, List.rtake, all]

/-- What the receiver is given is, in order, each event of the queue once: along any run of
dialing and of transmit ticks a first part of it, and all of it when the sender has transmitted
its queue, which enough ticks make it do. -/
theorem dtmf_delivered {tsLenPerPkt dtmfDuration : Nat} (positive : 0 < tsLenPerPkt)
    (shorter : tsLenPerPkt < dtmfDuration) (fits : dtmfDuration < 2 ^ 16) (dtmfCb : Bool)
    {queue : List Nat} (known : ∀ event ∈ queue, event ≤ 16) (inputs : List Input) :
    let system := inputs.foldl System.step (System.start tsLenPerPkt dtmfDuration dtmfCb queue)
    (∃ waiting, system.Delivered dtmfCb waiting) ∧
      (system.sender.txDtmfBuf = [] → system.Delivered dtmfCb []) ∧
      ∃ ticks,
        let sent := (List.replicate ticks Input.tick).foldl System.step system
        sent.sender.txDtmfBuf = [] ∧ sent.queued = system.queued ∧
          sent.receiver.digits.called =
            (if dtmfCb then system.queued.map digitOf else []) ∧
          sent.receiver.digits.rxDtmfBuf =
            (if dtmfCb then [] else (system.queued.map digitOf).rtake dtmfBufSize) := by
  intro system
  have runs : ∀ (state : System) (inputs : List Input), state.Inv dtmfCb →
      (inputs.foldl System.step state).Inv dtmfCb := by
    intro state inputs inv
    exact List.foldlRecOn inputs System.step inv fun _ inv input _ => System.inv_step inv input
  have inv : system.Inv dtmfCb :=
    runs _ inputs ⟨none, queue, System.start_synced positive shorter fits known⟩
  have prefixDelivered : ∃ waiting, system.Delivered dtmfCb waiting := by
    have ⟨_, waiting, synced⟩ := inv
    exact ⟨waiting, synced.delivered⟩
  refine ⟨prefixDelivered, fun idle => System.Inv.all_delivered inv idle, ?_⟩
  have ⟨ticks, idle, same⟩ := inv.ticks_transmit
  have ⟨started, queued, digits⟩ := System.Inv.all_delivered (runs _ _ inv) idle
  rw [same, append_nil] at queued
  rw [← queued, Digits.foldl_deliver] at digits
  exact ⟨ticks, idle, same, congrArg Digits.called digits, congrArg Digits.rxDtmfBuf digits⟩

/-- The same digit twice is delivered twice. -/
theorem dtmf_delivered_repeated :
    ∃ ticks,
      ((List.replicate ticks Input.tick).foldl System.step
        (System.start 160 1600 true [5, 5, 11])).receiver.digits.called =
          ofChars ['5', '5', '#'] := by
  have known : ∀ event ∈ [5, 5, 11], event ≤ 16 := by decide
  have ⟨_, _, ticks, _, _, called, _⟩ :=
    dtmf_delivered (by decide : 0 < 160) (by decide : 160 < 1600) (by decide) true known []
  exact ⟨ticks, called⟩

end Pjmedia.Stream
