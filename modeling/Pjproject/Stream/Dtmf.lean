import Pjproject.Pjlib.Str

/-!
# Telephone events of a stream

The DTMF part of `pjmedia_stream`. The sender turns the digit at the front of its queue into one
event payload per transmit tick, and the receiver tells new events from those it has seen. An event
payload holds the duration in host order: `pj_htons` and `pj_ntohs` are inverse.
-/

namespace Pjmedia.Stream
open Pj

/-- `digitmap`. -/
def digitmap : Str :=
  ofChars ['0', '1', '2', '3', '4', '5', '6', '7', '8', '9', '*', '#', 'A', 'B', 'C', 'D', 'R']

/-- The character of an event. -/
def digitOf (event : Nat) : UInt8 := digitmap.getD event 0

/-- `DTMF_EBIT_RETRANSMIT_CNT`. -/
def ebitRetransmitCnt : Nat := 3

/-- `dtmf`. -/
structure Dtmf where
  event : Nat
  duration : Nat
  /-- Number of E bit transmissions. -/
  ebitCnt : Nat
deriving DecidableEq, Repr

/-- `pjmedia_rtp_dtmf_event`. -/
structure DtmfEvent where
  event : Nat
  eVol : UInt8
  duration : Nat
deriving DecidableEq, Repr

/-- The fields of the stream that the sender uses. -/
structure Sender where
  /-- `rtp_tx_ts_len_per_pkt`. -/
  tsLenPerPkt : Nat
  /-- `dtmf_duration`. -/
  dtmfDuration : Nat
  /-- Outgoing queue. -/
  txDtmfBuf : List Dtmf
deriving DecidableEq, Repr

/-- What `create_dtmf_payload` leaves: the payload, and whether it is the first and the last one of
its event. -/
structure DtmfPayload where
  payload : DtmfEvent
  first : Bool
  last : Bool
deriving DecidableEq, Repr

/-- `create_dtmf_payload`. Its callers have tested that the queue is not empty. -/
def createDtmfPayload (sender : Sender) (forcedLast : Bool) : Option (DtmfPayload × Sender) :=
  match sender.txDtmfBuf with
  | [] => none
  | digit :: rest =>
    let sum := (digit.duration + sender.tsLenPerPkt) % 2 ^ 32
    let duration := if sender.dtmfDuration ≤ sum then sender.dtmfDuration else sum
    let payload : DtmfEvent :=
      { event := digit.event % 2 ^ 8, eVol := 10, duration := duration % 2 ^ 16 }
    let duration := if forcedLast then sender.dtmfDuration else duration
    let first := digit.duration = 0
    if sender.dtmfDuration ≤ duration then
      let payload := { payload with eVol := payload.eVol ||| 0x80 }
      let ebitCnt := digit.ebitCnt + 1
      if ebitRetransmitCnt ≤ ebitCnt then
        some ({ payload := payload, first := first, last := true },
          { sender with txDtmfBuf := rest })
      else
        some ({ payload := payload, first := first, last := false },
          { sender with
            txDtmfBuf := { digit with duration := duration, ebitCnt := ebitCnt } :: rest })
    else
      some ({ payload := payload, first := first, last := false },
        { sender with txDtmfBuf := { digit with duration := duration } :: rest })

/-- The event of a digit, in `pjmedia_stream_dial_dtmf`. -/
def eventOf (char : UInt8) : Option Nat :=
  let dig := pjTolower char
  if pjIsdigit dig then some (dig.toNat - 48)
  else if 97 ≤ dig ∧ dig ≤ 100 then some (dig.toNat - 97 + 12)
  else if dig = 42 then some 10
  else if dig = 35 then some 11
  else if dig = 114 then some 16
  else none

/-- The size of `tx_dtmf_buf` and of `rx_dtmf_buf`. -/
def dtmfBufSize : Nat := 32

/-- `pjmedia_stream_dial_dtmf`: whether the digits are accepted. -/
def pjmediaStreamDialDtmf (sender : Sender) (digitChar : Str) : Bool × Sender :=
  if dtmfBufSize ≤ sender.txDtmfBuf.length + digitChar.length then (false, sender)
  else
    match digitChar.mapM eventOf with
    | none => (false, sender)
    | some events =>
      (true, { sender with
        txDtmfBuf := sender.txDtmfBuf ++
          events.map fun event => { event := event, duration := 0, ebitCnt := 0 } })

/-- Where the received digits go. -/
structure Digits where
  /-- A callback is installed. -/
  dtmfCb : Bool
  /-- The digits the callback was called with. -/
  called : Str
  /-- `rx_dtmf_buf`. -/
  rxDtmfBuf : Str
deriving DecidableEq, Repr

/-- A new digit goes to the callback or else to the buffer, whose oldest digit gives way. -/
def Digits.deliver (digits : Digits) (digit : UInt8) : Digits :=
  if digits.dtmfCb then { digits with called := digits.called ++ [digit] }
  else if dtmfBufSize ≤ digits.rxDtmfBuf.length then
    { digits with rxDtmfBuf := digits.rxDtmfBuf.tail ++ [digit] }
  else { digits with rxDtmfBuf := digits.rxDtmfBuf ++ [digit] }

/-- The fields of the stream that the receiver uses. -/
structure Receiver where
  /-- Current digit, none for -1. -/
  lastDtmf : Option Nat
  lastDtmfDur : Nat
  digits : Digits
deriving DecidableEq, Repr

/-- `handle_incoming_dtmf` of a payload of sufficient length. -/
def handleIncomingDtmf (receiver : Receiver) (event : DtmfEvent) : Receiver :=
  if receiver.lastDtmf = some event.event ∧ receiver.lastDtmfDur ≤ event.duration then
    { receiver with lastDtmfDur := event.duration }
  else if 16 < event.event then receiver
  else
    { lastDtmf := some event.event, lastDtmfDur := event.duration
      digits := receiver.digits.deliver (digitOf event.event) }

end Pjmedia.Stream
