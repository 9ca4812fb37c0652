import Mathlib.Data.Nat.Bitwise
import Pjproject.Lib.Run
import Pjproject.Pjlib.Int
import Pjproject.Stun.Errno
import Pjproject.Timer.TimerHeap

/-!
# STUN client transactions

The client transaction of `stun_transaction.c`, with its one timer. A call comes with the answers
of the timer heap and of the transport, and what it does to its surroundings is a list of actions.
The callbacks run under the group lock, so that an event is one step. Explicit retransmissions,
the timer that destroys a transaction and the log are left out.
-/

namespace Pjnath.Stun
open Pj

/-- `PJ_STUN_MAX_TRANSMIT_COUNT`. -/
def pjStunMaxTransmitCount : Nat := 7

/-- `PJ_STUN_TIMEOUT_VALUE`, sixteen times `PJ_STUN_RTO_VALUE`. -/
def pjStunTimeoutValue : Nat := 16 * 100

/-- `TIMER_INACTIVE`. -/
def timerInactive : Int := 0

/-- `TIMER_ACTIVE`. -/
def timerActive : Int := 1

/-- A timer entry: its `id`, and the delay it was scheduled with while the timer heap has it. -/
structure TimerEntry where
  id : Int
  scheduled : Option TimeVal
deriving DecidableEq, Repr

/-- `pj_stun_client_tsx`. -/
structure ClientTsx where
  complete : Bool
  requireRetransmit : Bool
  rtoMsec : Nat
  retransmitTimer : TimerEntry
  transmitCount : Nat
  retransmitTime : TimeVal
  lastPkt : List UInt8
deriving DecidableEq, Repr

/-- What a transaction does: it has its timer armed, calls `on_send_msg`, which returns a status,
and calls `on_complete`. Two things that happen to it are recorded as well: that its timer expires,
and that a provisional response arrives. -/
inductive Action
  | armed (delay : TimeVal)
  | sent (pkt : List UInt8) (status : Int)
  | completed (status : Int)
  | expired (delay : TimeVal)
  | provisional
deriving DecidableEq, Repr

/-- What the timer heap returns for a schedule, and `on_send_msg` for a packet. -/
structure Answers where
  timer : Int
  transport : Int

/-- `pj_stun_client_tsx_create`, in zeroed memory. -/
def pjStunClientTsxCreate (rtoMsec : Nat) : ClientTsx where
  complete := false
  requireRetransmit := false
  rtoMsec := rtoMsec
  retransmitTimer := ⟨timerInactive, none⟩
  transmitCount := 0
  retransmitTime := ⟨0, 0⟩
  lastPkt := []

/-- `pj_timer_heap_cancel_if_active` of the retransmit timer, which sets its `id` either way. -/
def cancelIfActive (tsx : ClientTsx) : ClientTsx :=
  { tsx with retransmitTimer := ⟨timerInactive, none⟩ }

/-- `pj_stun_client_tsx_stop`. -/
def pjStunClientTsxStop (tsx : ClientTsx) : ClientTsx :=
  cancelIfActive tsx

/-- `pj_timer_heap_schedule_w_grp_lock` of the retransmit timer after `retransmit_time`. -/
def scheduleTimer (tsx : ClientTsx) (answer : Int) : Int × ClientTsx :=
  if tsx.retransmitTimer.scheduled.isSome then (pjEinvalidop, tsx)
  else if answer = pjSuccess then
    (pjSuccess, { tsx with retransmitTimer := ⟨timerActive, some tsx.retransmitTime⟩ })
  else (answer, tsx)

/-- `PJ_TIME_VAL_MSEC`. -/
def pjTimeValMsec (t : TimeVal) : Int := t.sec * 1000 + t.msec

/-- The delay until the next copy, or until the timeout, in `tsx_transmit_msg`. A `long` has 32
bits. -/
def transmitDelay (tsx : ClientTsx) : TimeVal :=
  if tsx.transmitCount = 0 then ⟨0, i32 tsx.rtoMsec⟩
  else if tsx.transmitCount < pjStunMaxTransmitCount - 1 then
    let msec := u32 (u32 (pjTimeValMsec tsx.retransmitTime) <<< 1 : Nat)
    ⟨msec / 1000, msec % 1000⟩
  else ⟨pjStunTimeoutValue / 1000, pjStunTimeoutValue % 1000⟩

/-- The end of `tsx_transmit_msg`, where the packet is sent. The status `PJNATH_ESTUNDESTROYED` is
what `on_send_msg` returns if and only if it has stopped the transaction. -/
def sendPkt (tsx : ClientTsx) (modCount : Bool) (transport : Int) :
    Int × ClientTsx × List Action :=
  let tsx := if modCount then { tsx with transmitCount := u32 (tsx.transmitCount + 1) } else tsx
  let after :=
    if transport = pjnathEstundestroyed then pjStunClientTsxStop tsx
    else if transport ≠ pjSuccess then
      if modCount ∨ transport = pjEinvalidop then cancelIfActive tsx else tsx
    else tsx
  (transport, after, [.sent tsx.lastPkt transport])

/-- `tsx_transmit_msg`. -/
def tsxTransmitMsg (tsx : ClientTsx) (modCount : Bool) (answers : Answers) :
    Int × ClientTsx × List Action :=
  if tsx.retransmitTimer.id = timerInactive ∨ !tsx.requireRetransmit ∨ !modCount then
    if tsx.requireRetransmit && modCount then
      let tsx := { tsx with retransmitTime := transmitDelay tsx }
      let (status, tsx) := scheduleTimer tsx answers.timer
      if status = pjSuccess then
        let (status, after, actions) := sendPkt tsx modCount answers.transport
        (status, after, .armed tsx.retransmitTime :: actions)
      else
        (status, { tsx with retransmitTimer.id := timerInactive }, [])
    else sendPkt tsx modCount answers.transport
  else (pjEbusy, tsx, [])

/-- The first transmission, in `pj_stun_client_tsx_send_msg`. -/
def transmitFirst (tsx : ClientTsx) (answers : Answers) : Int × ClientTsx × List Action :=
  let (status, tsx, actions) := tsxTransmitMsg tsx true answers
  (status, if status = pjSuccess then tsx else cancelIfActive tsx, actions)

/-- `pj_stun_client_tsx_send_msg`. -/
def pjStunClientTsxSendMsg (tsx : ClientTsx) (retransmit : Bool) (pkt : List UInt8)
    (answers : Answers) : Int × ClientTsx × List Action :=
  if pkt = [] then (pjEinval, tsx, [])
  else if tsx.retransmitTimer.id = timerInactive then
    let tsx := { tsx with lastPkt := pkt, requireRetransmit := retransmit }
    if retransmit then transmitFirst tsx answers
    else
      -- There is no timeout timer, the retransmit timer takes its place.
      let timeout := u32 (tsx.rtoMsec * 16)
      let tsx := { tsx with
        transmitCount := pjStunMaxTransmitCount
        retransmitTime := ⟨timeout / 1000, timeout % 1000⟩ }
      let (status, tsx) := scheduleTimer tsx answers.timer
      if status = pjSuccess then
        let (status, after, actions) := transmitFirst tsx answers
        (status, after, .armed tsx.retransmitTime :: actions)
      else (status, { tsx with retransmitTimer.id := timerInactive }, [])
  else (pjEbusy, tsx, [])

/-- The call of `on_complete`, at the three places that make it. -/
def notifyComplete (tsx : ClientTsx) (status : Int) : ClientTsx × List Action :=
  if tsx.complete then (tsx, []) else ({ tsx with complete := true }, [.completed status])

/-- `retransmit_timer_callback`. -/
def retransmitTimerCallback (tsx : ClientTsx) (answers : Answers) : ClientTsx × List Action :=
  if tsx.transmitCount ≥ pjStunMaxTransmitCount then
    notifyComplete { tsx with retransmitTimer.id := timerInactive } pjnathEstuntimedout
  else
    let tsx := { tsx with retransmitTimer.id := timerInactive }
    let (status, tsx, actions) := tsxTransmitMsg tsx true answers
    if status = pjSuccess then (tsx, actions)
    else
      let (tsx, completed) := notifyComplete { tsx with retransmitTimer.id := timerInactive } status
      (tsx, actions ++ completed)

/-- A STUN message, as far as a transaction reads it: its type, and the code of its `ERROR-CODE`
attribute. -/
structure Response where
  type : Nat
  errCode : Option Int

/-- `PJ_STUN_IS_SUCCESS_RESPONSE`. -/
def pjStunIsSuccessResponse (msgType : Nat) : Bool := msgType &&& 0x0110 = 0x0100

/-- `PJ_STUN_IS_ERROR_RESPONSE`. -/
def pjStunIsErrorResponse (msgType : Nat) : Bool := msgType &&& 0x0110 = 0x0110

/-- `pj_stun_client_tsx_on_rx_msg`. -/
def pjStunClientTsxOnRxMsg (tsx : ClientTsx) (msg : Response) : Int × ClientTsx × List Action :=
  if !pjStunIsSuccessResponse msg.type && !pjStunIsErrorResponse msg.type then
    (pjnathEinstunmsgtype, tsx, [])
  else
    let tsx := cancelIfActive tsx
    match msg.errCode with
    | none => (pjSuccess, notifyComplete tsx pjSuccess)
    | some code =>
      if code ≤ 200 then (pjSuccess, tsx, [.provisional])
      else (pjSuccess, notifyComplete tsx (pjStatusFromStunCode code))

/-! ## Runs -/

/-- What happens to a transaction. -/
inductive Event
  | send (retransmit : Bool) (pkt : List UInt8) (answers : Answers)
  | expire (answers : Answers)
  | receive (msg : Response)

/-- A transaction and what it has done since it was created. -/
structure History where
  tsx : ClientTsx
  actions : List Action

/-- A transaction goes on. -/
def History.next (history : History) (outcome : ClientTsx × List Action) : History :=
  ⟨outcome.1, history.actions ++ outcome.2⟩

/-- One event. The timer heap takes an entry out before it calls its callback. -/
def step (history : History) : Event → History
  | .send retransmit pkt answers =>
    history.next (pjStunClientTsxSendMsg history.tsx retransmit pkt answers).2
  | .expire answers =>
    match history.tsx.retransmitTimer.scheduled with
    | none => history
    | some delay =>
      (history.next ({ history.tsx with retransmitTimer.scheduled := none }, [.expired delay])).next
        (retransmitTimerCallback { history.tsx with retransmitTimer.scheduled := none } answers)
  | .receive msg => history.next (pjStunClientTsxOnRxMsg history.tsx msg).2

/-- A transaction that was just created. -/
def start (rtoMsec : Nat) : History := ⟨pjStunClientTsxCreate rtoMsec, []⟩

end Pjnath.Stun
