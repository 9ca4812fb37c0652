import Pjproject.Stun.Transaction

/-!
# The discipline of a client transaction

The retransmit timer is armed as long as the outcome is open, so that a transaction which was sent
has an outcome after its timer expired often enough, and it has one outcome. What a retransmitting
transaction does with its timer is a fixed sequence that a response, or a failure, cuts short.
-/

namespace Pjnath.Stun
open List Pj

/-- A call of `on_complete`. -/
def Action.isCompleted : Action → Bool
  | .completed _ => true
  | _ => false

/-- How often `on_complete` was called. -/
def completions (actions : List Action) : Nat := actions.countP Action.isCompleted

/-- The request was sent, `on_complete` was not called, and no provisional response arrived. -/
structure Outstanding (actions : List Action) : Prop where
  sent : ∃ pkt, .sent pkt pjSuccess ∈ actions
  incomplete : completions actions = 0
  final : .provisional ∉ actions

@[simp] theorem completions_append (before after : List Action) :
    completions (before ++ after) = completions before + completions after :=
  countP_append

/-- Actions among which is no transmission leave nothing outstanding that was not. -/
theorem not_outstanding_append {before after : List Action} (h : ¬Outstanding before)
    (unsent : ∀ pkt, .sent pkt pjSuccess ∉ after) : ¬Outstanding (before ++ after) := by
  intro more
  apply h
  have sent : ∃ pkt, .sent pkt pjSuccess ∈ before := by
    have ⟨pkt, found⟩ := more.sent
    exact ⟨pkt, (mem_append.mp found).resolve_right (unsent pkt)⟩
  have none := more.incomplete
  rw [completions_append] at none
  exact ⟨sent, by omega, fun early => more.final (mem_append_left after early)⟩

variable {actions : List Action}

theorem not_outstanding_of_completed (h : completions actions = 1) :
    ¬Outstanding actions :=
  fun more => absurd more.incomplete (by omega)

/-! ## What the functions do -/

variable {answers : Answers}

variable {tsx : ClientTsx} {pkt : List UInt8}

/-- A transaction whose timer is idle. -/
def Idle (tsx : ClientTsx) : Prop := tsx.retransmitTimer = ⟨timerInactive, none⟩

/-- The timer is armed. -/
def Armed (tsx : ClientTsx) : Prop :=
  ∃ delay, tsx.retransmitTimer = ⟨timerActive, some delay⟩

theorem Idle.not_armed (h : Idle tsx) : ¬Armed tsx := by
  rintro ⟨delay, armed⟩
  rw [Idle, armed] at h
  cases h

/-- Cancelling an idle timer changes nothing. -/
theorem Idle.cancelled (h : Idle tsx) : cancelIfActive tsx = tsx := by
  cases tsx
  cases h
  rfl

/-- Clearing the `id` of an idle timer changes nothing. -/
theorem Idle.cleared (h : Idle tsx) :
    { tsx with retransmitTimer.id := timerInactive } = tsx := by
  cases tsx
  cases h
  rfl

/-- What a transmission that succeeded leaves. -/
def transmitted (tsx : ClientTsx) : ClientTsx :=
  { tsx with
    retransmitTime := transmitDelay tsx
    retransmitTimer := ⟨timerActive, some (transmitDelay tsx)⟩
    transmitCount := u32 (tsx.transmitCount + 1) }

/-- A retransmitting transaction arms its timer, then it sends. -/
theorem tsxTransmitMsg_eq (idle : Idle tsx) (retransmit : tsx.requireRetransmit)
    (answers : Answers) : tsxTransmitMsg tsx true answers =
      if answers.timer = pjSuccess then
        (answers.transport,
          if answers.transport = pjSuccess then transmitted tsx else cancelIfActive (transmitted tsx),
          [.armed (transmitDelay tsx), .sent tsx.lastPkt answers.transport])
      else (answers.timer, { tsx with retransmitTime := transmitDelay tsx }, []) := by
  rw [Idle] at idle
  by_cases timer : answers.timer = pjSuccess
  · have unequal : pjnathEstundestroyed ≠ pjSuccess := by decide
    by_cases transport : answers.transport = pjSuccess
    · simp [tsxTransmitMsg, idle, retransmit, scheduleTimer, timer, transport, sendPkt, transmitted,
        unequal.symm]
    · simp [tsxTransmitMsg, idle, retransmit, scheduleTimer, timer, transport, sendPkt, transmitted,
        pjStunClientTsxStop]
  · simp [tsxTransmitMsg, idle, retransmit, scheduleTimer, timer]

/-- A transmission that succeeds counts one more copy. -/
theorem tsxTransmitMsg_done (idle : Idle tsx) (retransmit : tsx.requireRetransmit)
    (done : (tsxTransmitMsg tsx true answers).1 = pjSuccess) :
    (tsxTransmitMsg tsx true answers).2 = (transmitted tsx,
      [.armed (transmitDelay tsx), .sent tsx.lastPkt pjSuccess]) := by
  rw [tsxTransmitMsg_eq idle retransmit] at done ⊢
  by_cases timer : answers.timer = pjSuccess
  · rw [if_pos timer] at done ⊢
    have transport : answers.transport = pjSuccess := done
    simp [transport]
  · rw [if_neg timer] at done
    exact absurd done timer

/-- The other transactions only send. -/
theorem tsxTransmitMsg_once (retransmit : tsx.requireRetransmit = false) (answers : Answers) :
    tsxTransmitMsg tsx true answers =
      (answers.transport,
        if answers.transport = pjSuccess then
          { tsx with transmitCount := u32 (tsx.transmitCount + 1) }
        else cancelIfActive { tsx with transmitCount := u32 (tsx.transmitCount + 1) },
        [.sent tsx.lastPkt answers.transport]) := by
  have unequal : pjnathEstundestroyed ≠ pjSuccess := by decide
  by_cases transport : answers.transport = pjSuccess
  · simp [tsxTransmitMsg, retransmit, transport, sendPkt, unequal.symm]
  · simp [tsxTransmitMsg, retransmit, transport, sendPkt, pjStunClientTsxStop]

/-- A transmission that fails leaves the timer idle and nothing sent, one that succeeds leaves it
armed, for a copy to come or for the timeout. -/
structure Sends (tsx : ClientTsx) (outcome : Int × ClientTsx × List Action) : Prop where
  complete : outcome.2.1.complete = tsx.complete
  rto : outcome.2.1.rtoMsec = tsx.rtoMsec
  retransmit : outcome.2.1.requireRetransmit = tsx.requireRetransmit
  pkt : outcome.2.1.lastPkt = tsx.lastPkt
  silent : completions outcome.2.2 = 0
  failed : outcome.1 ≠ pjSuccess → Idle outcome.2.1 ∧ ∀ pkt, .sent pkt pjSuccess ∉ outcome.2.2
  done : outcome.1 = pjSuccess → Armed outcome.2.1 ∧
    (outcome.2.1.requireRetransmit ∨ pjStunMaxTransmitCount ≤ outcome.2.1.transmitCount)

section
variable (idle : Idle tsx)
include idle

theorem tsxTransmitMsg_sends (retransmit : tsx.requireRetransmit) (answers : Answers) :
    Sends tsx (tsxTransmitMsg tsx true answers) := by
  rw [tsxTransmitMsg_eq idle retransmit]
  by_cases timer : answers.timer = pjSuccess
  · rw [if_pos timer]
    by_cases transport : answers.transport = pjSuccess
    · constructor <;> simp [transport, transmitted, Armed, completions, Action.isCompleted, retransmit]
    · constructor <;>
        simp [transport, transmitted, cancelIfActive, Idle, completions, Action.isCompleted,
          Ne.symm transport]
  · constructor <;> simp [timer, completions]
    exact idle

/-- The first transmission stops the timer if it fails, which it is then already. -/
theorem transmitFirst_eq (retransmit : tsx.requireRetransmit) (answers : Answers) :
    transmitFirst tsx answers = tsxTransmitMsg tsx true answers := by
  have transmit := tsxTransmitMsg_sends idle retransmit answers
  unfold transmitFirst
  by_cases status : (tsxTransmitMsg tsx true answers).1 = pjSuccess
  · simp only [if_pos status]
  · simp [(transmit.failed status).1.cancelled]

/-- A retransmitting transaction starts with a transmission. -/
theorem pjStunClientTsxSendMsg_retransmit (nonempty : pkt ≠ []) (answers : Answers) :
    pjStunClientTsxSendMsg tsx true pkt answers =
      tsxTransmitMsg { tsx with lastPkt := pkt, requireRetransmit := true } true answers := by
  rw [← transmitFirst_eq (by exact idle) rfl]
  rw [Idle] at idle
  simp [pjStunClientTsxSendMsg, nonempty, idle]

/-- The others arm the timer once, for the timeout. -/
theorem pjStunClientTsxSendMsg_once (nonempty : pkt ≠ []) (answers : Answers) :
    Sends { tsx with lastPkt := pkt, requireRetransmit := false }
      (pjStunClientTsxSendMsg tsx false pkt answers) := by
  rw [Idle] at idle
  by_cases timer : answers.timer = pjSuccess
  · by_cases transport : answers.transport = pjSuccess
    · constructor <;>
        simp [pjStunClientTsxSendMsg, nonempty, idle, scheduleTimer, timer, transmitFirst,
          tsxTransmitMsg_once, transport, completions, Action.isCompleted, Armed, u32_eq,
          pjStunMaxTransmitCount]
    · constructor <;>
        simp [pjStunClientTsxSendMsg, nonempty, idle, scheduleTimer, timer, transmitFirst,
          tsxTransmitMsg_once, transport, completions, Action.isCompleted, Idle, cancelIfActive,
          Ne.symm transport]
  · constructor <;>
      simp [pjStunClientTsxSendMsg, nonempty, idle, scheduleTimer, timer, completions, Idle]

theorem pjStunClientTsxSendMsg_sends (retransmit : Bool) (nonempty : pkt ≠ []) (answers : Answers) :
    Sends { tsx with lastPkt := pkt, requireRetransmit := retransmit }
      (pjStunClientTsxSendMsg tsx retransmit pkt answers) := by
  cases retransmit with
  | true =>
    rw [pjStunClientTsxSendMsg_retransmit idle nonempty]
    exact tsxTransmitMsg_sends (by exact idle) rfl answers
  | false => exact pjStunClientTsxSendMsg_once idle nonempty answers

end

/-- A call on a transaction whose timer is armed is refused. -/
theorem pjStunClientTsxSendMsg_refused (armed : Armed tsx) (retransmit : Bool) (pkt : List UInt8)
    (answers : Answers) :
    (pjStunClientTsxSendMsg tsx retransmit pkt answers).2 = (tsx, []) := by
  have ⟨delay, timer⟩ := armed
  unfold pjStunClientTsxSendMsg
  split
  · rfl
  · have busy : tsx.retransmitTimer.id ≠ timerInactive := by simp [timer, timerActive, timerInactive]
    rw [if_neg busy]

/-- However `on_complete` comes to be called, it is called once. -/
theorem notifyComplete_eq (tsx : ClientTsx) (status : Int) :
    (notifyComplete tsx status).1 = { tsx with complete := true } := by
  unfold notifyComplete
  split
  · next complete => rw [← complete]
  · rfl

theorem notifyComplete_completions (tsx : ClientTsx) (status : Int) :
    tsx.complete.toNat + completions (notifyComplete tsx status).2 = 1 := by
  unfold notifyComplete
  split
  · next complete => simp [complete, completions]
  · next incomplete => simp [incomplete, completions, Action.isCompleted]

/-! ## The timer is armed while the outcome is open -/

variable {history : History}

/-- What holds after every run. -/
structure Sound (history : History) : Prop where
  timer : Idle history.tsx ∨ Armed history.tsx
  once : completions history.actions = history.tsx.complete.toNat
  outstanding : Outstanding history.actions → Armed history.tsx
  timeout : Armed history.tsx →
    history.tsx.requireRetransmit ∨ pjStunMaxTransmitCount ≤ history.tsx.transmitCount

/-- A transaction that is complete and idle. -/
theorem Sound.of_complete (idle : Idle history.tsx) (complete : history.tsx.complete)
    (once : completions history.actions = 1) : Sound history where
  timer := .inl idle
  once := by rw [once, complete]; rfl
  outstanding := fun more => absurd more (not_outstanding_of_completed once)
  timeout := fun armed => absurd armed idle.not_armed

/-- A transaction that is idle and has nothing outstanding. -/
theorem Sound.of_idle (idle : Idle history.tsx)
    (once : completions history.actions = history.tsx.complete.toNat)
    (settled : ¬Outstanding history.actions) : Sound history where
  timer := .inl idle
  once := once
  outstanding := fun more => absurd more settled
  timeout := fun armed => absurd armed idle.not_armed

theorem sound_start (rtoMsec : Nat) : Sound (start rtoMsec) := by
  have unsent : ¬Outstanding ([] : List Action) := fun more => by
    have ⟨pkt, found⟩ := more.sent
    cases found
  exact Sound.of_idle (show Idle (pjStunClientTsxCreate rtoMsec) from rfl) rfl unsent

theorem Sound.send (h : Sound history) (retransmit : Bool) (pkt : List UInt8) (answers : Answers) :
    Sound (step history (.send retransmit pkt answers)) := by
  cases h.timer with
  | inr armed =>
    have refused := pjStunClientTsxSendMsg_refused armed retransmit pkt answers
    simpa only [step, History.next, refused, append_nil] using h
  | inl idle =>
    have settled : ¬Outstanding history.actions := fun more =>
      idle.not_armed (h.outstanding more)
    by_cases nonempty : pkt = []
    · simpa [step, History.next, pjStunClientTsxSendMsg, nonempty] using h
    · have sends := pjStunClientTsxSendMsg_sends idle retransmit nonempty answers
      have once : completions (step history (.send retransmit pkt answers)).actions =
          (step history (.send retransmit pkt answers)).tsx.complete.toNat := by
        simp [step, History.next, completions_append, sends.silent, sends.complete, h.once]
      by_cases status : (pjStunClientTsxSendMsg history.tsx retransmit pkt answers).1 = pjSuccess
      · have done := sends.done status
        exact ⟨.inr done.1, once, fun _ => done.1, fun _ => done.2⟩
      · have failed := sends.failed status
        exact Sound.of_idle failed.1 once (not_outstanding_append settled failed.2)

/-- A callback that ends with `on_complete`, on a transaction whose timer has expired. -/
theorem Sound.notified {history : History} (once : completions history.actions =
    history.tsx.complete.toNat) (idle : Idle history.tsx) (status : Int) :
    Sound (history.next (notifyComplete history.tsx status)) := by
  have complete := notifyComplete_eq history.tsx status
  apply Sound.of_complete
  · rw [Idle] at idle
    simp only [History.next, complete, Idle, idle]
  · simp only [History.next, complete]
  · have total := notifyComplete_completions history.tsx status
    simpa only [History.next, completions_append, once] using total

/-- The transaction when its timer has expired, which the callback goes on with. -/
def expired (history : History) (delay : TimeVal) : History :=
  history.next (cancelIfActive history.tsx, [.expired delay])

section
variable {delay : TimeVal} (timer : history.tsx.retransmitTimer = ⟨timerActive, some delay⟩)
include timer

/-- The timer expires on a transaction that has no more copies to send. -/
theorem step_timeout (last : pjStunMaxTransmitCount ≤ history.tsx.transmitCount)
    (answers : Answers) :
    step history (.expire answers) = (expired history delay).next
      (notifyComplete (expired history delay).tsx pjnathEstuntimedout) := by
  simp only [step, timer, History.next, retransmitTimerCallback, ge_iff_le, last, if_true]
  rfl

/-- The timer expires on a transaction that has a copy to send. -/
theorem step_retransmit (retransmit : history.tsx.requireRetransmit)
    (more : history.tsx.transmitCount < pjStunMaxTransmitCount) (answers : Answers) :
    let outcome := tsxTransmitMsg (expired history delay).tsx true answers
    let sent := (expired history delay).next outcome.2
    step history (.expire answers) =
      if outcome.1 = pjSuccess then sent else sent.next (notifyComplete sent.tsx outcome.1) := by
  intro outcome sent
  have sends : Sends (expired history delay).tsx outcome :=
    tsxTransmitMsg_sends (show Idle (cancelIfActive history.tsx) from rfl) retransmit answers
  have callback : retransmitTimerCallback
      { history.tsx with retransmitTimer := ⟨timerActive, none⟩ } answers =
        if outcome.1 = pjSuccess then outcome.2
        else
          let completed := notifyComplete
            { outcome.2.1 with retransmitTimer.id := timerInactive } outcome.1
          (completed.1, outcome.2.2 ++ completed.2) := by
    unfold retransmitTimerCallback
    rw [if_neg (Nat.not_le.mpr more)]
    rfl
  simp only [step, timer, callback]
  by_cases status : outcome.1 = pjSuccess
  · simp only [if_pos status]
    rfl
  · have cleared := (sends.failed status).1.cleared
    simp only [if_neg status, cleared, sent, expired, History.next, append_assoc]

end

theorem Sound.expire (h : Sound history) (answers : Answers) :
    Sound (step history (.expire answers)) := by
  cases h.timer with
  | inl idle =>
    rw [Idle] at idle
    simpa only [step, idle] using h
  | inr armed =>
    have timeout := h.timeout armed
    have ⟨delay, timer⟩ := armed
    have once : completions (expired history delay).actions =
        (expired history delay).tsx.complete.toNat := by
      rw [expired, History.next, completions_append, h.once]
      rfl
    have idle : Idle (expired history delay).tsx := rfl
    by_cases last : pjStunMaxTransmitCount ≤ history.tsx.transmitCount
    · rw [step_timeout timer last]
      exact Sound.notified once idle pjnathEstuntimedout
    · have retransmit := timeout.resolve_right last
      have sends := tsxTransmitMsg_sends idle retransmit answers
      have stillOnce : completions ((expired history delay).next
          (tsxTransmitMsg (expired history delay).tsx true answers).2).actions =
            (tsxTransmitMsg (expired history delay).tsx true answers).2.1.complete.toNat := by
        simp [History.next, completions_append, once, sends.silent, sends.complete]
      rw [step_retransmit timer retransmit (Nat.not_le.mp last)]
      by_cases status : (tsxTransmitMsg (expired history delay).tsx true answers).1 = pjSuccess
      · have done := sends.done status
        rw [if_pos status]
        exact ⟨.inr done.1, stillOnce, fun _ => done.1, fun _ => done.2⟩
      · rw [if_neg status]
        exact Sound.notified stillOnce (sends.failed status).1 _

/-- What a response does: it cancels the timer, and unless it is provisional completes the
transaction. -/
theorem step_receive (history : History) (msg : Response) :
    step history (.receive msg) = history ∨
    step history (.receive msg) = history.next (cancelIfActive history.tsx, [.provisional]) ∨
    ∃ status, step history (.receive msg) =
      (history.next (cancelIfActive history.tsx, [])).next
        (notifyComplete (cancelIfActive history.tsx) status) := by
  simp only [step, pjStunClientTsxOnRxMsg, History.next]
  split
  · exact .inl (by simp)
  · split
    · exact .inr (.inr ⟨pjSuccess, by simp⟩)
    · next code _ =>
      split
      · exact .inr (.inl rfl)
      · exact .inr (.inr ⟨pjStatusFromStunCode code, by simp⟩)

theorem Sound.receive (h : Sound history) (msg : Response) :
    Sound (step history (.receive msg)) := by
  have idle : Idle (cancelIfActive history.tsx) := rfl
  obtain unchanged | provisional | ⟨status, final⟩ := step_receive history msg
  · rwa [unchanged]
  · rw [provisional]
    apply Sound.of_idle idle
    · simp only [History.next, completions_append, h.once]
      rfl
    · intro more
      exact more.final (mem_append_right _ (mem_singleton.mpr rfl))
  · have once : completions (history.actions ++ []) = (cancelIfActive history.tsx).complete.toNat := by
      rw [append_nil, h.once]
      rfl
    rw [final]
    have settled := @Sound.notified (history.next (cancelIfActive history.tsx, [])) once idle status
    exact settled

theorem Sound.step (h : Sound history) (event : Event) :
    Sound (step history event) := by
  cases event with
  | send retransmit pkt answers => exact h.send retransmit pkt answers
  | expire answers => exact h.expire answers
  | receive msg => exact h.receive msg

/-- Every run is sound. -/
theorem sound_run (rtoMsec : Nat) (events : List Event) :
    Sound (events.foldl Stun.step (start rtoMsec)) := by
  have always : Run.Always Stun.step Sound (start rtoMsec) events :=
    Run.always (fun _ event h _ => h.step event) (sound_start rtoMsec)
      (Run.meets_of_forall (fun _ _ => trivial) _ _ : Run.Meets Stun.step (fun _ _ => True) _ _)
  exact always.last

/-! ## An outcome in the end -/

theorem complete_expire (h : Sound history) (complete : history.tsx.complete) (answers : Answers) :
    (step history (.expire answers)).tsx.complete := by
  cases h.timer with
  | inl idle =>
    rw [Idle] at idle
    simpa only [step, idle] using complete
  | inr armed =>
    have timeout := h.timeout armed
    have ⟨delay, timer⟩ := armed
    by_cases last : pjStunMaxTransmitCount ≤ history.tsx.transmitCount
    · rw [step_timeout timer last, History.next, notifyComplete_eq]
    · have retransmit := timeout.resolve_right last
      have sends := tsxTransmitMsg_sends (show Idle (expired history delay).tsx from rfl) retransmit
        answers
      rw [step_retransmit timer retransmit (Nat.not_le.mp last)]
      split
      · rw [History.next, sends.complete]
        exact complete
      · simp only [History.next, notifyComplete_eq]

theorem complete_expiries (h : Sound history) (complete : history.tsx.complete)
    (answers : List Answers) :
    completions (answers.foldl (fun history answer => step history (.expire answer)) history).actions
      = 1 := by
  induction answers generalizing history with
  | nil => rw [foldl_nil, h.once, complete]; rfl
  | cons answer rest ih => exact ih (h.expire answer) (complete_expire h complete answer)

/-- An armed timer that expires often enough brings the outcome. -/
theorem armed_expiries (h : Sound history) (armed : Armed history.tsx) (answers : List Answers)
    (enough : pjStunMaxTransmitCount - history.tsx.transmitCount < answers.length) :
    completions (answers.foldl (fun history answer => step history (.expire answer)) history).actions
      = 1 := by
  induction answers generalizing history with
  | nil => exact absurd enough (Nat.not_lt_zero _)
  | cons answer rest ih =>
    have next : Sound (step history (.expire answer)) := h.expire answer
    have timeout := h.timeout armed
    have ⟨delay, timer⟩ := armed
    by_cases last : pjStunMaxTransmitCount ≤ history.tsx.transmitCount
    · apply complete_expiries next
      rw [step_timeout timer last, History.next, notifyComplete_eq]
    · have retransmit := timeout.resolve_right last
      have idle : Idle (expired history delay).tsx := rfl
      have sends := tsxTransmitMsg_sends idle retransmit answer
      have outcome := step_retransmit timer retransmit (Nat.not_le.mp last) answer
      dsimp only at outcome
      by_cases status : (tsxTransmitMsg (expired history delay).tsx true answer).1 = pjSuccess
      · rw [if_pos status] at outcome
        have count : (step history (.expire answer)).tsx.transmitCount =
            history.tsx.transmitCount + 1 := by
          rw [outcome, History.next]
          have done := congrArg (fun result => result.1.transmitCount)
            (tsxTransmitMsg_done idle retransmit status)
          have small : pjStunMaxTransmitCount = 7 := rfl
          have bound : history.tsx.transmitCount + 1 < 2 ^ 32 := by omega
          exact done.trans (u32_natCast bound)
        apply ih next
        · rw [outcome]
          exact (sends.done status).1
        · rw [length_cons] at enough
          omega
      · rw [if_neg status] at outcome
        apply complete_expiries next
        rw [outcome, History.next, notifyComplete_eq]

/-! ## The pace of the copies -/

variable {rtoMsec : Nat}

/-- A call of `on_send_msg`. -/
def Action.isSent : Action → Bool
  | .sent _ _ => true
  | _ => false

/-- Nothing is sent after `on_complete`. -/
def Quiet (actions : List Action) : Prop :=
  actions.Pairwise fun earlier later => earlier.isCompleted → later.isSent = false

/-- What is seen of the timer and of the copies, the delays in milliseconds. -/
inductive Moment
  | armed (msec : Int)
  | sent
  | expired (msec : Int)
deriving DecidableEq, Repr

/-- The moment of an action. -/
def moment : Action → Option Moment
  | .armed delay => some (.armed (pjTimeValMsec delay))
  | .sent _ _ => some .sent
  | .expired delay => some (.expired (pjTimeValMsec delay))
  | .completed _ | .provisional => none

/-- The moments of a run. -/
def moments (actions : List Action) : List Moment := actions.filterMap moment

/-- The delays after the copies: each is twice the one before it, the last is the timeout. -/
def waits (rtoMsec : Nat) : List Int :=
  (List.range (pjStunMaxTransmitCount - 1)).map (fun copy => (rtoMsec : Int) * 2 ^ copy) ++
    [(pjStunTimeoutValue : Int)]

/-- The moments of one copy, from when its timer is armed to when it expires. -/
def copyMoments (wait : Int) : List Moment := [.armed wait, .sent, .expired wait]

/-- The moments of a retransmitting transaction that no response and no failure cuts short. -/
def timeline (rtoMsec : Nat) : List Moment := (waits rtoMsec).flatMap copyMoments

/-- `pj_stun_client_tsx_send_msg` is called to start the transaction, or on one that is busy. -/
def StartsOnce (history : History) : Event → Prop
  | .send _ _ _ => history.tsx.retransmitTimer.id ≠ timerInactive ∨
      history.tsx = pjStunClientTsxCreate history.tsx.rtoMsec
  | .expire _ | .receive _ => True

instance (history : History) : ∀ event, Decidable (StartsOnce history event)
  | .send _ _ _ => inferInstanceAs (Decidable (_ ∨ _))
  | .expire _ | .receive _ => inferInstanceAs (Decidable True)

theorem Quiet.append {before after : List Action} (h : Quiet before) (more : Quiet after)
    (apart : completions before = 0 ∨ ∀ action ∈ after, action.isSent = false) :
    Quiet (before ++ after) := by
  apply pairwise_append.mpr
  have quiet : ∀ earlier ∈ before, ∀ later ∈ after, earlier.isCompleted → later.isSent = false := by
    intro earlier early later late completed
    cases apart with
    | inl incomplete =>
      exact absurd completed (countP_eq_zero.mp incomplete earlier early)
    | inr unsent => exact unsent later late
  exact ⟨h, more, quiet⟩

@[simp] theorem moments_append (before after : List Action) :
    moments (before ++ after) = moments before ++ moments after :=
  filterMap_append

/-- The moments of the first copies. -/
def copiesMoments (rtoMsec copies : Nat) : List Moment :=
  ((waits rtoMsec).take copies).flatMap copyMoments

theorem copiesMoments_succ {copies : Nat} {wait : Int}
    (next : (waits rtoMsec)[copies]? = some wait) :
    copiesMoments rtoMsec (copies + 1) = copiesMoments rtoMsec copies ++ copyMoments wait := by
  rw [copiesMoments, take_add_one, next, flatMap_append]
  simp [copiesMoments]

theorem copiesMoments_initial (rtoMsec copies : Nat) :
    copiesMoments rtoMsec copies <+: timeline rtoMsec := by
  have whole : timeline rtoMsec = copiesMoments rtoMsec copies ++
      ((waits rtoMsec).drop copies).flatMap copyMoments := by
    rw [copiesMoments, ← flatMap_append, take_append_drop]
    rfl
  rw [whole]
  exact prefix_append _ _

/-- A copy was sent, and its timer has not expired. -/
structure Waiting (rtoMsec copies : Nat) (history : History) : Prop where
  count : history.tsx.transmitCount = copies + 1
  wait : (waits rtoMsec)[copies]? = some (pjTimeValMsec history.tsx.retransmitTime)
  scheduled : history.tsx.retransmitTimer = ⟨timerActive, some history.tsx.retransmitTime⟩
  seen : moments history.actions = copiesMoments rtoMsec copies ++
    [.armed (pjTimeValMsec history.tsx.retransmitTime), .sent]

theorem waits_doubled (rtoMsec : Nat) {copies : Nat} (bound : copies < pjStunMaxTransmitCount - 1) :
    (waits rtoMsec)[copies]? = some ((rtoMsec : Int) * 2 ^ copies) := by
  have length : copies < ((List.range (pjStunMaxTransmitCount - 1)).map
      fun copy => (rtoMsec : Int) * 2 ^ copy).length := by
    rwa [length_map, length_range]
  rw [waits, getElem?_append_left length, getElem?_map, getElem?_range bound]
  rfl

/-- A time in seconds and milliseconds. -/
theorem pjTimeValMsec_split (msec : Nat) :
    pjTimeValMsec ⟨(msec : Int) / 1000, (msec : Int) % 1000⟩ = msec :=
  Int.ediv_mul_add_emod _ _

/-- The copies so far are on time, the last of them is over, and the next one is due. -/
structure Due (copies : Nat) (history : History) : Prop where
  bound : copies < pjStunMaxTransmitCount
  count : history.tsx.transmitCount = copies
  previous : ∀ before, copies = before + 1 →
    (waits history.tsx.rtoMsec)[before]? = some (pjTimeValMsec history.tsx.retransmitTime)
  seen : moments history.actions = copiesMoments history.tsx.rtoMsec copies

/-- The delay after the copy that is due. -/
theorem Due.transmitDelay {copies : Nat} (h : Due copies history)
    (small : history.tsx.rtoMsec < 2 ^ 27) : (waits history.tsx.rtoMsec)[copies]? =
      some (pjTimeValMsec (Stun.transmitDelay history.tsx)) := by
  have count := h.count
  have bound := h.bound
  cases copies with
  | zero =>
    have first : Stun.transmitDelay history.tsx = ⟨0, history.tsx.rtoMsec⟩ := by
      rw [Stun.transmitDelay, if_pos count, i32_natCast (by omega)]
    rw [waits_doubled history.tsx.rtoMsec (by decide), first]
    simp [pjTimeValMsec]
  | succ before =>
    by_cases double : before + 1 < pjStunMaxTransmitCount - 1
    · have last : pjTimeValMsec history.tsx.retransmitTime = (history.tsx.rtoMsec * 2 ^ before : Nat) := by
        have known := h.previous before rfl
        rw [waits_doubled history.tsx.rtoMsec (by omega)] at known
        rw [← Option.some.inj known]
        rfl
      have most : pjStunMaxTransmitCount - 1 = 6 := rfl
      have power : 2 ^ (before + 1) ≤ 2 ^ 5 := Nat.pow_le_pow_right (by decide) (by omega)
      have fits : history.tsx.rtoMsec * 2 ^ (before + 1) < 2 ^ 32 :=
        calc history.tsx.rtoMsec * 2 ^ (before + 1) ≤ history.tsx.rtoMsec * 2 ^ 5 := Nat.mul_le_mul_left _ power
          _ < 2 ^ 32 := by omega
      have halves : history.tsx.rtoMsec * 2 ^ before * 2 = history.tsx.rtoMsec * 2 ^ (before + 1) := by
        rw [Nat.mul_assoc, ← Nat.pow_succ]
      have half : history.tsx.rtoMsec * 2 ^ before < 2 ^ 32 := by
        rw [← halves] at fits
        exact lt_of_le_of_lt (Nat.le_mul_of_pos_right _ (by decide)) fits
      have doubled : u32 ((u32 (pjTimeValMsec history.tsx.retransmitTime) <<< 1 : Nat) : Int) =
          history.tsx.rtoMsec * 2 ^ (before + 1) := by
        rw [last, u32_natCast half, Nat.shiftLeft_eq, Nat.pow_one, halves, u32_natCast fits]
      have delay : Stun.transmitDelay history.tsx = ⟨((history.tsx.rtoMsec * 2 ^ (before + 1) : Nat) : Int) / 1000,
          ((history.tsx.rtoMsec * 2 ^ (before + 1) : Nat) : Int) % 1000⟩ := by
        rw [Stun.transmitDelay, if_neg (by omega), if_pos (by omega), doubled]
      rw [waits_doubled history.tsx.rtoMsec double, delay, pjTimeValMsec_split]
      rfl
    · have last : before = 5 := by
        have most : pjStunMaxTransmitCount = 7 := rfl
        omega
      have timeout : Stun.transmitDelay history.tsx = ⟨pjStunTimeoutValue / 1000, pjStunTimeoutValue % 1000⟩ := by
        rw [Stun.transmitDelay, if_neg (by omega), if_neg (by omega)]
      rw [timeout, last]
      rfl

section
variable {copies : Nat} (h : Due copies history) (idle : Idle history.tsx)
  (retransmit : history.tsx.requireRetransmit) (small : history.tsx.rtoMsec < 2 ^ 27)
include h idle retransmit small

/-- What a transmission adds to the moments of the copies before it. -/
theorem Due.waiting (done : (tsxTransmitMsg history.tsx true answers).1 = pjSuccess) :
    Waiting history.tsx.rtoMsec copies (history.next (tsxTransmitMsg history.tsx true answers).2) := by
  rw [tsxTransmitMsg_done idle retransmit done]
  have most : pjStunMaxTransmitCount = 7 := rfl
  have bound := h.bound
  have fits : copies + 1 < 2 ^ 32 := by omega
  constructor
  · change u32 (history.tsx.transmitCount + 1) = copies + 1
    rw [h.count]
    exact u32_natCast fits
  · exact h.transmitDelay small
  · rfl
  · rw [History.next, moments_append, h.seen]
    rfl

/-- A transmission that fails adds the start of what one that succeeds adds. -/
theorem Due.initial (answers : Answers) :
    moments (history.next (tsxTransmitMsg history.tsx true answers).2).actions <+:
      timeline history.tsx.rtoMsec := by
  have wait := h.transmitDelay small
  have next := copiesMoments_initial history.tsx.rtoMsec (copies + 1)
  rw [copiesMoments_succ wait] at next
  rw [tsxTransmitMsg_eq idle retransmit, History.next, moments_append, h.seen]
  by_cases timer : answers.timer = pjSuccess
  · rw [if_pos timer]
    apply List.IsPrefix.trans _ next
    apply (prefix_append_right_inj _).mpr
    exact ⟨[.expired (pjTimeValMsec (Stun.transmitDelay history.tsx))], rfl⟩
  · rw [if_neg timer]
    exact (append_nil _).symm ▸ (prefix_append _ _).trans next

end

/-- What holds after a run in which the transaction is started once. -/
structure Paced (rtoMsec : Nat) (history : History) : Prop where
  rto : history.tsx.rtoMsec = rtoMsec
  quiet : Quiet history.actions
  finished : history.tsx.complete → Idle history.tsx
  fresh : history.tsx.lastPkt = [] → moments history.actions = [] ∧ Idle history.tsx
  pace : history.tsx.requireRetransmit → rtoMsec < 2 ^ 27 →
    moments history.actions <+: timeline rtoMsec
  waiting : history.tsx.requireRetransmit → rtoMsec < 2 ^ 27 → Armed history.tsx →
    ∃ copies, Waiting rtoMsec copies history

theorem paced_start (rtoMsec : Nat) : Paced rtoMsec (start rtoMsec) where
  rto := rfl
  quiet := List.Pairwise.nil
  finished := fun complete => (nomatch complete)
  fresh := fun _ => ⟨rfl, rfl⟩
  pace := fun retransmit => (nomatch retransmit)
  waiting := fun retransmit => (nomatch retransmit)

theorem quiet_of_silent (h : completions actions = 0) : Quiet actions := by
  apply pairwise_of_forall_mem_list
  intro earlier early later _ completed
  exact absurd completed (countP_eq_zero.mp h earlier early)

/-- A callback that ends with `on_complete`, on a transaction whose timer is idle. -/
theorem Paced.notified {rtoMsec : Nat} {history : History} (h : Paced rtoMsec history)
    (idle : Idle history.tsx) (status : Int) :
    Paced rtoMsec (history.next (notifyComplete history.tsx status)) := by
  have after := notifyComplete_eq history.tsx status
  have unseen : moments (notifyComplete history.tsx status).2 = [] := by
    unfold notifyComplete
    split <;> rfl
  have unsent : ∀ action ∈ (notifyComplete history.tsx status).2, action.isSent = false := by
    unfold notifyComplete
    split <;> simp [Action.isSent]
  have still : Idle (history.next (notifyComplete history.tsx status)).tsx := by
    rw [Idle] at idle
    simp only [History.next, after, Idle, idle]
  constructor
  · simp only [History.next, after, h.rto]
  · apply h.quiet.append _ (.inr unsent)
    unfold notifyComplete
    split <;> simp [Quiet]
  · exact fun _ => still
  · intro unstarted
    simp only [History.next, after] at unstarted
    simp only [History.next, moments_append, unseen, append_nil]
    exact ⟨(h.fresh unstarted).1, still⟩
  · simp only [History.next, after, moments_append, unseen, append_nil]
    exact h.pace
  · exact fun _ _ armed => absurd armed still.not_armed

/-- A transmission that is due. -/
theorem Paced.transmit {history : History} (idle : Idle history.tsx)
    (retransmit : history.tsx.requireRetransmit) (incomplete : history.tsx.complete = false)
    (silent : completions history.actions = 0) (started : history.tsx.lastPkt ≠ [])
    (due : history.tsx.rtoMsec < 2 ^ 27 → ∃ copies, Due copies history) (answers : Answers) :
    Paced history.tsx.rtoMsec (history.next (tsxTransmitMsg history.tsx true answers).2) := by
  have sends := tsxTransmitMsg_sends idle retransmit answers
  constructor
  · exact sends.rto
  · apply quiet_of_silent
    rw [History.next, completions_append, silent, sends.silent]
  · intro complete
    rw [History.next, sends.complete, incomplete] at complete
    cases complete
  · intro unstarted
    rw [History.next, sends.pkt] at unstarted
    exact absurd unstarted started
  · intro _ small
    have ⟨copies, next⟩ := due small
    exact next.initial idle retransmit small answers
  · intro _ small armed
    have done : (tsxTransmitMsg history.tsx true answers).1 = pjSuccess := by
      by_contra status
      exact (sends.failed status).1.not_armed armed
    have ⟨copies, next⟩ := due small
    exact ⟨copies, next.waiting idle retransmit small done⟩

section
variable (h : Paced rtoMsec history)
include h

theorem Paced.send (sound : Sound history) {retransmit : Bool}
    (starts : StartsOnce history (.send retransmit pkt answers)) :
    Paced rtoMsec (step history (.send retransmit pkt answers)) := by
  cases sound.timer with
  | inr armed =>
    have refused := pjStunClientTsxSendMsg_refused armed retransmit pkt answers
    simpa only [step, History.next, refused, append_nil] using h
  | inl idle =>
    by_cases nonempty : pkt = []
    · simpa [step, History.next, pjStunClientTsxSendMsg, nonempty] using h
    · have created : history.tsx = pjStunClientTsxCreate history.tsx.rtoMsec := by
        apply Or.resolve_left starts
        rw [Idle] at idle
        simp [idle]
      have incomplete : history.tsx.complete = false := by rw [created]; rfl
      have unseen : moments history.actions = [] := (h.fresh (by rw [created]; rfl)).1
      have silent : completions history.actions = 0 := by rw [sound.once, incomplete]; rfl
      have sends := pjStunClientTsxSendMsg_sends idle retransmit nonempty answers
      cases retransmit with
      | true =>
        have due : Due 0
            ⟨{ history.tsx with lastPkt := pkt, requireRetransmit := true }, history.actions⟩ :=
          ⟨by decide, by rw [created]; rfl, fun _ h => (nomatch h), unseen⟩
        have paced := @Paced.transmit
          ⟨{ history.tsx with lastPkt := pkt, requireRetransmit := true }, history.actions⟩ idle rfl
          incomplete silent nonempty (fun _ => ⟨0, due⟩) answers
        rw [step, pjStunClientTsxSendMsg_retransmit idle nonempty, ← h.rto]
        exact paced
      | false =>
        constructor
        · rw [step, History.next, sends.rto, ← h.rto]
        · apply quiet_of_silent
          rw [step, History.next, completions_append, silent, sends.silent]
        · intro complete
          rw [step, History.next, sends.complete, incomplete] at complete
          cases complete
        · intro unstarted
          rw [step, History.next, sends.pkt] at unstarted
          exact absurd unstarted nonempty
        · intro retransmit
          rw [step, History.next, sends.retransmit] at retransmit
          cases retransmit
        · intro retransmit
          rw [step, History.next, sends.retransmit] at retransmit
          cases retransmit

/-- The timer is stopped, by a response or because it expires. -/
theorem Paced.stopped (unsent : ∀ action ∈ actions, action.isSent = false)
    (incomplete : completions actions = 0)
    (fresh : history.tsx.lastPkt = [] → moments actions = [])
    (pace : history.tsx.requireRetransmit → rtoMsec < 2 ^ 27 → moments (history.actions ++ actions)
    <+: timeline rtoMsec) :
    Paced rtoMsec (history.next (cancelIfActive history.tsx, actions)) := by
  have idle : Idle (cancelIfActive history.tsx) := rfl
  constructor
  · exact h.rto
  · exact h.quiet.append (quiet_of_silent incomplete) (.inr unsent)
  · exact fun _ => idle
  · intro unstarted
    rw [History.next, moments_append, (h.fresh unstarted).1, fresh unstarted]
    exact ⟨rfl, idle⟩
  · exact pace
  · exact fun _ _ armed => absurd armed idle.not_armed

theorem Paced.receive (msg : Response) : Paced rtoMsec (step history (.receive msg)) := by
  have idle : Idle (cancelIfActive history.tsx) := rfl
  obtain unchanged | provisional | ⟨status, final⟩ := step_receive history msg
  · rwa [unchanged]
  · rw [provisional]
    apply h.stopped (by simp [Action.isSent]) rfl (fun _ => rfl)
    rw [moments_append]
    exact (append_nil (moments history.actions)).symm ▸ h.pace
  · have cancelled : Paced rtoMsec (history.next (cancelIfActive history.tsx, [])) := by
      apply h.stopped (by simp) rfl (fun _ => rfl)
      rw [append_nil]
      exact h.pace
    rw [final]
    exact cancelled.notified idle status

theorem Paced.expire (sound : Sound history) (answers : Answers) :
    Paced rtoMsec (step history (.expire answers)) := by
  cases sound.timer with
  | inl idle =>
    rw [Idle] at idle
    simpa only [step, idle] using h
  | inr armed =>
    have timeout := sound.timeout armed
    have started : history.tsx.lastPkt ≠ [] := fun unstarted => (h.fresh unstarted).2.not_armed armed
    have incomplete : history.tsx.complete = false := by
      rw [← Bool.not_eq_true]
      exact fun complete => (h.finished complete).not_armed armed
    have waiting := fun retransmit small => h.waiting retransmit small armed
    have ⟨delay, timer⟩ := armed
    have idle : Idle (expired history delay).tsx := rfl
    have silent : completions (expired history delay).actions = 0 := by
      rw [expired, History.next, completions_append, sound.once, incomplete]
      rfl
    -- the timer that has expired is the one of the last copy
    have seen : ∀ {copies}, Waiting rtoMsec copies history →
        moments (expired history delay).actions = copiesMoments rtoMsec (copies + 1) := by
      intro copies wait
      have same : delay = history.tsx.retransmitTime := by
        have scheduled := timer.symm.trans wait.scheduled
        simpa using scheduled
      rw [copiesMoments_succ wait.wait, expired, History.next, moments_append, wait.seen, same,
        append_assoc]
      rfl
    by_cases last : pjStunMaxTransmitCount ≤ history.tsx.transmitCount
    · rw [step_timeout timer last]
      apply Paced.notified _ idle
      apply h.stopped (by simp [Action.isSent]) rfl (fun unstarted => absurd unstarted started)
      intro retransmit small
      have ⟨copies, wait⟩ := waiting retransmit small
      have all := copiesMoments_initial rtoMsec (copies + 1)
      rw [← seen wait] at all
      exact all
    · have retransmit := timeout.resolve_right last
      have sends := tsxTransmitMsg_sends idle retransmit answers
      have due : (expired history delay).tsx.rtoMsec < 2 ^ 27 →
          ∃ copies, Due copies (expired history delay) := by
        intro small
        have rto : (expired history delay).tsx.rtoMsec = rtoMsec := h.rto
        rw [rto] at small
        have ⟨copies, wait⟩ := waiting retransmit small
        have count : (expired history delay).tsx.transmitCount = copies + 1 := wait.count
        apply Exists.intro (copies + 1)
        constructor
        · rw [← count]
          exact Nat.not_le.mp last
        · exact count
        · intro before same
          cases same
          rw [rto]
          exact wait.wait
        · rw [rto]
          exact seen wait
      have paced := Paced.transmit idle retransmit incomplete silent started due answers
      have rto : (expired history delay).tsx.rtoMsec = rtoMsec := h.rto
      rw [rto] at paced
      rw [step_retransmit timer retransmit (Nat.not_le.mp last)]
      by_cases status : (tsxTransmitMsg (expired history delay).tsx true answers).1 = pjSuccess
      · rw [if_pos status]
        exact paced
      · rw [if_neg status]
        exact paced.notified (sends.failed status).1 _

end

/-- Every run in which the transaction is started once is paced. -/
theorem paced_run {events : List Event}
    (starts : Run.Meets Stun.step StartsOnce (start rtoMsec) events) :
    Paced rtoMsec (events.foldl Stun.step (start rtoMsec)) := by
  have kept : ∀ history event, Sound history ∧ Paced rtoMsec history → StartsOnce history event →
      Sound (Stun.step history event) ∧ Paced rtoMsec (Stun.step history event) := by
    rintro history event ⟨sound, paced⟩ once
    cases event with
    | send retransmit pkt answers => exact ⟨sound.step _, paced.send sound once⟩
    | expire answers => exact ⟨sound.step _, paced.expire sound answers⟩
    | receive msg => exact ⟨sound.step _, paced.receive msg⟩
  exact (Run.always kept ⟨sound_start rtoMsec, paced_start rtoMsec⟩ starts).last.2

/-- How many copies were sent. -/
def copies (actions : List Action) : Nat := actions.countP Action.isSent

/-- The copies are among the moments. -/
theorem copies_eq (actions : List Action) : copies actions = (moments actions).count .sent := by
  induction actions with
  | nil => rfl
  | cons action rest ih =>
    have split := moments_append [action] rest
    rw [singleton_append] at split
    rw [split, count_append, ← ih, copies, countP_cons, Nat.add_comm]
    congr 1
    cases action <;> rfl

theorem timeline_copies (rtoMsec : Nat) :
    (timeline rtoMsec).count .sent = pjStunMaxTransmitCount := by
  have each : ∀ delays : List Int, (delays.flatMap copyMoments).count .sent = delays.length := by
    intro delays
    induction delays with
    | nil => rfl
    | cons delay rest ih => simp [copyMoments, ih]
  rfl

/-- The discipline of a client transaction. After any events, `on_complete` was called at most
once, and a request whose outcome is open has its timer armed, which brings the outcome when it
expires eight times at the latest. If the transaction was started once, nothing is sent after
`on_complete`, and a retransmitting transaction sends at most `PJ_STUN_MAX_TRANSMIT_COUNT` copies,
waiting after each as `waits` says. -/
theorem client_tsx_discipline (rtoMsec : Nat) (events : List Event) :
    let history := events.foldl step (start rtoMsec)
    completions history.actions ≤ 1 ∧
    (Outstanding history.actions → Armed history.tsx ∧
      ∀ answers : List Answers, pjStunMaxTransmitCount < answers.length →
        completions (answers.foldl (fun history answer => step history (.expire answer))
          history).actions = 1) ∧
    (Run.Meets step StartsOnce (start rtoMsec) events →
      Quiet history.actions ∧
      (history.tsx.requireRetransmit → rtoMsec < 2 ^ 27 →
        copies history.actions ≤ pjStunMaxTransmitCount ∧
        moments history.actions <+: timeline rtoMsec)) := by
  intro history
  have sound : Sound history := sound_run rtoMsec events
  constructor
  · rw [sound.once]
    exact Bool.toNat_le _
  constructor
  · intro outstanding
    have armed := sound.outstanding outstanding
    exact ⟨armed, fun answers enough => armed_expiries sound armed answers (by omega)⟩
  · intro starts
    have paced : Paced rtoMsec history := paced_run starts
    apply And.intro paced.quiet
    intro retransmit small
    have pace := paced.pace retransmit small
    apply And.intro _ pace
    rw [copies_eq, ← timeline_copies rtoMsec]
    exact pace.sublist.count_le _

/-- A request is sent and times out. -/
theorem client_tsx_discipline_timeout :
    Run.Meets step StartsOnce (start 100) [.send true [0] ⟨0, 0⟩] ∧
    copies ([Event.send true [0] ⟨0, 0⟩].foldl step (start 100)).actions ≤ 7 :=
  have starts : Run.Meets step StartsOnce (start 100) [.send true [0] ⟨0, 0⟩] := by decide
  ⟨starts, (((client_tsx_discipline 100 [.send true [0] ⟨0, 0⟩]).2.2 starts).2 (by decide)
    (by decide)).1⟩

/-- A request was sent, a response with the code 150 arrived, and no timer is armed although
`on_complete` was not called. -/
theorem provisional_leaves_no_timer :
    let history := [Event.send true [0] ⟨0, 0⟩, .receive ⟨0x0111, some 150⟩].foldl step (start 100)
    (∃ pkt, Action.sent pkt pjSuccess ∈ history.actions) ∧ completions history.actions = 0 ∧
      history.tsx.retransmitTimer.scheduled = none := by
  exact ⟨⟨[0], by decide⟩, by decide, by decide⟩

end Pjnath.Stun
