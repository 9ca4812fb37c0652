import Mathlib.Data.List.Perm.Subperm
import Pjproject.Stun.Reencode
import Pjproject.Stun.Session

/-!
# The requests of a STUN session

A request of the application, its retries included, is open in the list of pending requests until it
is reported, once. What is counted is the request of the application: `openCount` in the list, `reports`
and `accepts` in the actions.
-/

namespace Pjnath.Stun
open List hiding Vector
open Pj

/-! ## Transactions -/

variable {outcome : ClientTsx × List Action}

/-- What a call of a transaction does: it completes, once, or leaves `complete` alone. -/
def Completes (tsx : ClientTsx) (outcome : ClientTsx × List Action) : Prop :=
  match completedStatus outcome.2 with
  | none => outcome.1.complete = tsx.complete
  | some _ => tsx.complete = false ∧ outcome.1.complete = true

theorem completedStatus_append (before after : List Action) :
    completedStatus (before ++ after) = (completedStatus before).or (completedStatus after) := by
  rw [completedStatus, findSome?_append]
  rfl

theorem notifyComplete_completes (tsx : ClientTsx) (status : Int) :
    Completes tsx (notifyComplete tsx status) := by
  cases complete : tsx.complete <;> simp [Completes, notifyComplete, complete, completedStatus]

/-- A transmission is not the end of a transaction. -/
theorem tsxTransmitMsg_complete (tsx : ClientTsx) (modCount : Bool) (answers : Answers) :
    completedStatus (tsxTransmitMsg tsx modCount answers).2.2 = none ∧
      (tsxTransmitMsg tsx modCount answers).2.1.complete = tsx.complete := by
  simp only [tsxTransmitMsg, scheduleTimer, sendPkt, pjStunClientTsxStop, cancelIfActive,
    completedStatus]
  repeat' split
  all_goals simp

theorem pjStunClientTsxSendMsg_complete (tsx : ClientTsx) (retransmit : Bool) (pkt : Str)
    (answers : Answers) :
    (pjStunClientTsxSendMsg tsx retransmit pkt answers).2.1.complete = tsx.complete := by
  have transmit := fun tsx => (tsxTransmitMsg_complete tsx true answers).2
  simp only [pjStunClientTsxSendMsg, transmitFirst, scheduleTimer, cancelIfActive]
  repeat' split
  all_goals simp_all

/-- What precedes the call of `on_complete` does not complete the transaction. -/
theorem Completes.behind {before tsx : ClientTsx} (h : Completes tsx outcome)
    (same : tsx.complete = before.complete) {actions : List Action}
    (quiet : completedStatus actions = none) :
    Completes before (outcome.1, actions ++ outcome.2) := by
  rw [Completes, completedStatus_append, quiet, Option.none_or, ← same]
  exact h

theorem retransmitTimerCallback_completes (tsx : ClientTsx) (answers : Answers) :
    Completes tsx (retransmitTimerCallback tsx answers) := by
  have ⟨quiet, same⟩ := tsxTransmitMsg_complete { tsx with retransmitTimer.id := timerInactive } true
    answers
  simp only [retransmitTimerCallback]
  split
  · exact notifyComplete_completes { tsx with retransmitTimer.id := timerInactive } pjnathEstuntimedout
  · split
    · rw [Completes, quiet]
      exact same
    · rename_i failed
      apply Completes.behind (notifyComplete_completes _ _) _ quiet
      exact same

theorem pjStunClientTsxOnRxMsg_completes (tsx : ClientTsx) (msg : Response) :
    Completes tsx (pjStunClientTsxOnRxMsg tsx msg).2 := by
  simp only [pjStunClientTsxOnRxMsg]
  split
  · rfl
  · split
    · exact notifyComplete_completes (cancelIfActive tsx) pjSuccess
    · split
      · rfl
      · exact notifyComplete_completes (cancelIfActive tsx) _

/-! ## What a message keeps -/

variable {old : Nat → UInt8} {bufSize : Nat} {attrs : List Attr}

variable {msg : Msg} {hdr : MsgHdr}

/-- Attributes are added to a message, as far as there is room. -/
def KeepsHdr (hdr : MsgHdr) : Except Int Msg → Prop
  | .ok msg => msg.hdr = hdr
  | .error status => status = pjEtoomany

theorem KeepsHdr.bind {first : Except Int Msg} {next : Msg → Except Int Msg}
    (h : KeepsHdr hdr first) (rest : ∀ msg, msg.hdr = hdr → KeepsHdr hdr (next msg)) :
    KeepsHdr hdr (first >>= next) := by
  cases first with
  | error status => exact h
  | ok msg => exact rest msg h

theorem keepsHdr_add (same : msg.hdr = hdr) (attr : Attr) :
    KeepsHdr hdr (pjStunMsgAddAttr msg attr) := by
  simp only [pjStunMsgAddAttr]
  split
  · exact same
  · rfl

theorem keepsHdr_if (same : msg.hdr = hdr) (add : Prop) [Decidable add] (attr : Attr)
    {next : Msg → Except Int Msg} (rest : ∀ msg, msg.hdr = hdr → KeepsHdr hdr (next msg)) :
    KeepsHdr hdr (if add then pjStunMsgAddAttr msg attr >>= next else pure msg >>= next) := by
  split
  · exact (keepsHdr_add same attr).bind rest
  · exact rest msg same

/-- An attribute that is added, if there is room. -/
theorem hdr_getD (same : msg.hdr = hdr) (add : Prop) [Decidable add] (attr : Attr) :
    (if add then (pjStunMsgAddAttr msg attr).toOption.getD msg else msg).hdr = hdr := by
  have kept := keepsHdr_add same attr
  split
  · cases result : pjStunMsgAddAttr msg attr with
    | error status => exact same
    | ok added =>
      rw [result] at kept
      exact kept
  · exact same

theorem applyMsgOptions_keepsHdr (sess : StunSession) (authInfo : Option ReqCredInfo) (msg : Msg) :
    KeepsHdr msg.hdr (applyMsgOptions sess authInfo msg) := by
  apply keepsHdr_if (hdr_getD rfl _ _)
  intro named sameNamed
  apply keepsHdr_if sameNamed
  intro placed samePlaced
  apply keepsHdr_if (hdr_getD samePlaced _ _)
  intro signed sameSigned
  split
  · exact keepsHdr_add sameSigned _
  · exact sameSigned

/-- A status of the encoder is an error. -/
theorem encodeAttr_status {attr : Attr} {kind : Kind} {out : Str} {status : Int}
    (failed : encodeAttr old bufSize hdr attr kind out = .error (.status status)) :
    status = pjEtoosmall := by
  simp only [encodeAttr] at failed
  repeat' split at failed
  all_goals cases failed
  rfl

theorem encodeAttrs_status {out : Str} {status : Int}
    (failed : encodeAttrs old bufSize hdr attrs out = .error (.status status)) :
    status = pjEtoosmall := by
  induction attrs generalizing out with
  | nil => cases failed
  | cons attr rest ih =>
    simp only [encodeAttrs] at failed
    split at failed
    · cases failed
    · split at failed
      · cases failed
        exact encodeAttr_status ‹_›
      · exact ih failed

theorem scanAttrs_status {amsgint afingerprint : Option Attr} {status : Int}
    (failed : scanAttrs attrs amsgint afingerprint = .error (.status status)) :
    accepted status = false := by
  induction attrs generalizing amsgint afingerprint with
  | nil => cases failed
  | cons attr rest ih =>
    simp only [scanAttrs] at failed
    repeat' split at failed
    · cases failed
      decide
    · cases failed
      decide
    all_goals exact ih failed

/-- A message that the encoder refuses is not accepted. -/
theorem pjStunMsgEncode_status {hmac : Str → Str → Vector UInt8 20} {crc : Str → UInt32}
    {key : Option Str} {status : Int}
    (failed : pjStunMsgEncode old bufSize hmac crc msg key = .error (.status status)) :
    accepted status = false := by
  have small : accepted pjEtoosmall = false := by decide
  simp only [pjStunMsgEncode] at failed
  split at failed
  · cases failed
    decide
  · split at failed
    · cases failed
      exact small
    · cases encode_bind_error failed with
      | inl attrs => exact encodeAttrs_status attrs ▸ small
      | inr failed =>
        obtain ⟨body, _, failed⟩ := failed
        cases encode_bind_error failed with
        | inl scanned => exact scanAttrs_status scanned
        | inr failed =>
          obtain ⟨found, _, failed⟩ := failed
          cases encode_bind_error failed with
          | inl msgint =>
            simp only [encodeMsgint] at msgint
            repeat' split at msgint
            all_goals cases msgint
            · decide
            · exact encodeAttr_status ‹_› ▸ small
          | inr failed =>
            obtain ⟨signed, _, failed⟩ := failed
            cases encode_bind_error failed with
            | inl fingerprint =>
              simp only [encodeFingerprint] at fingerprint
              repeat' split at fingerprint
              all_goals cases fingerprint
              exact encodeAttr_status ‹_› ▸ small
            | inr failed =>
              obtain ⟨packet, _, failed⟩ := failed
              cases failed

/-! ## Counting -/

/-- The request of the application is reported. -/
def SessAction.reports (origin : Nat) : SessAction → Bool
  | .requestComplete origin' _ _ => origin' = origin
  | _ => false

/-- The request of the application is accepted. -/
def SessAction.accepts (origin : Nat) : SessAction → Bool
  | .pending id origin' _ => id = origin ∧ origin' = origin
  | _ => false

/-- A request is retried. -/
def SessAction.retries : SessAction → Bool
  | .pending id origin _ => id ≠ origin
  | _ => false

/-- The request of the application, or a retry of it, is challenged. -/
def SessAction.challenges (origin : Nat) : SessAction → Bool
  | .tsxComplete origin' status =>
    origin' = origin ∧ (status = pjStatusFromStunCode 401 ∨ status = pjStatusFromStunCode 438)
  | _ => false

/-- What is said about requests. -/
def SessAction.ofRequest : SessAction → Bool
  | .requestComplete _ _ _ | .pending _ _ _ | .tsxComplete _ _ | .cancelled _ => true
  | _ => false

/-- Nothing is said about requests. -/
def Silent (actions : List SessAction) : Prop := ∀ action ∈ actions, action.ofRequest = false

/-- A request whose transaction will still report. -/
def Request.isOpen (request : Request) : Bool := !request.clientTsx.complete && request.onComplete

/-- The open requests for a request of the application. -/
def openCount (origin : Nat) (sess : StunSession) : Nat :=
  sess.pendingRequestList.countP fun request => request.origin = origin && request.isOpen

variable {cfg : StunConfig} {sess after : StunSession} {actions : List SessAction} {origin : Nat}

/-- Nothing among the actions is counted. -/
structure Uncounted (origin : Nat) (actions : List SessAction) : Prop where
  reports : actions.countP (SessAction.reports origin) = 0
  accepts : actions.countP (SessAction.accepts origin) = 0
  retries : actions.countP SessAction.retries = 0
  challenges : actions.countP (SessAction.challenges origin) = 0

theorem Silent.counts (h : Silent actions) (origin : Nat) : Uncounted origin actions := by
  constructor
  all_goals
    rw [countP_eq_zero]
    intro action among counted
    have silent := h action among
    cases action <;> first | exact Bool.noConfusion silent | exact Bool.noConfusion counted

theorem silent_nil : Silent [] := fun _ among => absurd among not_mem_nil

theorem silent_tsxActions (tdata : TxData) (addr : Sockaddr) (actions : List Action) :
    Silent (tsxActions tdata addr actions) := by
  intro action among
  have ⟨known, _, same⟩ := mem_filterMap.mp among
  cases known with
  | sent pkt status =>
    cases same
    rfl
  | _ => cases same

/-- A request that waits for its destruction reports no more. -/
def Request.Waits (request : Request) : Prop := request.destroyTimer → request.onComplete = false

/-- The requests of a session, and what was said about them. -/
structure Tracked (history : SessHistory) : Prop where
  unique : (history.sess.pendingRequestList.map Request.id).Nodup
  bounded : ∀ request ∈ history.sess.pendingRequestList,
    request.id < history.sess.nextId ∧ request.origin ≤ request.id
  asked : ∀ request ∈ history.sess.pendingRequestList, pjStunIsRequest request.tdata.msg.hdr.type
  waits : ∀ request ∈ history.sess.pendingRequestList, request.Waits
  listed : ∀ request ∈ history.sess.pendingRequestList,
    .pending request.id request.origin request.tdata.token ∈ history.actions
  known : ∀ id origin token, .pending id origin token ∈ history.actions →
    id < history.sess.nextId ∧ .pending origin origin token ∈ history.actions
  single : ∀ origin, history.actions.countP (SessAction.accepts origin) ≤ 1
  reported : ∀ origin token status, .requestComplete origin token status ∈ history.actions →
    .pending origin origin token ∈ history.actions

/-- The request of the application is open or reported, but for some that is owed. -/
def Account (origin owed : Nat) (history : SessHistory) : Prop :=
  openCount origin history.sess + history.actions.countP (SessAction.reports origin) + owed =
    history.actions.countP (SessAction.accepts origin)

variable {history : SessHistory}

/-! ### Steps that say nothing -/

variable {owed : Nat}

/-- Actions among which are no report and no request of the application. -/
theorem Account.append (h : Account origin owed history)
    (unreported : actions.countP (SessAction.reports origin) = 0)
    (unaccepted : actions.countP (SessAction.accepts origin) = 0) :
    Account origin owed ⟨history.sess, history.actions ++ actions⟩ := by
  rw [Account, countP_append, countP_append, unreported, unaccepted]
  exact h

theorem Account.silent (h : Account origin owed history)
    (list : after.pendingRequestList = history.sess.pendingRequestList) (quiet : Silent actions) :
    Account origin owed ⟨after, history.actions ++ actions⟩ := by
  have same : Account origin owed ⟨after, history.actions⟩ := by
    rw [Account, openCount, list]
    exact h
  exact same.append ((quiet.counts origin).reports)
    ((quiet.counts origin).accepts)

/-! ### Changes of a request -/

variable {id : Nat}

/-- A change of a request that keeps what it is known by. -/
structure Keeps (change : Request → Request) : Prop where
  id : ∀ request, (change request).id = request.id
  origin : ∀ request, (change request).origin = request.origin
  tdata : ∀ request, (change request).tdata = request.tdata
  waits : ∀ request : Request, request.Waits → (change request).Waits

theorem Keeps.onId {change : Request → Request} (keeps : Keeps change) (id : Nat) :
    Keeps fun request => if request.id = id then change request else request := by
  constructor
  · intro request
    split
    · exact keeps.id request
    · rfl
  · intro request
    split
    · exact keeps.origin request
    · rfl
  · intro request
    split
    · exact keeps.tdata request
    · rfl
  · intro request waits
    split
    · exact keeps.waits request waits
    · exact waits

section
variable (h : Tracked history)
include h

theorem Tracked.map {change : Request → Request} (keeps : Keeps change)
    (list : after.pendingRequestList = history.sess.pendingRequestList.map change)
    (nextId : history.sess.nextId ≤ after.nextId) : Tracked ⟨after, history.actions⟩ := by
  have back : ∀ request ∈ after.pendingRequestList,
      ∃ known ∈ history.sess.pendingRequestList, change known = request := by
    intro request there
    rw [list] at there
    exact mem_map.mp there
  constructor
  · have ids : after.pendingRequestList.map Request.id =
        history.sess.pendingRequestList.map Request.id := by
      rw [list, map_map]
      exact map_congr_left fun request _ => keeps.id request
    exact ids ▸ h.unique
  · intro request there
    obtain ⟨known, listed, rfl⟩ := back request there
    rw [keeps.id, keeps.origin]
    have bounds := h.bounded known listed
    exact ⟨Nat.lt_of_lt_of_le bounds.1 nextId, bounds.2⟩
  · intro request there
    obtain ⟨known, listed, rfl⟩ := back request there
    rw [keeps.tdata]
    exact h.asked known listed
  · intro request there
    obtain ⟨known, listed, rfl⟩ := back request there
    exact keeps.waits known (h.waits known listed)
  · intro request there
    obtain ⟨known, listed, rfl⟩ := back request there
    rw [keeps.id, keeps.origin, keeps.tdata]
    exact h.listed known listed
  · intro id origin token among
    have known := h.known id origin token among
    exact ⟨Nat.lt_of_lt_of_le known.1 nextId, known.2⟩
  · exact h.single
  · exact h.reported

/-- Actions that add no request, and report only what is known. -/
theorem Tracked.append (old : ∀ id origin token, .pending id origin token ∉ actions)
    (reports : ∀ origin token status, .requestComplete origin token status ∈ actions → .pending
    origin origin token ∈ history.actions) :
    Tracked ⟨history.sess, history.actions ++ actions⟩ where
  unique := h.unique
  bounded := h.bounded
  asked := h.asked
  waits := h.waits
  listed := fun request there => mem_append_left _ (h.listed request there)
  known := by
    intro id origin token among
    have early := (mem_append.mp among).resolve_right (old id origin token)
    have known := h.known id origin token early
    exact ⟨known.1, mem_append_left _ known.2⟩
  single := by
    intro origin
    have none : actions.countP (SessAction.accepts origin) = 0 := by
      rw [countP_eq_zero]
      intro action among counted
      cases action with
      | pending id origin token => exact old id origin token among
      | _ => exact Bool.noConfusion counted
    rw [countP_append, none]
    exact h.single origin
  reported := by
    intro origin token status among
    apply mem_append_left
    cases mem_append.mp among with
    | inl early => exact h.reported origin token status early
    | inr late => exact reports origin token status late

theorem Tracked.silent (list : after.pendingRequestList = history.sess.pendingRequestList)
    (nextId : history.sess.nextId ≤ after.nextId) (quiet : Silent actions) :
    Tracked ⟨after, history.actions ++ actions⟩ := by
  have moved : Tracked ⟨after, history.actions⟩ := by
    have keeps : Keeps id := ⟨fun _ => rfl, fun _ => rfl, fun _ => rfl, fun _ waits => waits⟩
    exact h.map keeps (list.trans (map_id _).symm) nextId
  apply moved.append
  · intro id origin token among
    exact Bool.noConfusion (quiet _ among)
  · intro origin token status among
    exact Bool.noConfusion (quiet _ among)

theorem Tracked.change (id : Nat) {change : Request → Request} (keeps : Keeps change) :
    Tracked ⟨history.sess.updateRequest id change, history.actions⟩ :=
  h.map (keeps.onId id) rfl (Nat.le_refl _)

theorem Tracked.erase (id : Nat) : Tracked ⟨tsxErase history.sess id, history.actions⟩ := by
  have back : ∀ request ∈ (tsxErase history.sess id).pendingRequestList,
      request ∈ history.sess.pendingRequestList := fun request there => mem_of_mem_filter there
  constructor
  · exact h.unique.sublist (filter_sublist.map _)
  · exact fun request there => h.bounded request (back request there)
  · exact fun request there => h.asked request (back request there)
  · exact fun request there => h.waits request (back request there)
  · exact fun request there => h.listed request (back request there)
  · exact h.known
  · exact h.single
  · exact h.reported

end

section
variable (h : Account origin owed history)
include h

/-- A change that opens or closes nothing. -/
theorem Account.map {change : Request → Request} (keeps : Keeps change)
    (list : after.pendingRequestList = history.sess.pendingRequestList.map change)
    (same : ∀ request ∈ history.sess.pendingRequestList, request.origin = origin →
    (change request).isOpen = request.isOpen) :
    Account origin owed ⟨after, history.actions⟩ := by
  have count : openCount origin after = openCount origin history.sess := by
    rw [openCount, openCount, list, countP_map]
    apply countP_congr
    intro request there
    rw [Function.comp_apply, keeps.origin]
    by_cases own : request.origin = origin
    · rw [same request there own]
    · simp [own]
  rw [Account, count]
  exact h

theorem Account.change {change : Request → Request} (keeps : Keeps change)
    (same : ∀ request ∈ history.sess.pendingRequestList, request.id = id → request.origin = origin →
    (change request).isOpen = request.isOpen) :
    Account origin owed ⟨history.sess.updateRequest id change, history.actions⟩ := by
  apply h.map (keeps.onId id) rfl
  intro request there own
  split
  · exact same request there ‹_› own
  · rfl

theorem Account.erase
    (closed : ∀ request ∈ history.sess.pendingRequestList, request.id = id → request.isOpen = false) :
    Account origin owed ⟨tsxErase history.sess id, history.actions⟩ := by
  have count : openCount origin (tsxErase history.sess id) = openCount origin history.sess := by
    rw [openCount, openCount, tsxErase, countP_filter]
    apply countP_congr
    intro request there
    by_cases named : request.id = id
    · simp [closed request there named]
    · simp [named]
  rw [Account, count]
  exact h

end

/-- One element of a list is changed, which its key tells apart. -/
theorem countP_update {α : Type} {key : α → Nat} (change : α → α) (p : α → Bool) {list : List α}
    (unique : (list.map key).Nodup) {x : α} (there : x ∈ list) :
    (list.map fun y => if key y = key x then change y else y).countP p + (if p x then 1 else 0) =
      list.countP p + (if p (change x) then 1 else 0) := by
  induction list with
  | nil => cases there
  | cons y rest ih =>
    rw [map_cons, nodup_cons] at unique
    have ⟨absent, unique⟩ := unique
    rw [map_cons, countP_cons, countP_cons]
    cases mem_cons.mp there with
    | inl same =>
      subst same
      have others : rest.map (fun y => if key y = key x then change y else y) = rest := by
        have each : ∀ y ∈ rest, (if key y = key x then change y else y) = y := by
          intro y later
          rw [if_neg]
          intro keys
          exact absent (keys ▸ mem_map_of_mem later)
        rw [map_congr_left each, map_id']
      rw [others, if_pos rfl]
      omega
    | inr later =>
      have keys : key y ≠ key x := fun same => absent (same ▸ mem_map_of_mem later)
      have rest := ih unique later
      rw [if_neg keys]
      omega

/-- What is owed to a request of the application for another one that ends. -/
def owedFor (request : Request) (origin : Nat) : Nat := if request.origin = origin then 1 else 0

/-- A request is closed: a report is owed. -/
theorem Account.close (h : Account origin 0 history) (tracked : Tracked history)
    {change : Request → Request} (keeps : Keeps change) {request : Request}
    (there : request ∈ history.sess.pendingRequestList) (opened : request.isOpen = true)
    (closes : (change request).isOpen = false) :
    Account origin (owedFor request origin)
      ⟨history.sess.updateRequest request.id change, history.actions⟩ := by
  have count := countP_update change (fun request => request.origin = origin && request.isOpen)
    tracked.unique there
  rw [keeps.origin, opened, closes] at count
  have start := h
  simp only [Account, openCount, StunSession.updateRequest, owedFor] at start ⊢
  by_cases own : request.origin = origin
  · simp only [own, decide_true, Bool.and_true, Bool.and_false, if_true, Bool.false_eq_true,
      if_false] at count ⊢
    omega
  · simp only [own, decide_false, Bool.false_and, Bool.false_eq_true, if_false] at count ⊢
    omega

/-- A report pays. -/
theorem Account.report {request : Request} (h : Account origin (owedFor request origin) history)
    (token : Nat) (status : Int) :
    Account origin 0
      ⟨history.sess, history.actions ++ [.requestComplete request.origin token status]⟩ := by
  simp only [Account, countP_append, countP_singleton, SessAction.reports,
    SessAction.accepts, owedFor] at h ⊢
  by_cases own : request.origin = origin
  · simp only [own, decide_true, if_true, Bool.false_eq_true, if_false] at h ⊢
    omega
  · simp only [own, decide_false, Bool.false_eq_true, if_false] at h ⊢
    omega

theorem Tracked.report (h : Tracked history) {request : Request} {token : Nat}
    (known : .pending request.origin request.origin token ∈ history.actions) (status : Int) :
    Tracked ⟨history.sess, history.actions ++ [.requestComplete request.origin token status]⟩ := by
  apply h.append
  · intro id origin token' among
    cases mem_singleton.mp among
  · intro origin token' status' among
    cases mem_singleton.mp among
    exact known

/-! ### New requests -/

/-- A request is added, of the application or as a retry. -/
structure Adds (before after : StunSession) (request : Request) : Prop where
  id : request.id = before.nextId
  list : after.pendingRequestList = request :: before.pendingRequestList
  nextId : after.nextId = before.nextId + 1
  asked : pjStunIsRequest request.tdata.msg.hdr.type
  waits : request.Waits
  opened : request.isOpen = true

/-- The request of the application has a number that is new. -/
theorem Tracked.accepts_zero (h : Tracked history) :
    history.actions.countP (SessAction.accepts history.sess.nextId) = 0 := by
  rw [countP_eq_zero]
  intro action among counted
  cases action with
  | pending id origin token =>
    have named : id = history.sess.nextId := by
      simp only [SessAction.accepts, decide_eq_true_eq] at counted
      exact counted.1
    have known := (h.known id origin token among).1
    omega
  | _ => exact Bool.noConfusion counted

theorem Tracked.add (h : Tracked history) {request : Request} (adds : Adds history.sess after request)
    (own : request.origin = request.id ∨
      .pending request.origin request.origin request.tdata.token ∈ history.actions) :
    Tracked ⟨after,
      history.actions ++ [.pending request.id request.origin request.tdata.token]⟩ := by
  have member : ∀ known, known ∈ after.pendingRequestList ↔
      known = request ∨ known ∈ history.sess.pendingRequestList := by
    intro known
    rw [adds.list, mem_cons]
  have low : request.origin ≤ request.id := by
    cases own with
    | inl same => exact Nat.le_of_eq same
    | inr known =>
      have bounded := (h.known _ _ _ known).1
      have id := adds.id
      omega
  constructor
  · rw [adds.list, map_cons, nodup_cons]
    refine ⟨?_, h.unique⟩
    intro among
    have ⟨known, listed, same⟩ := mem_map.mp among
    have bounded := (h.bounded known listed).1
    have id := adds.id
    omega
  · intro known there
    rw [adds.nextId]
    cases (member known).mp there with
    | inl same =>
      subst same
      exact ⟨by rw [adds.id]; exact Nat.lt_succ_self _, low⟩
    | inr listed =>
      have bounds := h.bounded known listed
      exact ⟨Nat.lt_succ_of_lt bounds.1, bounds.2⟩
  · intro known there
    cases (member known).mp there with
    | inl same => exact same ▸ adds.asked
    | inr listed => exact h.asked known listed
  · intro known there
    cases (member known).mp there with
    | inl same => exact same ▸ adds.waits
    | inr listed => exact h.waits known listed
  · intro known there
    cases (member known).mp there with
    | inl same => exact mem_append_right _ (mem_singleton.mpr (by rw [same]))
    | inr listed => exact mem_append_left _ (h.listed known listed)
  · intro id origin token among
    rw [adds.nextId]
    cases mem_append.mp among with
    | inl early =>
      have known := h.known id origin token early
      exact ⟨Nat.lt_succ_of_lt known.1, mem_append_left _ known.2⟩
    | inr late =>
      cases mem_singleton.mp late
      refine ⟨by rw [adds.id]; exact Nat.lt_succ_self _, ?_⟩
      cases own with
      | inl same =>
        exact mem_append_right _ (mem_singleton.mpr (by rw [same]))
      | inr known => exact mem_append_left _ known
  · intro origin
    rw [countP_append, countP_singleton]
    have before := h.single origin
    split
    · rename_i counted
      have named : request.id = origin := by
        simp only [SessAction.accepts, decide_eq_true_eq] at counted
        exact counted.1
      rw [← named, adds.id, h.accepts_zero]
    · exact before
  · intro origin token status among
    cases mem_append.mp among with
    | inl early => exact mem_append_left _ (h.reported origin token status early)
    | inr late => cases mem_singleton.mp late

theorem openCount_add {request : Request} (adds : Adds sess after request) (origin : Nat) :
    openCount origin after = openCount origin sess + owedFor request origin := by
  rw [openCount, openCount, adds.list, countP_cons, adds.opened, owedFor]
  by_cases own : request.origin = origin <;> simp [own]

/-- A request of the application that is accepted is open. -/
theorem Account.add (h : Account origin owed history) {request : Request}
    (adds : Adds history.sess after request) (own : request.origin = request.id) :
    Account origin owed ⟨after,
      history.actions ++ [.pending request.id request.origin request.tdata.token]⟩ := by
  have count := openCount_add adds origin
  simp only [Account, countP_append, countP_singleton, SessAction.reports,
    SessAction.accepts, owedFor, count, ← own] at h ⊢
  by_cases named : request.origin = origin
  · simp only [named, decide_true, if_true, Bool.false_eq_true, if_false, and_self]
    omega
  · simp only [named, decide_false, Bool.false_eq_true, if_false, and_self]
    omega

/-- A retry pays for the request that it retries. -/
theorem Account.retry {request : Request} (h : Account origin (owedFor request origin) history)
    (adds : Adds history.sess after request) (older : request.origin ≠ request.id) :
    Account origin 0 ⟨after,
      history.actions ++ [.pending request.id request.origin request.tdata.token]⟩ := by
  have count := openCount_add adds origin
  have unlike : ¬(request.id = origin ∧ request.origin = origin) :=
    fun both => older (both.2.trans both.1.symm)
  simp only [Account, countP_append, countP_singleton, SessAction.reports,
    SessAction.accepts, count, unlike, decide_false, Bool.false_eq_true, if_false] at h ⊢
  omega

/-! ## The calls -/

variable {answers : Answers} {cacheRes retransmit : Bool}

variable {tdata : TxData} {server : Sockaddr}

/-- A message was sent without a word about requests. -/
structure SendsOther (before after : StunSession) (actions : List SessAction) : Prop where
  quiet : Silent actions
  list : after.pendingRequestList = before.pendingRequestList
  nextId : before.nextId ≤ after.nextId
  authRetry : after.authRetry = before.authRetry

/-- A request was sent and added. -/
structure SendsRequest (before after : StunSession) (origin : Option Nat) (token : Nat)
    (actions : List SessAction) : Prop where
  added : ∃ request quiet, Silent quiet ∧
    actions = quiet ++ [.pending request.id request.origin request.tdata.token] ∧
      Adds before after request ∧ request.origin = origin.getD before.nextId ∧
        request.tdata.token = token
  authRetry : after.authRetry = before.authRetry

theorem sendRequest_cases {of : Option Nat} {status : Int}
    (asked : pjStunIsRequest tdata.msg.hdr.type)
    (sent : sendRequest cfg sess tdata server of answers = (status, after, actions)) :
    accepted status = false ∧ SendsOther sess after actions ∨
      SendsRequest sess after of tdata.token actions := by
  have complete := pjStunClientTsxSendMsg_complete (pjStunClientTsxCreate cfg.rtoMsec) tdata.retransmit
    tdata.pkt answers
  simp only [sendRequest] at sent
  split at sent
  · cases sent
    right
    refine ⟨⟨_, _, silent_tsxActions tdata server _, rfl, ⟨rfl, rfl, rfl, asked, by simp [Request.Waits], ?_⟩, rfl, rfl⟩, rfl⟩
    rw [Request.isOpen, complete]
    rfl
  · rename_i refused
    cases sent
    left
    exact ⟨by simpa using refused, silent_tsxActions tdata server _, rfl, le_rfl, rfl⟩

theorem sendOther_sends {status : Int}
    (sent : sendOther sess tdata cacheRes server answers = (status, after, actions)) :
    SendsOther sess after actions := by
  simp only [sendOther] at sent
  repeat' split at sent
  all_goals cases sent
  · exact ⟨silent_nil, rfl, le_rfl, rfl⟩
  · exact ⟨by simp [Silent, SessAction.ofRequest], rfl, Nat.le_succ _, rfl⟩
  · exact ⟨by simp [Silent, SessAction.ofRequest], rfl, le_rfl, rfl⟩

/-- A request that is accepted is added. -/
theorem pjStunSessionSendMsg_cases {token : Nat} {of : Option Nat} {env : SendEnv} {status : Int}
    (sent : pjStunSessionSendMsg cfg sess token cacheRes retransmit server tdata of env =
      some (status, after, actions)) :
    (pjStunIsRequest tdata.msg.hdr.type → accepted status = false) ∧ SendsOther sess after actions ∨
      SendsRequest sess after of token actions := by
  have refused : SendsOther sess sess [] := ⟨silent_nil, rfl, le_rfl, rfl⟩
  have kept := applyMsgOptions_keepsHdr sess (some tdata.authInfo) tdata.msg
  simp only [pjStunSessionSendMsg] at sent
  split at sent
  · cases sent
    exact .inl ⟨fun _ => by decide, refused⟩
  · split at sent
    · rename_i failed
      cases sent
      rw [failed] at kept
      exact .inl ⟨fun _ => kept ▸ by decide, refused⟩
    · rename_i msg applied
      rw [applied] at kept
      split at sent
      · cases sent
      · rename_i failed
        cases sent
        exact .inl ⟨fun _ => pjStunMsgEncode_status failed, refused⟩
      · rename_i packet encodedMsg encoded
        have type : encodedMsg.hdr.type = tdata.msg.hdr.type := by
          have same : msg.hdr = tdata.msg.hdr := kept
          rw [(pjStunMsgEncode_result encoded).1, same]
        split at sent
        · rename_i asked
          cases sendRequest_cases asked (Option.some.inj sent) with
          | inl other => exact .inl ⟨fun _ => other.1, other.2⟩
          | inr added => exact .inr added
        · rename_i other
          refine .inl ⟨fun asked => ?_, sendOther_sends (Option.some.inj sent)⟩
          rw [type] at other
          exact absurd asked other

theorem getAuth_msg {tdata' : TxData} (got : getAuth cfg sess tdata = .ok tdata') :
    tdata'.msg = tdata.msg := by
  simp only [getAuth] at got
  repeat' split at got
  all_goals cases got
  all_goals rfl

theorem pjStunSessionCreateReq_type {method : UInt16} {magic : UInt32} {tsxId : Vector UInt8 12}
    (created : pjStunSessionCreateReq cfg sess method magic tsxId = .ok tdata) :
    tdata.msg.hdr.type = method := by
  simp only [pjStunSessionCreateReq] at created
  split at created
  · cases created
  · split at created
    · cases created
      rfl
    · rw [getAuth_msg created]
      rfl
    · split at created
      · cases created
        rfl
      · split at created
        · cases created
        · rename_i got
          cases created
          exact congrArg (fun msg => msg.hdr.type) (getAuth_msg got)

/-! ### Challenges -/

variable {env : EndEnv}

variable {addr : Sockaddr}

/-- An authentication challenge. -/
def IsChallenge (msg : Msg) : Prop :=
  pjStunIsErrorResponse msg.hdr.type.toNat ∧ (findErrCode msg = some 401 ∨ findErrCode msg = some 438)

/-- An error response that has no code, or a challenge that has no nonce. -/
def Malformed (msg : Msg) : Prop :=
  findErrCode msg = none ∨ IsChallenge msg ∧ findStr msg attrNonce = none

/-- The retry that a challenge asks for is not accepted. -/
def RetryFails (cfg : StunConfig) (sess : StunSession) (request : Request) (msg : Msg)
    (srcAddr : Sockaddr) (env : EndEnv) : Prop :=
  ∃ anonce tdata status after actions, findStr msg attrNonce = some anonce ∧
    let sess := StunSession.challenged { sess with authRetry := sess.authRetry + 1 } anonce
      (findStr msg attrRealm)
    let hdr := request.tdata.msg.hdr
    pjStunSessionCreateReq cfg sess hdr.type hdr.magic env.tsxId = .ok tdata ∧
      pjStunSessionSendMsg cfg sess request.tdata.token true request.tdata.retransmit srcAddr
        (retryTdata request tdata) (some request.origin) env.retry = some (status, after, actions) ∧
          accepted status = false

/-- A response under which the user is not notified, though no retry is sent. -/
def Slips (cfg : StunConfig) (sess : StunSession) (request : Request) (msg : Msg) (srcAddr : Sockaddr)
    (env : EndEnv) : Prop :=
  sess.authType = .longTerm ∧ pjStunIsErrorResponse msg.hdr.type.toNat ∧
    (Malformed msg ∨ RetryFails cfg sess request msg srcAddr env)

/-- What `handle_auth_challenge` does to requests: it leaves the report to its caller, it sends a retry,
or it slips. -/
inductive Handled (cfg : StunConfig) (sess : StunSession) (request : Request) (response : Option Msg)
    (srcAddr : Sockaddr) (env : EndEnv) (after : StunSession) : Bool → List SessAction → Prop
  | notified (list : after.pendingRequestList = sess.pendingRequestList)
      (nextId : after.nextId = sess.nextId)
      (counts : ∀ msg, response = some msg → IsChallenge msg → sess.authRetry ≤ after.authRetry) :
      Handled cfg sess request response srcAddr env after true []
  | retried {retry : Request} {quiet : List SessAction} (silent : Silent quiet)
      (adds : Adds sess after retry) (origin : retry.origin = request.origin)
      (token : retry.tdata.token = request.tdata.token) (counts : after.authRetry = sess.authRetry + 1)
      (few : after.authRetry ≤ 3) :
      Handled cfg sess request response srcAddr env after false
        (quiet ++ [.pending retry.id retry.origin retry.tdata.token])
  | slipped {msg : Msg} {actions : List SessAction} (received : response = some msg)
      (slips : Slips cfg sess request msg srcAddr env) (silent : Silent actions)
      (list : after.pendingRequestList = sess.pendingRequestList) (nextId : sess.nextId ≤ after.nextId)
      (counts : sess.authRetry ≤ after.authRetry) :
      Handled cfg sess request response srcAddr env after false actions

theorem handleAuthChallenge_handled {request : Request} {response : Option Msg} {notify : Bool}
    (asked : pjStunIsRequest request.tdata.msg.hdr.type)
    (ended : handleAuthChallenge cfg sess request response addr env = some (notify, after, actions)) :
    Handled cfg sess request response addr env after notify actions := by
  cases response with
  | none =>
    cases ended
    exact .notified rfl rfl (by simp)
  | some msg =>
    simp only [handleAuthChallenge] at ended
    split at ended
    · cases ended
      exact .notified rfl rfl fun _ _ _ => le_rfl
    · rename_i longTerm
      rw [ne_eq, not_not] at longTerm
      split at ended
      · rename_i success
        cases ended
        refine .notified rfl rfl fun msg' same challenge => ?_
        cases same
        exact absurd challenge.1 (by simpa using success)
      · rename_i failure
        have failure : pjStunIsErrorResponse msg.hdr.type.toNat := by simpa using failure
        split at ended
        · rename_i uncoded
          cases ended
          exact .slipped rfl ⟨longTerm, failure, .inl (.inl uncoded)⟩ silent_nil rfl le_rfl
            le_rfl
        · rename_i errCode coded
          split at ended
          · rename_i kind
            have challenge : IsChallenge msg := by
              refine ⟨failure, ?_⟩
              rw [coded]
              exact kind.imp (congrArg some) (congrArg some)
            split at ended
            · rename_i fresh
              cases ended
              exact .slipped rfl ⟨longTerm, failure, .inl (.inr ⟨challenge, fresh⟩)⟩ silent_nil rfl
                le_rfl le_rfl
            · rename_i anonce nonce
              split at ended
              · cases ended
                exact .notified rfl rfl fun _ _ _ => le_rfl
              · split at ended
                · cases ended
                  exact .notified rfl rfl fun _ _ _ => Nat.le_succ _
                · rename_i few
                  simp only [retryRequest] at ended
                  split at ended
                  · cases ended
                    exact .notified rfl rfl fun _ _ _ => Nat.le_succ _
                  · rename_i tdata created
                    split at ended
                    · cases ended
                    · rename_i status middle more sent
                      cases ended
                      cases pjStunSessionSendMsg_cases sent with
                      | inl other =>
                        have type := pjStunSessionCreateReq_type created
                        have refused := other.1 (type.symm ▸ asked :
                          pjStunIsRequest tdata.msg.hdr.type)
                        exact .slipped rfl ⟨longTerm, failure,
                          .inr ⟨anonce, tdata, status, after, actions, nonce, created, sent, refused⟩⟩
                          other.2.quiet other.2.list other.2.nextId
                          (other.2.authRetry ▸ Nat.le_succ _)
                      | inr added =>
                        obtain ⟨⟨retry, quiet, silent, rfl, adds, origin, token⟩, counts⟩ := added
                        have limit : after.authRetry ≤ 3 := by
                          rw [counts]
                          exact Nat.le_of_not_lt few
                        exact .retried silent
                          ⟨adds.id, adds.list, adds.nextId, adds.asked, adds.waits, adds.opened⟩ origin token counts
                          limit
          · rename_i other
            cases ended
            refine .notified rfl rfl fun msg' same challenge => ?_
            cases same
            have codes := challenge.2
            rw [coded] at codes
            exact absurd (codes.imp Option.some.inj Option.some.inj) other

/-! ### The end of a request -/

variable {fine : Nat → Prop} {steady : Prop}

theorem Tracked.completes (h : Tracked history) (of : Nat) (status : Int) :
    Tracked ⟨history.sess, history.actions ++ [.tsxComplete of status]⟩ :=
  h.append (by simp) (by simp)

theorem Tracked.cancelled (h : Tracked history) (of : Nat) :
    Tracked ⟨history.sess, history.actions ++ [.cancelled of]⟩ :=
  h.append (by simp) (by simp)

theorem Account.completes (h : Account origin owed history) (of : Nat) (status : Int) :
    Account origin owed ⟨history.sess, history.actions ++ [.tsxComplete of status]⟩ := by
  rw [Account, countP_append, countP_append]
  exact h

theorem keeps_scheduleDestroy (answer : Int) :
    Keeps fun request => pjStunClientTsxScheduleDestroy request answer := by
  constructor
  all_goals
    intro request
    simp only [pjStunClientTsxScheduleDestroy, Request.Waits]
    split
  · rfl
  · rfl
  · rfl
  · rfl
  · rfl
  · rfl
  · exact fun _ _ => rfl
  · exact fun _ impossible => Bool.noConfusion impossible

theorem scheduleDestroy_closed {request : Request} (closed : request.isOpen = false) (answer : Int) :
    (pjStunClientTsxScheduleDestroy request answer).isOpen = false := by
  simp only [pjStunClientTsxScheduleDestroy]
  split
  · simp [Request.isOpen]
  · exact closed

theorem Tracked.destroy (h : Tracked history) (id : Nat) (force : Bool) (answer : Int) :
    Tracked ⟨destroyTdata history.sess id force answer, history.actions⟩ := by
  cases force with
  | true => exact h.erase id
  | false => exact h.change id (keeps_scheduleDestroy answer)

theorem Account.destroy (h : Account origin owed history)
    (closed : ∀ request ∈ history.sess.pendingRequestList, request.id = id → request.isOpen = false)
    (force : Bool) (answer : Int) :
    Account origin owed ⟨destroyTdata history.sess id force answer, history.actions⟩ := by
  cases force with
  | true => exact h.erase closed
  | false =>
    apply h.change (keeps_scheduleDestroy answer)
    intro request there named _
    rw [closed request there named, scheduleDestroy_closed (closed request there named)]

theorem destroyTdata_authRetry (sess : StunSession) (id : Nat) (force : Bool) (answer : Int) :
    (destroyTdata sess id force answer).authRetry = sess.authRetry := by
  cases force <;> rfl

/-- What the end of a request brings, under a condition on the requests of the application for which
nothing slips, and one under which the session counts on. -/
structure RequestStep (history : SessHistory) (after : StunSession) (actions : List SessAction)
    (fine : Nat → Prop) (steady : Prop) : Prop where
  tracked : Tracked ⟨after, history.actions ++ actions⟩
  account : ∀ origin, fine origin → Account origin 0 history →
    Account origin 0 ⟨after, history.actions ++ actions⟩
  challenged : ∀ origin, fine origin → actions.countP (SessAction.challenges origin) ≤
    actions.countP (SessAction.reports origin) + actions.countP SessAction.retries
  retried : actions.countP SessAction.retries = 0 ∨
    actions.countP SessAction.retries = 1 ∧ after.authRetry = history.sess.authRetry + 1 ∧
      after.authRetry ≤ 3
  counts : steady → history.sess.authRetry ≤ after.authRetry

/-- A step that says nothing about requests. -/
theorem RequestStep.silent (h : Tracked history)
    (list : after.pendingRequestList = history.sess.pendingRequestList)
    (nextId : history.sess.nextId ≤ after.nextId) (quiet : Silent actions)
    (authRetry : after.authRetry = history.sess.authRetry) :
    RequestStep history after actions fine steady where
  tracked := h.silent list nextId quiet
  account := fun _ _ account => account.silent list quiet
  challenged := by
    intro origin _
    rw [(quiet.counts origin).challenges]
    exact Nat.zero_le _
  retried := .inl ((quiet.counts 0).retries)
  counts := fun _ => Nat.le_of_eq authRetry.symm

/-- What becomes of a request whose transaction has completed. -/
structure Ended (history : SessHistory) (request : Request) (after : StunSession)
    (actions : List SessAction) (fine : Nat → Prop) (steady : Prop) : Prop where
  tracked : Tracked ⟨after, history.actions ++ actions⟩
  account : ∀ origin, fine origin → Account origin (owedFor request origin) history →
    Account origin 0 ⟨after, history.actions ++ actions⟩
  unchallenged : ∀ origin, actions.countP (SessAction.challenges origin) = 0
  paid : ∀ origin, fine origin → owedFor request origin ≤
    actions.countP (SessAction.reports origin) + actions.countP SessAction.retries
  retried : actions.countP SessAction.retries = 0 ∨
    actions.countP SessAction.retries = 1 ∧ after.authRetry = history.sess.authRetry + 1 ∧
      after.authRetry ≤ 3
  counts : steady → history.sess.authRetry ≤ after.authRetry

theorem stunTsxOnComplete_ended (h : Tracked history) {request : Request} {status : Int}
    {response : Option Msg}
    (known : .pending request.origin request.origin request.tdata.token ∈ history.actions)
    (older : request.id < history.sess.nextId)
    (asked : pjStunIsRequest request.tdata.msg.hdr.type)
    (closed : ∀ other ∈ history.sess.pendingRequestList, other.id = request.id →
      other.isOpen = false)
    (ended : stunTsxOnComplete cfg history.sess request status response addr env =
      some (after, actions)) :
    Ended history request after actions
      (fun origin => request.origin = origin → ∀ msg, response = some msg →
        ¬Slips cfg history.sess request msg addr env)
      (∀ msg, response = some msg → IsChallenge msg) := by
  simp only [stunTsxOnComplete] at ended
  split at ended
  · cases ended
  · rename_i notify middle handled challenge
    cases ended
    have authRetry := destroyTdata_authRetry middle request.id (status = pjnathEstuntimedout)
      env.destroy
    cases handleAuthChallenge_handled asked challenge with
    | notified list nextId counts =>
      have tracked := h.silent list (Nat.le_of_eq nextId.symm) silent_nil
      have gone := tracked.destroy request.id (status = pjnathEstuntimedout) env.destroy
      rw [append_nil] at gone
      have shut : ∀ other ∈ middle.pendingRequestList, other.id = request.id →
          other.isOpen = false := list ▸ closed
      constructor
      · exact gone.report known status
      · intro origin _ account
        have same := account.silent list silent_nil
        have left := same.destroy shut (status = pjnathEstuntimedout) env.destroy
        rw [append_nil] at left
        exact left.report request.tdata.token status
      · exact fun origin => rfl
      · intro origin _
        simp only [owedFor, if_true, nil_append, countP_singleton, SessAction.reports,
          decide_eq_true_eq]
        split <;> omega
      · exact .inl rfl
      · intro steady
        rw [authRetry]
        cases response with
        | none =>
          cases challenge
          exact le_rfl
        | some msg => exact counts msg rfl (steady msg rfl)
    | @retried retry quiet silent adds sameOrigin token counts few =>
      have older' := h.known _ _ _ known
      have apart : retry.origin ≠ retry.id := by
        rw [sameOrigin, adds.id]
        exact Nat.ne_of_lt older'.1
      have start := h.silent rfl le_rfl silent
      have tracked := start.add adds (.inr (by
        rw [sameOrigin, token]
        exact mem_append_left _ known))
      have gone := tracked.destroy request.id (status = pjnathEstuntimedout) env.destroy
      have shut : ∀ other ∈ middle.pendingRequestList, other.id = request.id →
          other.isOpen = false := by
        intro other there named
        rw [adds.list] at there
        cases mem_cons.mp there with
        | inl same =>
          have id := adds.id
          rw [← same, named] at id
          omega
        | inr listed => exact closed other listed named
      have isRetry : (SessAction.pending retry.id retry.origin retry.tdata.token).retries = true := by
        simpa [SessAction.retries] using apart.symm
      simp only [Bool.false_eq_true, if_false, append_nil]
      have once : (quiet ++ [SessAction.pending retry.id retry.origin retry.tdata.token]).countP
          SessAction.retries = 1 := by
        rw [countP_append, (silent.counts 0).retries, countP_singleton,
          isRetry]
        rfl
      constructor
      · rw [← append_assoc]
        exact gone
      · intro origin _ account
        have owed : owedFor request origin = owedFor retry origin := by
          rw [owedFor, owedFor, sameOrigin]
        rw [owed] at account
        have paid := (account.silent rfl silent).retry adds apart
        have left := paid.destroy shut (status = pjnathEstuntimedout) env.destroy
        rw [← append_assoc]
        exact left
      · intro origin
        rw [countP_append, (silent.counts origin).challenges]
        rfl
      · intro origin _
        rw [once, owedFor]
        split <;> omega
      · exact .inr ⟨once, authRetry.trans counts, authRetry ▸ few⟩
      · intro _
        rw [authRetry, counts]
        exact Nat.le_succ _
    | slipped received slips silent list nextId counts =>
      have tracked := h.silent list nextId silent
      have gone := tracked.destroy request.id (status = pjnathEstuntimedout) env.destroy
      have shut : ∀ other ∈ middle.pendingRequestList, other.id = request.id →
          other.isOpen = false := list ▸ closed
      have others : ∀ origin, (request.origin = origin → ∀ msg, response = some msg →
          ¬Slips cfg history.sess request msg addr env) → owedFor request origin = 0 := by
        intro origin fine
        rw [owedFor, if_neg]
        intro own
        exact fine own _ received slips
      simp only [Bool.false_eq_true, if_false, append_nil]
      constructor
      · exact gone
      · intro origin fine account
        rw [others origin fine] at account
        exact (account.silent list silent).destroy shut (status = pjnathEstuntimedout) env.destroy
      · intro origin
        exact (silent.counts origin).challenges
      · intro origin fine
        rw [others origin fine]
        exact Nat.zero_le _
      · exact .inl ((silent.counts 0).retries)
      · intro _
        rw [authRetry]
        exact counts

/-- The transaction of a request has gone on. -/
def StunSession.holding (sess : StunSession) (request : Request) (clientTsx : ClientTsx) : StunSession :=
  sess.updateRequest request.id fun request => { request with clientTsx := clientTsx }

theorem keeps_clientTsx (clientTsx : ClientTsx) :
    Keeps fun request => { request with clientTsx := clientTsx } :=
  ⟨fun _ => rfl, fun _ => rfl, fun _ => rfl, fun _ waits => waits⟩

theorem tsxGoesOn_step (h : Tracked history) {request : Request}
    (there : request ∈ history.sess.pendingRequestList)
    (completes : Completes request.clientTsx outcome) {response : Option Msg}
    (ended : tsxGoesOn cfg history.sess request outcome response addr env = some (after, actions)) :
    RequestStep history after actions
      (fun origin => request.origin = origin → ∀ msg, response = some msg →
        ¬Slips cfg (history.sess.holding request outcome.1) request msg addr env)
      (∀ msg, response = some msg → IsChallenge msg) := by
  have keeps := keeps_clientTsx outcome.1
  have only : ∀ other ∈ history.sess.pendingRequestList, other.id = request.id → other = request :=
    fun other listed named => inj_on_of_nodup_map h.unique listed there named
  have moved := h.change request.id keeps
  have sent := silent_tsxActions request.tdata request.dstAddr outcome.2
  simp only [tsxGoesOn] at ended
  split at ended
  · rename_i quiet
    cases ended
    have same : ∀ other ∈ history.sess.pendingRequestList, other.id = request.id →
        ({ other with clientTsx := outcome.1 } : Request).isOpen = other.isOpen := by
      intro other listed named
      rw [only other listed named, Request.isOpen, Request.isOpen]
      cases notifies : request.onComplete with
      | false => rw [Bool.and_false, Bool.and_false]
      | true =>
        rw [notifies, if_pos rfl] at quiet
        rw [Completes, quiet] at completes
        rw [completes]
    have noted := moved.silent rfl le_rfl sent
    constructor
    · exact noted
    · intro origin _ account
      exact (account.change keeps fun other listed named _ => same other listed named).silent rfl sent
    · intro origin _
      rw [(sent.counts origin).challenges]
      exact Nat.zero_le _
    · exact .inl ((sent.counts 0).retries)
    · exact fun _ => le_rfl
  · rename_i status completed
    split at ended
    · cases ended
    · rename_i last more finished
      cases ended
      have notifies : request.onComplete = true := by
        by_contra silenced
        rw [if_neg silenced] at completed
        cases completed
      rw [if_pos notifies] at completed
      rw [Completes, completed] at completes
      have opened : request.isOpen = true := by
        rw [Request.isOpen, completes.1, notifies]
        rfl
      have shuts : ({ request with clientTsx := outcome.1 } : Request).isOpen = false := by
        rw [Request.isOpen, completes.2]
        rfl
      have closed : ∀ other ∈ (history.sess.holding request outcome.1).pendingRequestList,
          other.id = request.id → other.isOpen = false := by
        intro other listed named
        obtain ⟨known, old, rfl⟩ := mem_map.mp listed
        split at named
        · rename_i same
          rw [if_pos same, only known old same]
          exact shuts
        · rename_i unlike
          exact absurd named unlike
      have noted := (moved.silent rfl le_rfl sent).completes request.origin status
      have known := (h.known _ _ _ (h.listed request there)).2
      have listed : SessAction.pending request.origin request.origin request.tdata.token ∈
          history.actions ++ tsxActions request.tdata request.dstAddr outcome.2 ++
            [.tsxComplete request.origin status] :=
        mem_append_left _ (mem_append_left _ known)
      have rest := stunTsxOnComplete_ended noted listed (h.bounded request there).1
        (h.asked request there) closed finished
      have whole : tsxActions request.tdata request.dstAddr outcome.2 ++
          SessAction.tsxComplete request.origin status :: more =
            (tsxActions request.tdata request.dstAddr outcome.2 ++
              [.tsxComplete request.origin status]) ++ more := by
        simp
      have silentRetries := (sent.counts 0).retries
      have oneRetry : (tsxActions request.tdata request.dstAddr outcome.2 ++
          [SessAction.tsxComplete request.origin status] ++ more).countP SessAction.retries =
            more.countP SessAction.retries := by
        rw [countP_append, countP_append, silentRetries]
        simp [SessAction.retries]
      rw [whole]
      constructor
      · rw [← append_assoc, ← append_assoc]
        exact rest.tracked
      · intro origin fine account
        have owed := account.close h keeps there opened shuts
        have silent := (owed.silent rfl sent).completes request.origin status
        rw [← append_assoc, ← append_assoc]
        exact rest.account origin fine silent
      · intro origin fine
        have paid := rest.paid origin fine
        rw [oneRetry, countP_append, countP_append, countP_append, countP_append,
          (sent.counts origin).challenges, rest.unchallenged,
          (sent.counts origin).reports]
        have one : [SessAction.tsxComplete request.origin status].countP
            (SessAction.challenges origin) ≤ owedFor request origin := by
          rw [countP_singleton, owedFor]
          by_cases own : request.origin = origin
          · split <;> omega
          · simp [SessAction.challenges, own]
        have none : [SessAction.tsxComplete request.origin status].countP
            (SessAction.reports origin) = 0 := rfl
        omega
      · rw [oneRetry]
        exact rest.retried
      · exact rest.counts

/-! ## Events -/

variable {event : SessEvent}

/-- A response arrives under which the request of the application, or the last retry of it, ends without
a word. -/
def Forgets (cfg : StunConfig) (sess : StunSession) (event : SessEvent) (origin : Nat) : Prop :=
  ∃ rx msg request, event = .rxPkt rx ∧ rx.decode cfg = .ok msg ∧ tsxLookup sess msg = some request ∧
    request.origin = origin ∧
      Slips cfg (sess.holding request (pjStunClientTsxOnRxMsg request.clientTsx msg.response).2.1)
        request msg rx.srcAddr rx.complete

/-- If a response to a pending request arrives, it is a challenge. -/
def OnlyChallenges (cfg : StunConfig) (sess : StunSession) (event : SessEvent) : Prop :=
  ∀ rx msg request, event = .rxPkt rx → rx.decode cfg = .ok msg → tsxLookup sess msg = some request →
    IsChallenge msg

theorem RequestStep.imp {fine' : Nat → Prop} {steady' : Prop}
    (h : RequestStep history after actions fine steady)
    (fewer : ∀ origin, fine' origin → fine origin) (steadier : steady' → steady) :
    RequestStep history after actions fine' steady' where
  tracked := h.tracked
  account := fun origin same => h.account origin (fewer origin same)
  challenged := fun origin same => h.challenged origin (fewer origin same)
  retried := h.retried
  counts := fun same => h.counts (steadier same)

/-- Nothing happens. -/
theorem RequestStep.nothing (h : Tracked history) :
    RequestStep history history.sess [] fine steady :=
  .silent h rfl (Nat.le_refl _) silent_nil rfl

theorem sendResponse_silent {token : Nat} {response : Msg} {authInfo : Option ReqCredInfo}
    {retransmission : Bool} {env : SendEnv}
    (sent : sendResponse cfg sess token response authInfo retransmission addr env =
      some (msg, after, actions)) : after = sess ∧ Silent actions := by
  simp only [sendResponse] at sent
  repeat' split at sent
  all_goals cases sent
  all_goals exact ⟨rfl, by simp [Silent, SessAction.ofRequest]⟩

theorem authenticateReq_silent {rx : RxPkt} {info : Option ReqCredInfo}
    (checked : authenticateReq cfg sess rx msg = some (info, after, actions)) :
    after = sess ∧ Silent actions := by
  simp only [authenticateReq] at checked
  repeat' split at checked
  all_goals cases checked
  all_goals first
    | exact ⟨rfl, silent_nil⟩
    | exact sendResponse_silent ‹_›

theorem onIncomingRequest_silent {rx : RxPkt}
    (received : onIncomingRequest cfg sess rx msg = some (after, actions)) :
    after = sess ∧ Silent actions := by
  have checks : ∀ {info : Option ReqCredInfo} {after : StunSession} {actions : List SessAction},
      (if rx.noAuthenticate || sess.authType = .none then some (some ReqCredInfo.empty, sess, [])
        else authenticateReq cfg sess rx msg) = some (info, after, actions) →
      after = sess ∧ Silent actions := by
    intro info after actions checked
    split at checked
    · cases checked
      exact ⟨rfl, silent_nil⟩
    · exact authenticateReq_silent checked
  simp only [onIncomingRequest] at received
  split at received
  · cases received
  · rename_i checked
    cases received
    exact checks checked
  · rename_i checked
    obtain ⟨rfl, -⟩ := checks checked
    split at received
    · cases received
      exact ⟨rfl, by simp [Silent, SessAction.ofRequest]⟩
    · split at received
      · cases received
        exact ⟨rfl, silent_nil⟩
      · have ⟨⟨left, last, more⟩, sent, same⟩ := Option.map_eq_some_iff.mp received
        cases same
        exact sendResponse_silent sent

theorem onIncomingResponse_step (h : Tracked history) {rx : RxPkt}
    (decoded : rx.decode cfg = .ok msg)
    (received : onIncomingResponse cfg history.sess rx msg = some (after, actions)) :
    RequestStep history after actions (fun origin => ¬Forgets cfg history.sess (.rxPkt rx) origin)
      (OnlyChallenges cfg history.sess (.rxPkt rx)) := by
  simp only [onIncomingResponse] at received
  split at received
  · cases received
    exact .nothing h
  · rename_i request found
    split at received
    · cases received
      exact .nothing h
    · have step := tsxGoesOn_step h (mem_of_find?_eq_some found)
        (pjStunClientTsxOnRxMsg_completes request.clientTsx msg.response) received
      apply step.imp
      · intro origin kept own msg' same slips
        cases same
        exact kept ⟨rx, msg, request, rfl, decoded, found, own, slips⟩
      · intro only msg' same
        cases same
        exact only rx msg request rfl decoded found

theorem checkCachedResponse_silent {rx : RxPkt} {hit : Bool}
    (checked : checkCachedResponse cfg sess rx msg = some (hit, after, actions)) :
    Silent actions ∧ after.pendingRequestList = sess.pendingRequestList ∧ after.nextId = sess.nextId ∧
      after.authRetry = sess.authRetry ∧ (hit = false → after = sess) := by
  simp only [checkCachedResponse] at checked
  split at checked
  · cases checked
    exact ⟨silent_nil, rfl, rfl, rfl, fun _ => rfl⟩
  · split at checked
    · cases checked
    · rename_i sent
      cases checked
      obtain ⟨rfl, quiet⟩ := sendResponse_silent sent
      exact ⟨quiet, rfl, rfl, rfl, fun impossible => Bool.noConfusion impossible⟩

theorem pjStunSessionOnRxPkt_step (h : Tracked history) {rx : RxPkt}
    (received : pjStunSessionOnRxPkt cfg history.sess rx = some (after, actions)) :
    RequestStep history after actions (fun origin => ¬Forgets cfg history.sess (.rxPkt rx) origin)
      (OnlyChallenges cfg history.sess (.rxPkt rx)) := by
  simp only [pjStunSessionOnRxPkt] at received
  split at received
  · cases received
    exact .nothing h
  · split at received
    · split at received
      · cases received
        exact .nothing h
      · have ⟨⟨left, last, more⟩, sent, same⟩ := Option.map_eq_some_iff.mp received
        cases same
        obtain ⟨rfl, quiet⟩ := sendResponse_silent sent
        exact .silent h rfl le_rfl quiet rfl
    · rename_i msg decoded
      split at received
      · cases received
      · rename_i checked
        cases received
        have ⟨quiet, list, nextId, authRetry, _⟩ := checkCachedResponse_silent checked
        exact .silent h list (Nat.le_of_eq nextId.symm) quiet authRetry
      · rename_i middle more checked
        have ⟨_, _, _, _, same⟩ := checkCachedResponse_silent checked
        rw [same rfl] at received
        split at received
        · exact onIncomingResponse_step h decoded received
        · split at received
          · obtain ⟨rfl, quiet⟩ := onIncomingRequest_silent received
            exact .silent h rfl le_rfl quiet rfl
          · cases received
            refine .silent h rfl le_rfl ?_ rfl
            split <;> simp [Silent, SessAction.ofRequest]

section
variable {request : Request} (h : Tracked history)
  (there : request ∈ history.sess.pendingRequestList)
include h there

theorem onRetransmitTimer_step
    (expired : onRetransmitTimer cfg history.sess request answers env = some (after, actions)) :
    RequestStep history after actions (fun _ => True) True := by
  simp only [onRetransmitTimer] at expired
  split at expired
  · cases expired
    exact .nothing h
  · have completes := retransmitTimerCallback_completes
      { request.clientTsx with retransmitTimer.scheduled := none } answers
    have step := tsxGoesOn_step h there completes expired
    apply step.imp
    · intro origin _ _ msg impossible
      cases impossible
    · intro _ msg impossible
      cases impossible

theorem stunTsxOnDestroy_step :
    RequestStep history (stunTsxOnDestroy history.sess request) [] (fun _ => True) True := by
  simp only [stunTsxOnDestroy]
  split
  · rename_i due
    have closed : ∀ other ∈ history.sess.pendingRequestList, other.id = request.id →
        other.isOpen = false := by
      intro other listed named
      rw [inj_on_of_nodup_map h.unique listed there named, Request.isOpen,
        h.waits request there due, Bool.and_false]
    constructor
    · rw [append_nil]
      exact h.erase request.id
    · intro origin _ account
      rw [append_nil]
      exact account.erase closed
    · exact fun _ _ => Nat.zero_le _
    · exact .inl rfl
    · exact fun _ => le_rfl
  · exact .nothing h

theorem pjStunSessionCancelReq_step (notify : Bool) (notifyStatus answer : Int)
    (cancelled : pjStunSessionCancelReq history.sess request notify notifyStatus answer =
      (after, actions)) :
    RequestStep history after actions (fun origin => .cancelled origin ∉ actions) True := by
  simp only [pjStunSessionCancelReq] at cancelled
  split at cancelled
  · cases cancelled
    exact .nothing h
  · cases cancelled
    have moved := h.change request.id (keeps_scheduleDestroy answer)
    have known := (h.known _ _ _ (h.listed request there)).2
    have others : ∀ origin, SessAction.cancelled origin ∉
        (if notify then [.requestComplete request.origin request.tdata.token notifyStatus] else []) ++
          [SessAction.cancelled request.origin] → request.origin ≠ origin := by
      intro origin absent own
      exact absent (mem_append_right _ (mem_singleton.mpr (by rw [own])))
    constructor
    · rw [← append_assoc]
      cases notify with
      | false =>
        rw [if_neg Bool.false_ne_true, append_nil]
        exact moved.cancelled request.origin
      | true => exact (moved.report known notifyStatus).cancelled request.origin
    · intro origin absent account
      have apart := others origin absent
      have only : ∀ other ∈ history.sess.pendingRequestList, other.id = request.id →
          other.origin = origin → (pjStunClientTsxScheduleDestroy other answer).isOpen =
            other.isOpen := by
        intro other listed named own
        rw [inj_on_of_nodup_map h.unique listed there named] at own
        exact absurd own apart
      have same := account.change (keeps_scheduleDestroy answer) only
      have quiet : ∀ kind : SessAction → Bool, kind (.cancelled request.origin) = false →
          kind (.requestComplete request.origin request.tdata.token notifyStatus) = false →
          ((if notify then
              [SessAction.requestComplete request.origin request.tdata.token notifyStatus] else []) ++
            [SessAction.cancelled request.origin]).countP kind = 0 := by
        intro kind cancel report
        cases notify <;> simp [cancel, report]
      have unreported := quiet (SessAction.reports origin) rfl (by simp [SessAction.reports, apart])
      exact same.append unreported (quiet (SessAction.accepts origin) rfl rfl)
    · intro origin _
      cases notify <;> exact Nat.zero_le _
    · left
      cases notify <;> rfl
    · exact fun _ => le_rfl

end

theorem pjStunClientTsxRetransmit_complete (request : Request) (modCount : Bool) (answers : Answers) :
    (pjStunClientTsxRetransmit request modCount answers).1.complete = request.clientTsx.complete := by
  simp only [pjStunClientTsxRetransmit]
  split
  · rfl
  · rw [(tsxTransmitMsg_complete _ modCount answers).2]
    split <;> rfl

section
variable (h : Tracked history)
include h

theorem pjStunSessionRetransmitReq_step {request : Request}
    (there : request ∈ history.sess.pendingRequestList) (modCount : Bool) (answers : Answers)
    (retransmitted : pjStunSessionRetransmitReq history.sess request modCount answers =
    (after, actions)) :
    RequestStep history after actions (fun _ => True) True := by
  simp only [pjStunSessionRetransmitReq] at retransmitted
  split at retransmitted
  · cases retransmitted
    exact .nothing h
  · cases retransmitted
    have keeps := keeps_clientTsx (pjStunClientTsxRetransmit request modCount answers).1
    have sent := silent_tsxActions request.tdata request.dstAddr
      (pjStunClientTsxRetransmit request modCount answers).2
    constructor
    · exact (h.change request.id keeps).silent rfl le_rfl sent
    · intro origin _ account
      apply Account.silent (account.change keeps _) rfl sent
      intro other listed named _
      rw [inj_on_of_nodup_map h.unique listed there named, Request.isOpen, Request.isOpen,
        pjStunClientTsxRetransmit_complete]
    · intro origin _
      rw [(sent.counts origin).challenges]
      exact Nat.zero_le _
    · exact .inl ((sent.counts 0).retries)
    · exact fun _ => le_rfl

theorem pjStunSessionDestroy_step :
    RequestStep history (pjStunSessionDestroy history.sess) [] (fun _ => True) True := by
  have keeps : Keeps fun request => { request with
      clientTsx := pjStunClientTsxStop request.clientTsx
      destroyTimer := false } :=
    ⟨fun _ => rfl, fun _ => rfl, fun _ => rfl, fun _ _ impossible => Bool.noConfusion impossible⟩
  constructor
  · rw [append_nil]
    exact h.map keeps rfl le_rfl
  · intro origin _ account
    rw [append_nil]
    exact account.map keeps rfl fun _ _ _ => rfl
  · exact fun _ _ => Nat.zero_le _
  · exact .inl rfl
  · exact fun _ => le_rfl

theorem pjStunSessionSendMsg_step {token : Nat} {env : SendEnv} {status : Int}
    (sent : pjStunSessionSendMsg cfg history.sess token cacheRes retransmit server tdata none env =
    some (status, after, actions)) :
    RequestStep history after actions (fun _ => True) True := by
  cases pjStunSessionSendMsg_cases sent with
  | inl other => exact .silent h other.2.list other.2.nextId other.2.quiet other.2.authRetry
  | inr added =>
    obtain ⟨⟨request, quiet, silent, rfl, adds, origin, -⟩, authRetry⟩ := added
    have own : request.origin = request.id := origin.trans adds.id.symm
    have start := h.silent rfl le_rfl silent
    have none : (quiet ++ [SessAction.pending request.id request.origin request.tdata.token]).countP
        SessAction.retries = 0 := by
      rw [countP_append, (silent.counts 0).retries]
      simp [SessAction.retries, own]
    constructor
    · rw [← append_assoc]
      exact start.add adds (.inl own)
    · intro origin _ account
      rw [← append_assoc]
      exact Account.add (account.silent rfl silent) adds own
    · intro origin _
      rw [countP_append, (silent.counts origin).challenges]
      exact Nat.zero_le _
    · exact .inl none
    · exact fun _ => Nat.le_of_eq authRetry.symm

/-- Every event. -/
theorem sessStep_step (step : sessStep cfg history.sess event = some (after, actions)) :
    RequestStep history after actions
      (fun origin => ¬Forgets cfg history.sess event origin ∧ .cancelled origin ∉ actions)
      (OnlyChallenges cfg history.sess event) := by
  have always : ∀ {after : StunSession} {actions : List SessAction},
      RequestStep history after actions (fun _ => True) True →
      RequestStep history after actions
        (fun origin => ¬Forgets cfg history.sess event origin ∧ .cancelled origin ∉ actions)
        (OnlyChallenges cfg history.sess event) :=
    fun step => step.imp (fun _ _ => trivial) fun _ => trivial
  cases event with
  | sendMsg token cacheRes retransmit server tdata env =>
    have ⟨⟨status, last⟩, sent, same⟩ := Option.map_eq_some_iff.mp step
    cases same
    exact always (pjStunSessionSendMsg_step h sent)
  | rxPkt rx => exact (pjStunSessionOnRxPkt_step h step).imp (fun _ fine => fine.1) id
  | retransmitTimer id answers env =>
    simp only [sessStep] at step
    split at step
    · cases step
      exact .nothing h
    · rename_i request found
      exact always (onRetransmitTimer_step h (mem_of_find?_eq_some found) step)
  | destroyTimer id =>
    simp only [sessStep] at step
    split at step
    · cases step
      exact .nothing h
    · rename_i request found
      cases step
      exact always (stunTsxOnDestroy_step h (mem_of_find?_eq_some found))
  | cacheTimeout id =>
    simp only [sessStep, onCacheTimeout] at step
    split at step
    · cases step
      exact .nothing h
    · split at step
      · cases step
        exact .nothing h
      · cases step
        exact .silent h rfl le_rfl (by simp [Silent, SessAction.ofRequest]) rfl
  | cancelReq id notify notifyStatus answer =>
    simp only [sessStep] at step
    split at step
    · cases step
      exact .nothing h
    · rename_i request found
      have cancelled := pjStunSessionCancelReq_step h (mem_of_find?_eq_some found) notify
        notifyStatus answer (Option.some.inj step)
      exact cancelled.imp (fun _ fine => fine.2) fun _ => trivial
  | retransmitReq id modCount answers =>
    simp only [sessStep] at step
    split at step
    · cases step
      exact .nothing h
    · rename_i request found
      exact always (pjStunSessionRetransmitReq_step h (mem_of_find?_eq_some found) modCount
        answers (Option.some.inj step))
  | destroy =>
    cases step
    exact always (pjStunSessionDestroy_step h)
  | setCredential authType cred getCred =>
    cases step
    cases cred <;> exact .silent h rfl le_rfl silent_nil rfl
  | setSoftwareName | useFingerprint =>
    cases step
    exact .silent h rfl le_rfl silent_nil rfl

end

/-! ## Runs -/

variable {events : List SessEvent}

/-- No response arrives under which the request of the application ends without a word. -/
def Remembers (cfg : StunConfig) (origin : Nat) (state : Option SessHistory) (event : SessEvent) : Prop :=
  ∀ history, state = some history → ¬Forgets cfg history.sess event origin

/-- The responses that arrive for pending requests are challenges. -/
def Challenged (cfg : StunConfig) (state : Option SessHistory) (event : SessEvent) : Prop :=
  ∀ history, state = some history → OnlyChallenges cfg history.sess event

theorem sessNext_some {last : SessHistory} (next : sessNext cfg (some history) event = some last) :
    ∃ after actions, sessStep cfg history.sess event = some (after, actions) ∧
      last = ⟨after, history.actions ++ actions⟩ := by
  have ⟨⟨after, actions⟩, step, same⟩ := Option.map_eq_some_iff.mp next
  exact ⟨after, actions, step, same.symm⟩

theorem sessNext_none (events : List SessEvent) :
    events.foldl (sessNext cfg) none = none := by
  induction events with
  | nil => rfl
  | cons event rest ih => exact ih

theorem tracked_start (fingerprint : Bool) (softwareName : Str) (hasRxRequest hasRxIndication : Bool) :
    Tracked (sessStart fingerprint softwareName hasRxRequest hasRxIndication) := by
  constructor <;> simp [sessStart, pjStunSessionCreate]

/-- A run keeps account of the requests of the application that are not cancelled. -/
theorem account_run {start last : SessHistory} (tracked : Tracked start)
    (account : Account origin 0 start)
    (regular : Run.Meets (sessNext cfg) (Remembers cfg origin) (some start) events)
    (ends : events.foldl (sessNext cfg) (some start) = some last) :
    Tracked last ∧ (.cancelled origin ∉ last.actions → Account origin 0 last) := by
  have always : Run.Always (sessNext cfg) (fun state => ∀ history, state = some history →
      Tracked history ∧ (.cancelled origin ∉ history.actions → Account origin 0 history))
      (some start) events := by
    apply Run.always ?_ ?_ regular
    · intro state event before remembers history next
      cases state with
      | none => cases next
      | some known =>
        obtain ⟨after, actions, step, rfl⟩ := sessNext_some next
        have here := before known rfl
        have moved := sessStep_step here.1 step
        refine ⟨moved.tracked, fun uncancelled => ?_⟩
        have early : .cancelled origin ∉ known.actions :=
          fun among => uncancelled (mem_append_left _ among)
        have late : .cancelled origin ∉ actions :=
          fun among => uncancelled (mem_append_right _ among)
        exact moved.account origin ⟨remembers known rfl, late⟩ (here.2 early)
    · intro history same
      cases same
      exact ⟨tracked, fun _ => account⟩
  exact always.last last ends

/-- What a run adds, if it holds of nothing, and of the actions of a step in front of what it holds
of. -/
theorem adds_run {good : Option SessHistory → SessEvent → Prop}
    (added : StunSession → List SessAction → Prop) (nothing : ∀ sess, added sess [])
    (more : ∀ {history event after actions rest},
      RequestStep history after actions
        (fun origin => ¬Forgets cfg history.sess event origin ∧ .cancelled origin ∉ actions)
        (OnlyChallenges cfg history.sess event) →
      good (some history) event → added after rest → added history.sess (actions ++ rest))
    {start last : SessHistory} (tracked : Tracked start)
    (meets : Run.Meets (sessNext cfg) good (some start) events)
    (ends : events.foldl (sessNext cfg) (some start) = some last) :
    ∃ actions, last.actions = start.actions ++ actions ∧ added start.sess actions := by
  induction events generalizing start with
  | nil =>
    cases ends
    exact ⟨[], (append_nil _).symm, nothing _⟩
  | cons event rest ih =>
    rw [foldl_cons] at ends
    cases next : sessNext cfg (some start) event with
    | none =>
      rw [next, sessNext_none] at ends
      cases ends
    | some middle =>
      obtain ⟨after, actions, step, rfl⟩ := sessNext_some next
      have moved := sessStep_step tracked step
      have later := meets.2
      rw [next] at ends later
      have ⟨gathered, same, holds⟩ := ih moved.tracked later ends
      exact ⟨actions ++ gathered, by rw [same, append_assoc], more moved meets.1 holds⟩

/-- As long as all responses are challenges, there are three retries at most. -/
theorem retries_run {start last : SessHistory} (tracked : Tracked start)
    (challenged : Run.Meets (sessNext cfg) (Challenged cfg) (some start) events)
    (ends : events.foldl (sessNext cfg) (some start) = some last) :
    ∃ actions, last.actions = start.actions ++ actions ∧
      (actions.countP SessAction.retries = 0 ∨
        actions.countP SessAction.retries + start.sess.authRetry ≤ 3) := by
  apply adds_run (fun sess actions => actions.countP SessAction.retries = 0 ∨
    actions.countP SessAction.retries + sess.authRetry ≤ 3) _ _ tracked challenged ends
  · exact fun _ => .inl rfl
  · intro history event after actions rest moved now few
    have counts := moved.counts (now history rfl)
    rw [countP_append]
    cases moved.retried with
    | inl none => omega
    | inr one => omega

/-- Each of them is answered by a retry, or by a report. -/
theorem challenges_run {start last : SessHistory} (tracked : Tracked start)
    (regular : Run.Meets (sessNext cfg) (Remembers cfg origin) (some start) events)
    (ends : events.foldl (sessNext cfg) (some start) = some last) :
    ∃ actions, last.actions = start.actions ++ actions ∧ (.cancelled origin ∉ actions →
      actions.countP (SessAction.challenges origin) ≤
        actions.countP (SessAction.reports origin) + actions.countP SessAction.retries) := by
  apply adds_run (fun _ actions => .cancelled origin ∉ actions →
    actions.countP (SessAction.challenges origin) ≤
      actions.countP (SessAction.reports origin) + actions.countP SessAction.retries)
    _ _ tracked regular ends
  · exact fun _ _ => le_rfl
  · intro history event after actions rest moved now answered uncancelled
    rw [mem_append, not_or] at uncancelled
    have first := moved.challenged origin ⟨now history rfl, uncancelled.1⟩
    have others := answered uncancelled.2
    rw [countP_append, countP_append, countP_append]
    omega

/-- The request of the application was reported, once, with its token. -/
structure SessHistory.ReportedOnce (history : SessHistory) (origin token : Nat) : Prop where
  once : history.actions.countP (SessAction.reports origin) = 1
  token : ∀ token' status, .requestComplete origin token' status ∈ history.actions → token' = token

/-- The request of the application was not reported, and a request for it is pending and open, with its
token. -/
structure SessHistory.StillPending (history : SessHistory) (origin token : Nat) : Prop where
  unreported : history.actions.countP (SessAction.reports origin) = 0
  pending : ∃ request ∈ history.sess.pendingRequestList, request.origin = origin ∧
    request.tdata.token = token ∧ request.isOpen

theorem Tracked.token_unique (h : Tracked history) {token token' : Nat}
    (known : .pending origin origin token ∈ history.actions)
    (known' : .pending origin origin token' ∈ history.actions) : token' = token := by
  by_contra apart
  have both : List.Subperm [SessAction.pending origin origin token, .pending origin origin token']
      (history.actions.filter (SessAction.accepts origin)) := by
    apply subperm_of_subset
    · simp [Ne.symm apart]
    · intro action among
      simp only [mem_cons, not_mem_nil, or_false] at among
      rcases among with rfl | rfl
      · exact mem_filter.mpr ⟨known, by simp [SessAction.accepts]⟩
      · exact mem_filter.mpr ⟨known', by simp [SessAction.accepts]⟩
  have few := h.single origin
  rw [countP_eq_length_filter] at few
  have many := both.length_le
  simp only [length_cons, length_nil] at many
  omega

/-- Whatever happens to a request, it was reported once, or it or a retry of it is pending. -/
theorem reported_or_pending (tracked : Tracked history) (account : Account origin 0 history)
    {token : Nat} (accepted : .pending id origin token ∈ history.actions) :
    history.ReportedOnce origin token ∨ history.StillPending origin token := by
  have own := (tracked.known id origin token accepted).2
  have one : history.actions.countP (SessAction.accepts origin) = 1 := by
    have few := tracked.single origin
    have some' : 0 < history.actions.countP (SessAction.accepts origin) := by
      apply countP_pos_iff.mpr
      exact ⟨_, own, by simp [SessAction.accepts]⟩
    omega
  have total := account
  rw [Account, one] at total
  by_cases reported : history.actions.countP (SessAction.reports origin) = 1
  · left
    refine ⟨reported, fun token' status among => ?_⟩
    exact tracked.token_unique own (tracked.reported origin token' status among)
  · right
    refine ⟨by omega, ?_⟩
    have opened : 0 < openCount origin history.sess := by omega
    have ⟨request, there, counted⟩ := countP_pos_iff.mp opened
    simp only [Bool.and_eq_true, decide_eq_true_eq] at counted
    have known := (tracked.known _ _ _ (tracked.listed request there)).2
    rw [counted.1] at known
    exact ⟨request, there, counted.1, tracked.token_unique own known, counted.2⟩

/-- A request of the application, with the transaction ID zero. -/
def plainRequest : TxData :=
  createTdata (pjStunMsgCreate 0x0001 pjStunMagic (Vector.replicate 12 0)) ReqCredInfo.empty

/-- A packet arrives, and everything is answered with success. -/
def plainRx (packet : Str) (retryId : UInt8) : SessEvent := .rxPkt {
  packet := (packet.getD · 0)
  pktSize := packet.length
  options := ⟨true, true, false⟩
  noAuthenticate := false
  token := 0
  srcAddr := bindingAddr
  errorResponse := none
  reply := plainEnv
  complete := ⟨Vector.replicate 12 retryId, plainEnv, pjSuccess⟩ }

/-- A message without attributes, but for some bytes, whose transaction ID repeats a byte. -/
def plainPacket (type : Str) (id : UInt8) (body : Str) : Str :=
  type ++ [0, UInt8.ofNat body.length, 0x21, 0x12, 0xA4, 0x42] ++ List.replicate 12 id ++ body

/-- A request is sent, its success response arrives, and its transaction is destroyed. -/
def plainEvents : List SessEvent :=
  [.sendMsg 7 false true bindingAddr plainRequest plainEnv, plainRx (plainPacket [1, 1] 0 []) 1,
    .destroyTimer 0]

theorem remembers_of_auth {state : Option SessHistory}
    (auth : state.map (fun history => history.sess.authType) = some .none) :
    Remembers cfg origin state event := by
  intro history same forgets
  have ⟨rx, msg, request, _, _, _, _, slips⟩ := forgets
  rw [same] at auth
  have none : history.sess.authType = .none := Option.some.inj auth
  have longTerm : history.sess.authType = .longTerm := slips.1
  rw [none] at longTerm
  cases longTerm

/-- The actions of a run that is carried out, and the pending requests. -/
def carryOut (events : List SessEvent) : Option (List SessAction × List (Nat × Bool)) :=
  (events.foldl (sessNext plainConfig) (some (sessStart false [] true false))).map fun history =>
    (history.actions, history.sess.pendingRequestList.map fun request => (request.id, request.isOpen))

theorem carryOut_some {pending : List (Nat × Bool)}
    (out : carryOut events = some (actions, pending)) :
    ∃ history, events.foldl (sessNext plainConfig) (some (sessStart false [] true false)) =
        some history ∧ history.actions = actions ∧
      history.sess.pendingRequestList.map (fun request => (request.id, request.isOpen)) = pending := by
  have ⟨history, ends, same⟩ := Option.map_eq_some_iff.mp out
  injection same with actions pending
  exact ⟨history, ends, actions, pending⟩

/-- The bytes of the request. -/
def plainRequestPkt : Str := plainPacket [0, 1] 0 []

theorem plainEvents_out : carryOut plainEvents =
    some ([.send false 7 plainRequestPkt bindingAddr pjSuccess, .pending 0 0 7,
      .tsxComplete 0 pjSuccess, .requestComplete 0 7 pjSuccess], []) := by
  decide

/-- The credential of a user. -/
def challengedCred : AuthCred := .static ⟨[], [117], .plain, [112], []⟩

/-- A session with a long term credential sends a request. -/
def challengedStart : List SessEvent :=
  [.setCredential .longTerm (some challengedCred) fun _ => .error pjEinval,
    .sendMsg 7 false true bindingAddr plainRequest plainEnv]

/-- A challenge arrives, with what follows the code. A retry gets the next ID. -/
def unauthorizedRx (id : UInt8) (more : Str) : SessEvent :=
  plainRx (plainPacket [1, 0x11] id ([0, 9, 0, 4, 0, 0, 4, 1] ++ more)) (id + 1)

/-- A nonce. -/
def nonceAttr (nonce : UInt8) : Str := [0, 0x15, 0, 4, nonce, nonce, nonce, nonce]

/-- A challenge without a nonce, after which the transaction is destroyed. -/
def forgottenEvents : List SessEvent := challengedStart ++ [unauthorizedRx 0 [], .destroyTimer 0]

/-- Three challenges. -/
def challengedThrice : List SessEvent := challengedStart ++
  [unauthorizedRx 0 (nonceAttr 1), unauthorizedRx 1 (nonceAttr 2), unauthorizedRx 2 (nonceAttr 3)]

end Pjnath.Stun
