import Pjproject.Stun.Auth
import Pjproject.Stun.Transaction

/-!
# The STUN session

`stun_session.c`, over the messages, the client transactions and the authentication. Every entry takes
the group lock, so that an event is one step; what the callbacks do to the session are events of their
own. A call comes with the answers of the timer heap, of the transport and of the random generator,
and what it does to its surroundings is a list of actions. Allocations do not fail, the packet is
encoded in memory whose contents are given, and where the encoder does what C gives no meaning to, a
call has no outcome. The log, the groups of addresses and the length that the parser reports are left
out.
-/

namespace Pjnath.Stun
open Pj

/-- `PJ_EPENDING`. -/
def pjEpending : Int := 70002

/-- `PJ_STUN_IS_RESPONSE`. -/
def pjStunIsResponse (msgType : UInt16) : Bool := msgType &&& 0x0100 = 0x0100

/-- `PJ_STUN_IS_INDICATION`. -/
def pjStunIsIndication (msgType : UInt16) : Bool := msgType &&& 0x0110 = 0x0010

/-- `pj_stun_auth_type`. -/
inductive AuthType
  | none
  | shortTerm
  | longTerm
deriving DecidableEq, Repr

/-- The parts of `pj_stun_config` that are used, and the functions of pjlib-util. -/
structure StunConfig where
  rtoMsec : Nat
  hmacSha1 : Str → Str → Vector UInt8 20
  crc32 : Str → UInt32
  md5 : Str → Str

/-- `pj_stun_tx_data`, as far as requests and responses share it. -/
structure TxData where
  msg : Msg
  token : Nat
  retransmit : Bool
  msgMagic : UInt32
  msgKey : Vector UInt8 12
  authInfo : ReqCredInfo
  pkt : Str
deriving DecidableEq, Repr

/-- A request in the list of pending requests, with its transaction. Requests are told apart by the
order in which they were accepted; `origin` is the request of the application: this one, or the one
that this is a retry of. `onComplete` is whether the transaction still has that callback, and
`destroyTimer` whether the timer that destroys it is active. -/
structure Request where
  id : Nat
  origin : Nat
  tdata : TxData
  dstAddr : Sockaddr
  clientTsx : ClientTsx
  onComplete : Bool
  destroyTimer : Bool

/-- A response in the cache, told apart in the same way. -/
structure CachedResponse where
  id : Nat
  tdata : TxData
deriving DecidableEq, Repr

/-- `pj_stun_session`, with the `get_cred` of a dynamic credential and with what callbacks are set. -/
structure StunSession where
  isDestroying : Bool
  useFingerprint : Bool
  authType : AuthType
  cred : AuthCred
  getCred : Msg → Except Int (ReqCredInfo × PasswdType × Str)
  authRetry : Nat
  nextNonce : Str
  serverRealm : Str
  srvName : Str
  hasRxRequest : Bool
  hasRxIndication : Bool
  pendingRequestList : List Request
  cachedResponseList : List CachedResponse
  nextId : Nat

/-- What a session does. It calls `on_send_msg`, which returns a status, with what `send_response` is
told about a retransmission; `on_request_complete`, `on_rx_request` and `on_rx_indication`; it adds a
request to the pending ones, or a response to the cache. The transaction of a request completes, a
cached response times out, and a request is cancelled. -/
inductive SessAction
  | send (retransmission : Bool) (token : Nat) (pkt : Str) (dstAddr : Sockaddr) (status : Int)
  | requestComplete (origin token : Nat) (status : Int)
  | rxRequest (msg : Msg) (token : Nat) (srcAddr : Sockaddr)
  | rxIndication (msg : Msg) (token : Nat) (srcAddr : Sockaddr)
  | pending (id origin token : Nat)
  | tsxComplete (origin : Nat) (status : Int)
  | cached (response : CachedResponse)
  | cacheTimeout (id : Nat)
  | cancelled (origin : Nat)
deriving DecidableEq, Repr

/-- What comes with sending: what the memory of the packet held, and the answers. -/
structure SendEnv where
  old : Nat → UInt8
  answers : Answers

/-- What comes with the end of a request: the random ID of a retry, what comes with sending it, and
what the timer heap returns for the timer that destroys the transaction. -/
structure EndEnv where
  tsxId : Vector UInt8 12
  retry : SendEnv
  destroy : Int

/-- A call has a status, or a message. -/
abbrev Called (α : Type) := Option (α × StunSession × List SessAction)

/-! ## Messages -/

/-- The credential of nobody. -/
def ReqCredInfo.empty : ReqCredInfo := ⟨[], [], [], []⟩

/-- `create_tdata`, with a message and its key. -/
def createTdata (msg : Msg) (authInfo : ReqCredInfo) : TxData where
  msg := msg
  token := 0
  retransmit := false
  msgMagic := msg.hdr.magic
  msgKey := msg.hdr.tsxId
  authInfo := authInfo
  pkt := []

/-- The code of an `ERROR-CODE` attribute. Decoded attributes of this type have no other kind. -/
def Attr.errCode (attr : Attr) : Int :=
  match attr.value with
  | .errcode errCode _ => errCode
  | _ => 0

/-- The code of the first `ERROR-CODE` attribute. -/
def findErrCode (msg : Msg) : Option Int := (pjStunMsgFindAttr msg attrErrorCode).map Attr.errCode

/-- What the transaction reads of a message. -/
def Msg.response (msg : Msg) : Response := ⟨msg.hdr.type.toNat, findErrCode msg⟩

/-- A success response or an error response. -/
def isAnyResponse (msgType : UInt16) : Bool :=
  pjStunIsSuccessResponse msgType.toNat || pjStunIsErrorResponse msgType.toNat

/-- `pj_stun_auth_valid_for_msg`. -/
def pjStunAuthValidForMsg (msg : Msg) : Bool :=
  if !pjStunIsErrorResponse msg.hdr.type.toNat && !pjStunIsIndication msg.hdr.type then true
  else if pjStunIsIndication msg.hdr.type then false
  else
    match findErrCode msg with
    | none => true
    | some errCode => errCode ≠ 400 ∧ errCode ≠ 401 ∧ errCode ≠ 438

/-- `pj_stun_msg_add_string_attr`. -/
def pjStunMsgAddStringAttr (msg : Msg) (attrType : UInt16) (value : Str) : Except Int Msg :=
  pjStunMsgAddAttr msg (createAttr attrType (.string value))

/-- `stun_err_msg_map`. -/
def stunErrMsgMap : List (Int × String) := [
  (300, "Try Alternate"),
  (400, "Bad Request"),
  (401, "Unauthorized"),
  (403, "Forbidden"),
  (420, "Unknown Attribute"),
  (437, "Allocation Mismatch"),
  (438, "Stale Nonce"),
  (439, "Active Destination Already Set"),
  (441, "Wrong Credentials"),
  (442, "Unsupported Transport Protocol"),
  (445, "Operation for TCP Only"),
  (446, "Connection Failure"),
  (447, "Connection Timeout"),
  (486, "Allocation Quota Reached"),
  (487, "Role Conflict"),
  (500, "Server Error"),
  (508, "Insufficient Capacity"),
  (600, "Global Failure")]

/-- The bytes of a text. -/
def textBytes (text : String) : Str := ofChars text.toList

/-- `pj_stun_get_err_reason`, with the text that `pj_stun_errcode_attr_create` takes for other codes. -/
def pjStunGetErrReason (errCode : Int) : Str :=
  match stunErrMsgMap.find? fun entry => entry.1 = errCode with
  | some entry => textBytes entry.2
  | none => textBytes s!"Unknown error {errCode}"

/-- `pj_stun_msg_create_response`. -/
def pjStunMsgCreateResponse (reqMsg : Msg) (errCode : Int) (errMsg : Option Str) : Except Int Msg :=
  if !pjStunIsRequest reqMsg.hdr.type then .error pjnathEinstunmsgtype
  else
    let create := fun msgType => pjStunMsgCreate msgType reqMsg.hdr.magic reqMsg.hdr.tsxId
    if errCode = 0 then .ok (create (reqMsg.hdr.type ||| 0x0100))
    else pjStunMsgAddAttr (create (reqMsg.hdr.type ||| 0x0110))
      (createAttr attrErrorCode (.errcode errCode (errMsg.getD (pjStunGetErrReason errCode))))

/-- `create_challenge`, of a rejection whose text may be missing. -/
def createChallenge (msg : Msg) (errCode : Int) (errText : String) (realm nonce : Str) :
    Except Int Msg := do
  let response ←
    pjStunMsgCreateResponse msg errCode (if errText = "" then none else some (textBytes errText))
  if errCode = 400 then return response
  else
    let response ← if realm = [] then pure response
      else pjStunMsgAddStringAttr response attrRealm realm
    let nonce := if realm ≠ [] ∧ nonce = [] then textBytes "pjstun" else nonce
    if nonce = [] then return response else pjStunMsgAddStringAttr response attrNonce nonce

/-- `apply_msg_options`. The statuses of SOFTWARE and of NONCE are not looked at. -/
def applyMsgOptions (sess : StunSession) (authInfo : Option ReqCredInfo) (msg : Msg) :
    Except Int Msg := do
  let isRequest := pjStunIsRequest msg.hdr.type
  let software := sess.srvName ≠ [] ∧ (pjStunMsgFindAttr msg attrSoftware).isNone ∧
    (pjStunIsResponse msg.hdr.type ∨ isRequest ∧ msg.hdr.magic = pjStunMagic)
  let msg := if software then (pjStunMsgAddStringAttr msg attrSoftware sess.srvName).toOption.getD msg
    else msg
  let info := if pjStunAuthValidForMsg msg then authInfo.getD ReqCredInfo.empty else ReqCredInfo.empty
  let msg ← if info.username ≠ [] ∧ isRequest then
      pjStunMsgAddStringAttr msg attrUsername info.username
    else pure msg
  let msg ← if info.realm ≠ [] ∧ isRequest then pjStunMsgAddStringAttr msg attrRealm info.realm
    else pure msg
  let msg := if info.nonce ≠ [] ∧ (isRequest ∨ pjStunIsErrorResponse msg.hdr.type.toNat) then
      (pjStunMsgAddStringAttr msg attrNonce info.nonce).toOption.getD msg
    else msg
  let msg ← if info.username ≠ [] ∧ info.authKey ≠ [] then
      pjStunMsgAddAttr msg (createAttr attrMessageIntegrity (.msgint (Vector.replicate 20 0)))
    else pure msg
  if sess.useFingerprint then pjStunMsgAddAttr msg (createAttr attrFingerprint (.uint 0))
  else return msg

variable (cfg : StunConfig)

/-- `pj_stun_msg_encode` into the memory of a packet. -/
def encodePkt (old : Nat → UInt8) (msg : Msg) (key : Option Str) : Except Fault (Str × Msg) :=
  pjStunMsgEncode old pjStunMaxPktLen cfg.hmacSha1 cfg.crc32 msg key

/-! ## The lists -/

/-- A request is changed in place. -/
def StunSession.updateRequest (sess : StunSession) (id : Nat) (change : Request → Request) :
    StunSession where
  __ := sess
  pendingRequestList :=
    sess.pendingRequestList.map fun request => if request.id = id then change request else request

/-- `tsx_erase`. -/
def tsxErase (sess : StunSession) (id : Nat) : StunSession where
  __ := sess
  pendingRequestList := sess.pendingRequestList.filter fun request => request.id ≠ id

/-- `tsx_lookup`. -/
def tsxLookup (sess : StunSession) (msg : Msg) : Option Request :=
  sess.pendingRequestList.find? fun request =>
    request.tdata.msgMagic = msg.hdr.magic ∧ request.tdata.msgKey = msg.hdr.tsxId

/-- A response in the cache is changed in place: the encoder writes to the message. -/
def StunSession.updateCached (sess : StunSession) (id : Nat) (msg : Msg) : StunSession where
  __ := sess
  cachedResponseList := sess.cachedResponseList.map fun t =>
    if t.id = id then { t with tdata.msg := msg } else t

/-- A request that the application or a timer holds. -/
def StunSession.findRequest (sess : StunSession) (id : Nat) : Option Request :=
  sess.pendingRequestList.find? fun request => request.id = id

/-- `pj_stun_client_tsx_schedule_destroy`. -/
def pjStunClientTsxScheduleDestroy (request : Request) (answer : Int) : Request :=
  let request := { request with
    destroyTimer := false
    clientTsx := cancelIfActive request.clientTsx }
  if answer = pjSuccess then { request with destroyTimer := true, onComplete := false } else request

/-- `destroy_tdata`, of a pending request. -/
def destroyTdata (sess : StunSession) (id : Nat) (force : Bool) (answer : Int) : StunSession :=
  if force then tsxErase sess id
  else sess.updateRequest id fun request => pjStunClientTsxScheduleDestroy request answer

/-! ## Sending -/

/-- `get_auth`. -/
def getAuth (sess : StunSession) (tdata : TxData) : Except Int TxData :=
  match sess.cred with
  | .static cred =>
    .ok { tdata with authInfo := {
      realm := sess.serverRealm
      username := cred.username
      nonce := cred.nonce
      authKey := pjStunCreateKey cfg.md5 sess.serverRealm cred.username cred.dataType cred.data } }
  | .dynamic _ =>
    match sess.getCred tdata.msg with
    | .error status => .error status
    | .ok (info, dataType, password) =>
      .ok { tdata with authInfo := { info with
        authKey := pjStunCreateKey cfg.md5 info.realm info.username dataType password } }

/-- `pj_stun_session_create_req`, with a transaction ID that is given or random. -/
def pjStunSessionCreateReq (sess : StunSession) (method : UInt16) (magic : UInt32)
    (tsxId : Vector UInt8 12) : Except Int TxData :=
  if sess.isDestroying then .error pjEinvalidop
  else
    let tdata := createTdata (pjStunMsgCreate method magic tsxId) ReqCredInfo.empty
    match sess.authType with
    | .none => .ok tdata
    | .shortTerm => getAuth cfg sess tdata
    | .longTerm =>
      if sess.nextNonce = [] then .ok tdata
      else
        match getAuth cfg sess tdata with
        | .error status => .error status
        | .ok tdata =>
          .ok { tdata with authInfo := { tdata.authInfo with
            nonce := sess.nextNonce
            realm := sess.serverRealm } }

/-- `pj_stun_session_create_res`. -/
def pjStunSessionCreateRes (sess : StunSession) (msg : Msg) (info : ReqCredInfo) (errCode : Int)
    (errMsg : Option Str) : Except Int TxData :=
  if sess.isDestroying then .error pjEinvalidop
  else
    match pjStunMsgCreateResponse msg errCode errMsg with
    | .error status => .error status
    | .ok response =>
      .ok { createTdata response info with msgMagic := msg.hdr.magic, msgKey := msg.hdr.tsxId }

/-- What the transaction does, seen from the session: `stun_tsx_on_send_msg`. -/
def tsxActions (tdata : TxData) (dstAddr : Sockaddr) (actions : List Action) : List SessAction :=
  actions.filterMap fun
    | .sent pkt status => some (.send false tdata.token pkt dstAddr status)
    | _ => none

/-- A status that `pj_stun_session_send_msg` takes for a success. -/
def accepted (status : Int) : Bool := status = pjSuccess ∨ status = pjEpending

/-- The request in `pj_stun_session_send_msg`. -/
def sendRequest (sess : StunSession) (tdata : TxData) (server : Sockaddr) (origin : Option Nat)
    (answers : Answers) : Int × StunSession × List SessAction :=
  let (status, clientTsx, actions) :=
    pjStunClientTsxSendMsg (pjStunClientTsxCreate cfg.rtoMsec) tdata.retransmit tdata.pkt answers
  let sent := tsxActions tdata server actions
  if accepted status then
    let request : Request := {
      id := sess.nextId
      origin := origin.getD sess.nextId
      tdata := tdata
      dstAddr := server
      clientTsx := clientTsx
      onComplete := true
      destroyTimer := false }
    (status,
      { sess with
        pendingRequestList := request :: sess.pendingRequestList
        nextId := sess.nextId + 1 },
      sent ++ [.pending request.id request.origin tdata.token])
  else (status, sess, sent)

/-- The other messages in `pj_stun_session_send_msg`. A response that is cached and cannot be sent
leaves the cache at once. -/
def sendOther (sess : StunSession) (tdata : TxData) (cacheRes : Bool) (server : Sockaddr)
    (answers : Answers) : Int × StunSession × List SessAction :=
  let cache := cacheRes && isAnyResponse tdata.msg.hdr.type
  if cache ∧ answers.timer ≠ pjSuccess then (answers.timer, sess, [])
  else
    let sent := [.send false tdata.token tdata.pkt server answers.transport]
    if cache ∧ accepted answers.transport then
      let response : CachedResponse := ⟨sess.nextId, tdata⟩
      (answers.transport,
        { sess with
          cachedResponseList := sess.cachedResponseList ++ [response]
          nextId := sess.nextId + 1 },
        sent ++ [.cached response])
    else (answers.transport, sess, sent)

/-- `pj_stun_session_send_msg`. A retry comes with the request it is for. -/
def pjStunSessionSendMsg (sess : StunSession) (token : Nat) (cacheRes retransmit : Bool)
    (server : Sockaddr) (tdata : TxData) (origin : Option Nat) (env : SendEnv) : Called Int :=
  if sess.isDestroying then some (pjEinvalidop, sess, [])
  else
    match applyMsgOptions sess (some tdata.authInfo) tdata.msg with
    | .error status => some (status, sess, [])
    | .ok msg =>
      match encodePkt cfg env.old msg (some tdata.authInfo.authKey) with
      | .error .undefined => none
      | .error (.status status) => some (status, sess, [])
      | .ok (pkt, msg) =>
        let tdata := { tdata with msg := msg, pkt := pkt, token := token, retransmit := retransmit }
        if pjStunIsRequest msg.hdr.type then
          some (sendRequest cfg sess tdata server origin env.answers)
        else some (sendOther sess tdata cacheRes server env.answers)

/-- `send_response`, whose status nobody looks at: the message that the encoder leaves. -/
def sendResponse (sess : StunSession) (token : Nat) (response : Msg) (authInfo : Option ReqCredInfo)
    (retransmission : Bool) (addr : Sockaddr) (env : SendEnv) : Called Msg :=
  match if retransmission then .ok response else applyMsgOptions sess authInfo response with
  | .error _ => some (response, sess, [])
  | .ok response =>
    match encodePkt cfg env.old response (authInfo.map ReqCredInfo.authKey) with
    | .error .undefined => none
    | .error (.status _) => some (response, sess, [])
    | .ok (pkt, msg) =>
      some (msg, sess, [.send retransmission token pkt addr env.answers.transport])

/-! ## The end of a request -/

/-- The attributes that a retry does not take over. -/
def isCredential (attr : Attr) : Bool :=
  attr.type = attrUsername || attr.type = attrRealm || attr.type = attrMessageIntegrity ||
    attr.type = attrNonce

/-- The realm without its trailing zero bytes. -/
def trimRealm (realm : Str) : Str := (realm.reverse.dropWhile (· = 0)).reverse

/-- The nonce and the realm of a challenge are kept. -/
def StunSession.challenged (sess : StunSession) (anonce : Str) (arealm : Option Str) : StunSession where
  __ := sess
  nextNonce := anonce
  serverRealm := (arealm.map trimRealm).getD sess.serverRealm

/-- A new request takes over the attributes of the old one. -/
def retryTdata (request : Request) (tdata : TxData) : TxData where
  __ := tdata
  msg := { tdata.msg with
    attr := tdata.msg.attr ++ request.tdata.msg.attr.filter fun attr => !isCredential attr }

/-- The new request in `handle_auth_challenge`. What sending it returns is not looked at. The result is
whether the user is notified. -/
def retryRequest (sess : StunSession) (request : Request) (srcAddr : Sockaddr) (env : EndEnv) :
    Called Bool :=
  let hdr := request.tdata.msg.hdr
  match pjStunSessionCreateReq cfg sess hdr.type hdr.magic env.tsxId with
  | .error _ => some (true, sess, [])
  | .ok tdata =>
    match pjStunSessionSendMsg cfg sess request.tdata.token true request.tdata.retransmit srcAddr
      (retryTdata request tdata) (some request.origin) env.retry with
    | none => none
    | some (_, sess, actions) => some (false, sess, actions)

/-- `handle_auth_challenge`, whose status nobody looks at: whether the user is notified. -/
def handleAuthChallenge (sess : StunSession) (request : Request) (response : Option Msg)
    (srcAddr : Sockaddr) (env : EndEnv) : Called Bool :=
  match response with
  | none => some (true, sess, [])
  | some response =>
    if sess.authType ≠ .longTerm then some (true, sess, [])
    else if !pjStunIsErrorResponse response.hdr.type.toNat then
      some (true, { sess with authRetry := 0 }, [])
    else
      match findErrCode response with
      | none => some (false, sess, [])
      | some errCode =>
        if errCode = 401 ∨ errCode = 438 then
          match findStr response attrNonce with
          | none => some (false, sess, [])
          | some anonce =>
            if anonce = sess.nextNonce then some (true, sess, [])
            else
              let sess := { sess with authRetry := sess.authRetry + 1 }
              if sess.authRetry > 3 then some (true, sess, [])
              else
                retryRequest cfg (sess.challenged anonce (findStr response attrRealm)) request srcAddr env
        else some (true, { sess with authRetry := 0 }, [])

/-- `stun_tsx_on_complete`. -/
def stunTsxOnComplete (sess : StunSession) (request : Request) (status : Int) (response : Option Msg)
    (srcAddr : Sockaddr) (env : EndEnv) : Option (StunSession × List SessAction) :=
  match handleAuthChallenge cfg sess request response srcAddr env with
  | none => none
  | some (notifyUser, sess, actions) =>
    let notified := if notifyUser then
      [SessAction.requestComplete request.origin request.tdata.token status] else []
    some (destroyTdata sess request.id (status = pjnathEstuntimedout) env.destroy, actions ++ notified)

/-- The status of the call of `on_complete`, which is the last thing a transaction does. -/
def completedStatus (actions : List Action) : Option Int :=
  actions.findSome? fun
    | .completed status => some status
    | _ => none

/-- A transaction goes on, and may complete. -/
def tsxGoesOn (sess : StunSession) (request : Request) (outcome : ClientTsx × List Action)
    (response : Option Msg) (srcAddr : Sockaddr) (env : EndEnv) :
    Option (StunSession × List SessAction) :=
  let sess := sess.updateRequest request.id fun request => { request with clientTsx := outcome.1 }
  let sent := tsxActions request.tdata request.dstAddr outcome.2
  match if request.onComplete then completedStatus outcome.2 else none with
  | none => some (sess, sent)
  | some status =>
    match stunTsxOnComplete cfg sess request status response srcAddr env with
    | none => none
    | some (sess, actions) =>
      some (sess, sent ++ .tsxComplete request.origin status :: actions)

/-! ## Incoming packets -/

/-- A packet, as `pj_stun_session_on_rx_pkt` gets it, and what comes with it: the error response that
the decoder may make, and what comes with sending a response and with the end of a request. -/
structure RxPkt where
  packet : Nat → UInt8
  pktSize : Nat
  options : Options
  noAuthenticate : Bool
  token : Nat
  srcAddr : Sockaddr
  errorResponse : Option Msg
  reply : SendEnv
  complete : EndEnv

/-- `authenticate_req`. -/
def authenticateReq (sess : StunSession) (rx : RxPkt) (msg : Msg) : Called (Option ReqCredInfo) :=
  match pjStunAuthenticateRequest rx.packet cfg.hmacSha1 cfg.md5 msg sess.cred with
  | .ok info => some (some info, sess, [])
  | .error (.status _) => some (none, sess, [])
  | .error (.challenge errCode errText) =>
    let info := match sess.cred.getAuth with
      | .ok (realm, nonce) => { ReqCredInfo.empty with realm := realm, nonce := nonce }
      | .error _ => ReqCredInfo.empty
    match createChallenge msg errCode errText info.realm info.nonce with
    | .error _ => some (none, sess, [])
    | .ok response =>
      match sendResponse cfg sess rx.token response (some info) false rx.srcAddr rx.reply with
      | none => none
      | some (_, sess, actions) => some (none, sess, actions)

/-- `on_incoming_response`. -/
def onIncomingResponse (sess : StunSession) (rx : RxPkt) (msg : Msg) :
    Option (StunSession × List SessAction) :=
  match tsxLookup sess msg with
  | none => some (sess, [])
  | some request =>
    let noAuthenticate := rx.noAuthenticate || sess.authType = .none
    let authKey := request.tdata.authInfo.authKey
    if !noAuthenticate ∧ authKey ≠ [] ∧ pjStunAuthValidForMsg msg ∧
        (pjStunAuthenticateResponse rx.packet cfg.hmacSha1 msg authKey).toBool = false then
      some (sess, [])
    else
      tsxGoesOn cfg sess request (pjStunClientTsxOnRxMsg request.clientTsx msg.response).2 (some msg)
        rx.srcAddr rx.complete

/-- The lookup of `check_cached_response`. -/
def findCached (sess : StunSession) (msg : Msg) : Option CachedResponse :=
  sess.cachedResponseList.find? fun t =>
    t.tdata.msgMagic = msg.hdr.magic ∧ t.tdata.msg.hdr.type = msg.hdr.type ∧
      t.tdata.msgKey = msg.hdr.tsxId

/-- `check_cached_response`: whether there is one, which is sent then. -/
def checkCachedResponse (sess : StunSession) (rx : RxPkt) (msg : Msg) : Called Bool :=
  match findCached sess msg with
  | none => some (false, sess, [])
  | some t =>
    match sendResponse cfg sess t.tdata.token t.tdata.msg (some t.tdata.authInfo) true rx.srcAddr
      rx.reply with
    | none => none
    | some (msg, sess, actions) => some (true, sess.updateCached t.id msg, actions)

/-- `on_incoming_request`. -/
def onIncomingRequest (sess : StunSession) (rx : RxPkt) (msg : Msg) :
    Option (StunSession × List SessAction) :=
  let noAuthenticate := rx.noAuthenticate || sess.authType = .none
  match if noAuthenticate then some (some ReqCredInfo.empty, sess, [])
    else authenticateReq cfg sess rx msg with
  | none => none
  | some (none, sess, actions) => some (sess, actions)
  | some (some _, sess, _) =>
    if sess.hasRxRequest then some (sess, [.rxRequest msg rx.token rx.srcAddr])
    else
      match pjStunMsgCreateResponse msg 400
        (some (textBytes "Callback is not set to handle request")) with
      | .error _ => some (sess, [])
      | .ok response =>
        (sendResponse cfg sess rx.token response none false rx.srcAddr rx.reply).map Prod.snd

/-- `on_incoming_indication`. -/
def onIncomingIndication (sess : StunSession) (rx : RxPkt) (msg : Msg) :
    StunSession × List SessAction :=
  (sess, if sess.hasRxIndication then [.rxIndication msg rx.token rx.srcAddr] else [])

/-- `pj_stun_msg_decode` of a packet. -/
def RxPkt.decode (rx : RxPkt) : Except Int Msg :=
  (pjStunMsgDecode rx.packet rx.pktSize cfg.crc32 rx.options).result

/-- `pj_stun_session_on_rx_pkt`. -/
def pjStunSessionOnRxPkt (sess : StunSession) (rx : RxPkt) : Option (StunSession × List SessAction) :=
  if sess.isDestroying then some (sess, [])
  else
    match rx.decode cfg with
    | .error _ =>
      match rx.errorResponse with
      | none => some (sess, [])
      | some response =>
        (sendResponse cfg sess rx.token response none false rx.srcAddr rx.reply).map Prod.snd
    | .ok msg =>
      match checkCachedResponse cfg sess rx msg with
      | none => none
      | some (true, sess, actions) => some (sess, actions)
      | some (false, sess, _) =>
        if isAnyResponse msg.hdr.type then onIncomingResponse cfg sess rx msg
        else if pjStunIsRequest msg.hdr.type then onIncomingRequest cfg sess rx msg
        else some (onIncomingIndication sess rx msg)

/-! ## The other calls -/

/-- `pj_stun_session_cancel_req`, of a pending request. -/
def pjStunSessionCancelReq (sess : StunSession) (request : Request) (notify : Bool)
    (notifyStatus : Int) (answer : Int) : StunSession × List SessAction :=
  if notify ∧ notifyStatus = pjSuccess ∨ sess.isDestroying then (sess, [])
  else
    (destroyTdata sess request.id false answer,
      (if notify then [.requestComplete request.origin request.tdata.token notifyStatus] else []) ++
        [.cancelled request.origin])

/-- `pj_stun_client_tsx_retransmit`. -/
def pjStunClientTsxRetransmit (request : Request) (modCount : Bool) (answers : Answers) :
    ClientTsx × List Action :=
  if request.destroyTimer then (request.clientTsx, [])
  else
    let tsx := if modCount then cancelIfActive request.clientTsx else request.clientTsx
    (tsxTransmitMsg tsx modCount answers).2

/-- `pj_stun_session_retransmit_req`, of a pending request. -/
def pjStunSessionRetransmitReq (sess : StunSession) (request : Request) (modCount : Bool)
    (answers : Answers) : StunSession × List SessAction :=
  if sess.isDestroying then (sess, [])
  else
    let (tsx, actions) := pjStunClientTsxRetransmit request modCount answers
    (sess.updateRequest request.id fun request => { request with clientTsx := tsx },
      tsxActions request.tdata request.dstAddr actions)

/-- `pj_stun_session_destroy`, which stops the transactions. -/
def pjStunSessionDestroy (sess : StunSession) : StunSession where
  __ := sess
  isDestroying := true
  pendingRequestList := sess.pendingRequestList.map fun request =>
    { request with clientTsx := pjStunClientTsxStop request.clientTsx, destroyTimer := false }

/-- `pj_stun_session_set_credential`. -/
def pjStunSessionSetCredential (sess : StunSession) (authType : AuthType) (cred : Option AuthCred)
    (getCred : Msg → Except Int (ReqCredInfo × PasswdType × Str)) : StunSession :=
  match cred with
  | some cred => { sess with authType := authType, cred := cred, getCred := getCred }
  | none => { sess with authType := .none, cred := .static ⟨[], [], .plain, [], []⟩ }

/-- `on_cache_timeout`. -/
def onCacheTimeout (sess : StunSession) (response : CachedResponse) : StunSession × List SessAction :=
  if sess.isDestroying then (sess, [])
  else
    ({ sess with
        cachedResponseList := sess.cachedResponseList.filter fun t => t.id ≠ response.id },
      [.cacheTimeout response.id])

/-- The retransmit timer of a request expires. The timer heap takes an entry out before it calls its
callback. A transaction that ends without a response passes no address on. -/
def onRetransmitTimer (sess : StunSession) (request : Request) (answers : Answers) (env : EndEnv) :
    Option (StunSession × List SessAction) :=
  match request.clientTsx.retransmitTimer.scheduled with
  | none => some (sess, [])
  | some _ =>
    let tsx := { request.clientTsx with retransmitTimer.scheduled := none }
    tsxGoesOn cfg sess request (retransmitTimerCallback tsx answers) none request.dstAddr env

/-- `destroy_timer_callback`, and `stun_tsx_on_destroy`. -/
def stunTsxOnDestroy (sess : StunSession) (request : Request) : StunSession :=
  if request.destroyTimer then tsxErase sess request.id else sess

/-! ## Runs -/

/-- What happens to a session. A request, or a cached response, that it does not have is not spoken
of. -/
inductive SessEvent
  | sendMsg (token : Nat) (cacheRes retransmit : Bool) (server : Sockaddr) (tdata : TxData)
      (env : SendEnv)
  | rxPkt (rx : RxPkt)
  | retransmitTimer (id : Nat) (answers : Answers) (env : EndEnv)
  | destroyTimer (id : Nat)
  | cacheTimeout (id : Nat)
  | cancelReq (id : Nat) (notify : Bool) (notifyStatus : Int) (answer : Int)
  | retransmitReq (id : Nat) (modCount : Bool) (answers : Answers)
  | destroy
  | setCredential (authType : AuthType) (cred : Option AuthCred)
      (getCred : Msg → Except Int (ReqCredInfo × PasswdType × Str))
  | setSoftwareName (sw : Str)
  | useFingerprint (use : Bool)

/-- One event. -/
def sessStep (sess : StunSession) : SessEvent → Option (StunSession × List SessAction)
  | .sendMsg token cacheRes retransmit server tdata env =>
    (pjStunSessionSendMsg cfg sess token cacheRes retransmit server tdata none env).map Prod.snd
  | .rxPkt rx => pjStunSessionOnRxPkt cfg sess rx
  | .retransmitTimer id answers env =>
    match sess.findRequest id with
    | none => some (sess, [])
    | some request => onRetransmitTimer cfg sess request answers env
  | .destroyTimer id =>
    match sess.findRequest id with
    | none => some (sess, [])
    | some request => some (stunTsxOnDestroy sess request, [])
  | .cacheTimeout id =>
    match sess.cachedResponseList.find? fun t => t.id = id with
    | none => some (sess, [])
    | some response => some (onCacheTimeout sess response)
  | .cancelReq id notify notifyStatus answer =>
    match sess.findRequest id with
    | none => some (sess, [])
    | some request => some (pjStunSessionCancelReq sess request notify notifyStatus answer)
  | .retransmitReq id modCount answers =>
    match sess.findRequest id with
    | none => some (sess, [])
    | some request => some (pjStunSessionRetransmitReq sess request modCount answers)
  | .destroy => some (pjStunSessionDestroy sess, [])
  | .setCredential authType cred getCred =>
    some (pjStunSessionSetCredential sess authType cred getCred, [])
  | .setSoftwareName sw => some ({ sess with srvName := sw }, [])
  | .useFingerprint use => some ({ sess with useFingerprint := use }, [])

/-- A session, and what it has done since it was created. -/
structure SessHistory where
  sess : StunSession
  actions : List SessAction

/-- A session goes on, as long as its calls have an outcome. -/
def sessNext (history : Option SessHistory) (event : SessEvent) : Option SessHistory :=
  match history with
  | none => none
  | some history =>
    (sessStep cfg history.sess event).map fun outcome =>
      ⟨outcome.1, history.actions ++ outcome.2⟩

/-- `pj_stun_session_create`: the name is that of the software, and the credential is zeroed. -/
def pjStunSessionCreate (fingerprint : Bool) (softwareName : Str) (hasRxRequest hasRxIndication : Bool) :
    StunSession where
  isDestroying := false
  useFingerprint := fingerprint
  authType := .none
  cred := .static ⟨[], [], .plain, [], []⟩
  getCred := fun _ => .error pjEinval
  authRetry := 0
  nextNonce := []
  serverRealm := []
  srvName := softwareName
  hasRxRequest := hasRxRequest
  hasRxIndication := hasRxIndication
  pendingRequestList := []
  cachedResponseList := []
  nextId := 0

/-- A session that was just created. -/
def sessStart (fingerprint : Bool) (softwareName : Str) (hasRxRequest hasRxIndication : Bool) :
    SessHistory :=
  ⟨pjStunSessionCreate fingerprint softwareName hasRxRequest hasRxIndication, []⟩

/-! A configuration, an address, and answers, for runs that are carried out. -/

/-- The functions of pjlib-util are not those of the code. -/
def plainConfig : StunConfig where
  rtoMsec := 100
  hmacSha1 := fun _ _ => Vector.replicate 20 0
  crc32 := fun _ => 0
  md5 := id

/-- Where packets come from. -/
def bindingAddr : Sockaddr := .inet #v[0, 80] #v[192, 0, 2, 1]

/-- Everything is answered with success. -/
def plainEnv : SendEnv := ⟨fun _ => 0, ⟨pjSuccess, pjSuccess⟩⟩

end Pjnath.Stun
