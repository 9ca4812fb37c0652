import Pjproject.Stun.Reencode
import Pjproject.Stun.Session

/-!
# The response cache of a STUN session

What a step may do to the cache, and what the cache holds along a run: the responses that were sent
with `cache_res` and have not timed out. The lookup compares the type of the cached response with the
type of the packet, so that a request never finds the response that answered it.
-/

namespace Pjnath.Stun
open List hiding Vector
open Pj

/-- What concerns the cache. -/
def SessAction.ofCache : SessAction → Bool
  | .send retransmission _ _ _ _ => retransmission
  | .cached _ | .cacheTimeout _ => true
  | _ => false

/-- The actions that concern the cache. -/
def cacheActions (actions : List SessAction) : List SessAction := actions.filter SessAction.ofCache

@[simp] theorem cacheActions_append (before after : List SessAction) :
    cacheActions (before ++ after) = cacheActions before ++ cacheActions after :=
  filter_append ..

@[simp] theorem cacheActions_nil : cacheActions [] = [] := rfl

variable {cfg : StunConfig}

/-- A message can be encoded, whatever the buffer holds. -/
def Encodable (cfg : StunConfig) (msg : Msg) (key : Str) : Prop :=
  ∀ old, ∃ after, encodePkt cfg old msg (some key) = .ok after

variable {msg : Msg}

variable {old : Nat → UInt8}

theorem encodable_of_encoded {msg' : Msg} {key pkt : Str}
    (encoded : encodePkt cfg old msg (some key) = .ok (pkt, msg')) : Encodable cfg msg' key := by
  intro old'
  have ⟨after, again, _⟩ := encode_again old' encoded
  exact ⟨after, again⟩

theorem encodePkt_type {msg' : Msg} {key : Option Str} {pkt : Str}
    (encoded : encodePkt cfg old msg key = .ok (pkt, msg')) : msg'.hdr.type = msg.hdr.type := by
  rw [(pjStunMsgEncode_result encoded).1]

/-! ## What a step does to the cache -/

variable {first second third : StunSession}

/-- The cache is left alone. -/
structure CacheFrame (before after : StunSession) (actions : List SessAction) : Prop where
  list : after.cachedResponseList = before.cachedResponseList
  nextId : before.nextId ≤ after.nextId
  quiet : cacheActions actions = []

theorem CacheFrame.refl (sess : StunSession) : CacheFrame sess sess [] :=
  ⟨rfl, Nat.le_refl sess.nextId, rfl⟩

/-- What the calls make of the cache, by the actions that concern it: nothing, or a response is added. -/
inductive CacheStep (cfg : StunConfig) (before after : StunSession) : List SessAction → Prop
  | frame (list : after.cachedResponseList = before.cachedResponseList) : CacheStep cfg before after []
  | cached (response : CachedResponse) (low : before.nextId ≤ response.id)
      (high : response.id < after.nextId) (kind : isAnyResponse response.tdata.msg.hdr.type)
      (encodable : Encodable cfg response.tdata.msg response.tdata.authInfo.authKey)
      (list : after.cachedResponseList = before.cachedResponseList ++ [response]) :
      CacheStep cfg before after [.cached response]

/-- A step that counts the requests and responses, and does one of these. -/
structure CacheStepped (cfg : StunConfig) (before after : StunSession) (actions : List SessAction) :
    Prop where
  nextId : before.nextId ≤ after.nextId
  step : CacheStep cfg before after (cacheActions actions)

/-- Nothing is sent again. -/
theorem CacheStepped.not_resent {before after : StunSession} {actions : List SessAction}
    (h : CacheStepped cfg before after actions) (token : Nat) (pkt : Str) (addr : Sockaddr)
    (status : Int) : .send true token pkt addr status ∉ actions := by
  intro among
  have kept : .send true token pkt addr status ∈ cacheActions actions :=
    mem_filter.mpr ⟨among, rfl⟩
  have step := h.step
  generalize cacheActions actions = list at kept step
  cases step with
  | frame => cases kept
  | cached response => cases mem_singleton.mp kept

theorem CacheFrame.stepped {before after : StunSession} {actions : List SessAction}
    (h : CacheFrame before after actions) : CacheStepped cfg before after actions where
  nextId := h.nextId
  step := h.quiet ▸ .frame h.list

theorem CacheFrame.before {quiet actions : List SessAction} (h : CacheFrame first second quiet)
    (k : CacheStep cfg second third actions) :
    CacheStep cfg first third actions := by
  cases k with
  | frame list => exact .frame (list.trans h.list)
  | cached response low high kind encodable list =>
    exact .cached response (Nat.le_trans h.nextId low) high kind encodable (h.list ▸ list)

theorem CacheFrame.after {quiet actions : List SessAction} (h : CacheFrame second third quiet)
    (k : CacheStep cfg first second actions) :
    CacheStep cfg first third actions := by
  cases k with
  | frame list => exact .frame (h.list.trans list)
  | cached response low high kind encodable list =>
    exact .cached response low (Nat.lt_of_lt_of_le high h.nextId) kind encodable (h.list.trans list)

/-- A frame first. -/
theorem CacheFrame.then {before after : List SessAction} (h : CacheFrame first second before)
    (k : CacheStepped cfg second third after) :
    CacheStepped cfg first third (before ++ after) where
  nextId := Nat.le_trans h.nextId k.nextId
  step := by
    rw [cacheActions_append, h.quiet, nil_append]
    exact h.before k.step

/-- A frame last. -/
theorem CacheStepped.then {before after : List SessAction}
    (k : CacheStepped cfg first second before) (h : CacheFrame second third after) :
    CacheStepped cfg first third (before ++ after) where
  nextId := Nat.le_trans k.nextId h.nextId
  step := by
    rw [cacheActions_append, h.quiet, append_nil]
    exact h.after k.step

/-! ## The calls -/

variable {tdata : TxData} {server : Sockaddr} {answers : Answers} {origin : Option Nat}

variable {rx : RxPkt} {addr : Sockaddr} {request : Request} {env : EndEnv} {response : Option Msg}

variable {sess after : StunSession} {actions : List SessAction}

theorem cacheActions_tsxActions (tdata : TxData) (addr : Sockaddr) (actions : List Action) :
    cacheActions (tsxActions tdata addr actions) = [] := by
  rw [cacheActions, filter_eq_nil_iff]
  intro action among
  have ⟨known, _, same⟩ := mem_filterMap.mp among
  cases known with
  | sent pkt status =>
    cases same
    simp [SessAction.ofCache]
  | _ => cases same

theorem destroyTdata_frame (sess : StunSession) (id : Nat) (force : Bool) (answer : Int) :
    CacheFrame sess (destroyTdata sess id force answer) [] := by
  cases force <;> exact ⟨rfl, Nat.le_refl sess.nextId, rfl⟩

theorem sendRequest_frame {status : Int}
    (sent : sendRequest cfg sess tdata server origin answers = (status, after, actions)) :
    CacheFrame sess after actions := by
  simp only [sendRequest] at sent
  split at sent
  · cases sent
    exact ⟨rfl, Nat.le_succ sess.nextId, by rw [cacheActions_append, cacheActions_tsxActions]; rfl⟩
  · cases sent
    exact ⟨rfl, Nat.le_refl sess.nextId, cacheActions_tsxActions ..⟩

theorem sendOther_stepped {cacheRes : Bool} {status : Int}
    (encodable : Encodable cfg tdata.msg tdata.authInfo.authKey)
    (sent : sendOther sess tdata cacheRes server answers = (status, after, actions)) :
    CacheStepped cfg sess after actions := by
  simp only [sendOther] at sent
  split at sent
  · cases sent
    exact (CacheFrame.refl sess).stepped
  · split at sent
    · rename_i kept
      cases sent
      have kind : isAnyResponse tdata.msg.hdr.type := (Bool.and_eq_true_iff.mp kept.1).2
      exact ⟨Nat.le_succ sess.nextId,
        .cached ⟨sess.nextId, tdata⟩ le_rfl (Nat.lt_succ_self _) kind encodable rfl⟩
    · cases sent
      exact ⟨Nat.le_refl sess.nextId, .frame rfl⟩

theorem pjStunSessionSendMsg_stepped {token : Nat} {cacheRes retransmit : Bool} {env : SendEnv}
    {status : Int}
    (sent : pjStunSessionSendMsg cfg sess token cacheRes retransmit server tdata origin env =
      some (status, after, actions)) : CacheStepped cfg sess after actions := by
  simp only [pjStunSessionSendMsg] at sent
  split at sent
  · cases sent
    exact (CacheFrame.refl sess).stepped
  · split at sent
    · cases sent
      exact (CacheFrame.refl sess).stepped
    · split at sent
      · cases sent
      · cases sent
        exact (CacheFrame.refl sess).stepped
      · rename_i encoded
        split at sent
        · exact (sendRequest_frame (Option.some.inj sent)).stepped
        · exact sendOther_stepped (encodable_of_encoded encoded) (Option.some.inj sent)

theorem sendResponse_frame {token : Nat} {response : Msg} {authInfo : Option ReqCredInfo}
    {env : SendEnv}
    (sent : sendResponse cfg sess token response authInfo false addr env = some (msg, after, actions)) :
    CacheFrame sess after actions := by
  simp only [sendResponse] at sent
  repeat' split at sent
  all_goals cases sent
  all_goals exact ⟨rfl, Nat.le_refl sess.nextId, rfl⟩

theorem retryRequest_stepped {notify : Bool}
    (ended : retryRequest cfg sess request addr env = some (notify, after, actions)) :
    CacheStepped cfg sess after actions := by
  simp only [retryRequest] at ended
  split at ended
  · cases ended
    exact (CacheFrame.refl sess).stepped
  · split at ended
    · cases ended
    · rename_i sent
      cases ended
      exact pjStunSessionSendMsg_stepped sent

/-- Requests, or the counters of the authentication, do not matter to the cache. -/
theorem CacheStepped.of_list {sess' : StunSession}
    (h : CacheStepped cfg sess' after actions)
    (list : sess'.cachedResponseList = sess.cachedResponseList) (nextId : sess'.nextId = sess.nextId) :
    CacheStepped cfg sess after actions :=
  CacheFrame.then ⟨list, Nat.le_of_eq nextId.symm, cacheActions_nil⟩ h

theorem handleAuthChallenge_stepped {notify : Bool}
    (ended : handleAuthChallenge cfg sess request response addr env = some (notify, after, actions)) :
    CacheStepped cfg sess after actions := by
  simp only [handleAuthChallenge] at ended
  repeat' split at ended
  all_goals first
    | exact (retryRequest_stepped ended).of_list rfl rfl
    | cases ended; exact ⟨Nat.le_refl sess.nextId, .frame rfl⟩

theorem stunTsxOnComplete_stepped {status : Int}
    (ended : stunTsxOnComplete cfg sess request status response addr env = some (after, actions)) :
    CacheStepped cfg sess after actions := by
  simp only [stunTsxOnComplete] at ended
  split at ended
  · cases ended
  · rename_i notify middle handled challenged
    cases ended
    have last := destroyTdata_frame middle request.id (status = pjnathEstuntimedout) env.destroy
    apply (handleAuthChallenge_stepped challenged).then
    cases notify <;> exact ⟨last.list, last.nextId, rfl⟩

theorem tsxGoesOn_stepped {outcome : ClientTsx × List Action}
    (ended : tsxGoesOn cfg sess request outcome response addr env = some (after, actions)) :
    CacheStepped cfg sess after actions := by
  have sent := cacheActions_tsxActions request.tdata request.dstAddr outcome.2
  simp only [tsxGoesOn] at ended
  split at ended
  · cases ended
    exact CacheFrame.stepped ⟨rfl, Nat.le_refl sess.nextId, sent⟩
  · split at ended
    · cases ended
    · rename_i completed
      cases ended
      rename_i middle more
      have rest := stunTsxOnComplete_stepped completed
      have whole : ∀ status, tsxActions request.tdata request.dstAddr outcome.2 ++
          .tsxComplete request.origin status :: more =
            (tsxActions request.tdata request.dstAddr outcome.2 ++
              [.tsxComplete request.origin status]) ++ more := by
        simp
      rw [whole]
      apply CacheFrame.then _ rest
      refine ⟨rfl, Nat.le_refl sess.nextId, ?_⟩
      rw [cacheActions_append, sent]
      rfl

theorem onIncomingResponse_stepped
    (received : onIncomingResponse cfg sess rx msg = some (after, actions)) :
    CacheStepped cfg sess after actions := by
  simp only [onIncomingResponse] at received
  split at received
  · cases received
    exact (CacheFrame.refl sess).stepped
  · split at received
    · cases received
      exact (CacheFrame.refl sess).stepped
    · exact tsxGoesOn_stepped received

theorem authenticateReq_frame {info : Option ReqCredInfo}
    (checked : authenticateReq cfg sess rx msg = some (info, after, actions)) :
    CacheFrame sess after actions := by
  simp only [authenticateReq] at checked
  repeat' split at checked
  all_goals cases checked
  all_goals first
    | exact .refl sess
    | exact sendResponse_frame ‹_›

theorem onIncomingRequest_frame
    (received : onIncomingRequest cfg sess rx msg = some (after, actions)) :
    CacheFrame sess after actions := by
  have checks : ∀ {info : Option ReqCredInfo} {after : StunSession} {actions : List SessAction},
      (if rx.noAuthenticate || sess.authType = .none then some (some ReqCredInfo.empty, sess, [])
        else authenticateReq cfg sess rx msg) = some (info, after, actions) →
      CacheFrame sess after actions := by
    intro info after actions checked
    split at checked
    · cases checked
      exact .refl sess
    · exact authenticateReq_frame checked
  simp only [onIncomingRequest] at received
  split at received
  · cases received
  · rename_i checked
    cases received
    exact checks checked
  · rename_i checked
    have frame := checks checked
    split at received
    · cases received
      exact ⟨frame.list, frame.nextId, rfl⟩
    · split at received
      · cases received
        exact ⟨frame.list, frame.nextId, rfl⟩
      · have ⟨⟨left, last, more⟩, sent, same⟩ := Option.map_eq_some_iff.mp received
        cases same
        have reply := sendResponse_frame sent
        exact ⟨reply.list.trans frame.list, Nat.le_trans frame.nextId reply.nextId, reply.quiet⟩

/-! ## The lookup -/

variable {t : CachedResponse}

/-- A message that the lookup takes for the request of a cached response. -/
def TxData.Resembles (response : TxData) (msg : Msg) : Prop :=
  response.msgMagic = msg.hdr.magic ∧ response.msg.hdr.type = msg.hdr.type ∧
    response.msgKey = msg.hdr.tsxId

theorem findCached_resembles (found : findCached sess msg = some t) :
    t ∈ sess.cachedResponseList ∧ t.tdata.Resembles msg := by
  have same := find?_some found
  exact ⟨mem_of_find?_eq_some found, by simpa [TxData.Resembles] using same⟩

theorem findCached_none (found : findCached sess msg = none) (there : t ∈ sess.cachedResponseList) :
    ¬t.tdata.Resembles msg := by
  intro resembles
  have missed := find?_eq_none.mp found t there
  exact missed (decide_eq_true resembles)

/-- What is found is sent again. -/
theorem checkCachedResponse_found (rx : RxPkt)
    (encodable : Encodable cfg t.tdata.msg t.tdata.authInfo.authKey)
    (found : findCached sess msg = some t) :
    ∃ pkt left, checkCachedResponse cfg sess rx msg = some (true, sess.updateCached t.id left,
        [.send true t.tdata.token pkt rx.srcAddr rx.reply.answers.transport]) ∧
      left.hdr.type = t.tdata.msg.hdr.type ∧ Encodable cfg left t.tdata.authInfo.authKey := by
  have ⟨⟨pkt, left⟩, encoded⟩ := encodable rx.reply.old
  refine ⟨pkt, left, ?_, encodePkt_type encoded, encodable_of_encoded encoded⟩
  simp [checkCachedResponse, found, sendResponse, encoded]

theorem checkCachedResponse_none (found : findCached sess msg = none) :
    checkCachedResponse cfg sess rx msg = some (false, sess, []) := by
  simp only [checkCachedResponse, found]

/-- A packet that is not answered from the cache. -/
theorem pjStunSessionOnRxPkt_other
    (missed : ∀ msg, rx.decode cfg = .ok msg → findCached sess msg = none)
    (received : pjStunSessionOnRxPkt cfg sess rx = some (after, actions)) :
    CacheStepped cfg sess after actions := by
  simp only [pjStunSessionOnRxPkt] at received
  split at received
  · cases received
    exact (CacheFrame.refl sess).stepped
  · split at received
    · split at received
      · cases received
        exact (CacheFrame.refl sess).stepped
      · have ⟨⟨left, last, more⟩, sent, same⟩ := Option.map_eq_some_iff.mp received
        cases same
        exact (sendResponse_frame sent).stepped
    · rename_i msg decoded
      rw [checkCachedResponse_none (missed msg decoded)] at received
      dsimp only at received
      split at received
      · exact onIncomingResponse_stepped received
      · split at received
        · exact (onIncomingRequest_frame received).stepped
        · cases received
          refine CacheFrame.stepped ⟨rfl, Nat.le_refl sess.nextId, ?_⟩
          split <;> rfl

/-- A packet that is. -/
theorem pjStunSessionOnRxPkt_found (alive : sess.isDestroying = false)
    (decoded : rx.decode cfg = .ok msg)
    (encodable : Encodable cfg t.tdata.msg t.tdata.authInfo.authKey)
    (found : findCached sess msg = some t) :
    ∃ pkt left, pjStunSessionOnRxPkt cfg sess rx = some (sess.updateCached t.id left,
        [.send true t.tdata.token pkt rx.srcAddr rx.reply.answers.transport]) ∧
      left.hdr.type = t.tdata.msg.hdr.type ∧ Encodable cfg left t.tdata.authInfo.authKey := by
  have ⟨pkt, left, checked, type, again⟩ := checkCachedResponse_found rx encodable found
  refine ⟨pkt, left, ?_, type, again⟩
  simp [pjStunSessionOnRxPkt, alive, decoded, checked]

/-! ## Along a run -/

/-- A response that was sent to be cached, and that has not timed out. -/
def SessHistory.Answered (history : SessHistory) (response : CachedResponse) : Prop :=
  .cached response ∈ history.actions ∧ .cacheTimeout response.id ∉ history.actions

/-- What the lookup reads of a response, and its number. -/
structure CachedResponse.Same (t response : CachedResponse) : Prop where
  id : t.id = response.id
  msgMagic : t.tdata.msgMagic = response.tdata.msgMagic
  msgKey : t.tdata.msgKey = response.tdata.msgKey
  type : t.tdata.msg.hdr.type = response.tdata.msg.hdr.type

/-- The cache holds the responses that were sent to be cached and have not timed out. -/
structure Caching (cfg : StunConfig) (history : SessHistory) : Prop where
  bounded : ∀ t ∈ history.sess.cachedResponseList, t.id < history.sess.nextId
  unique : ∀ t ∈ history.sess.cachedResponseList, ∀ t' ∈ history.sess.cachedResponseList,
    t.id = t'.id → t = t'
  kind : ∀ t ∈ history.sess.cachedResponseList, isAnyResponse t.tdata.msg.hdr.type
  encodable : ∀ t ∈ history.sess.cachedResponseList,
    Encodable cfg t.tdata.msg t.tdata.authInfo.authKey
  timeouts : ∀ id, .cacheTimeout id ∈ history.actions → id < history.sess.nextId
  listed : ∀ response, history.Answered response →
    ∃ t ∈ history.sess.cachedResponseList, t.Same response
  answered : ∀ t ∈ history.sess.cachedResponseList, ∃ response, history.Answered response ∧
    t.Same response

variable {history : SessHistory}

theorem mem_cacheActions_iff {action : SessAction} (kind : action.ofCache = true) :
    action ∈ cacheActions actions ↔ action ∈ actions := by
  rw [cacheActions, mem_filter]
  exact and_iff_left kind

/-- What is answered after some more actions. -/
theorem answered_append_iff {response : CachedResponse} :
    SessHistory.Answered ⟨after, history.actions ++ actions⟩ response ↔
      (.cached response ∈ history.actions ∨ .cached response ∈ cacheActions actions) ∧
        .cacheTimeout response.id ∉ history.actions ∧
          .cacheTimeout response.id ∉ cacheActions actions := by
  rw [mem_cacheActions_iff rfl, mem_cacheActions_iff rfl, SessHistory.Answered]
  simp

section
variable (h : Caching cfg history)
include h

/-- A call keeps the cache in order. -/
theorem Caching.stepped (k : CacheStepped cfg history.sess after actions) :
    Caching cfg ⟨after, history.actions ++ actions⟩ := by
  have ⟨nextId, step⟩ := k
  have timeouts : ∀ id, SessAction.cacheTimeout id ∈ history.actions ++ actions →
      .cacheTimeout id ∉ cacheActions actions → id < after.nextId := by
    intro id among absent
    cases mem_append.mp among with
    | inl early => exact Nat.lt_of_lt_of_le (h.timeouts id early) nextId
    | inr late => exact absurd ((mem_cacheActions_iff rfl).mpr late) absent
  have goal := @answered_append_iff after actions history
  generalize cacheActions actions = list at step timeouts goal
  cases step with
  | frame same =>
    simp only [not_mem_nil, or_false, not_false_eq_true, and_true] at goal
    constructor
    · intro t there
      exact Nat.lt_of_lt_of_le (h.bounded t (same ▸ there)) nextId
    · exact same ▸ h.unique
    · exact same ▸ h.kind
    · exact same ▸ h.encodable
    · exact fun id among => timeouts id among not_mem_nil
    · intro response answered
      exact same ▸ h.listed response (goal.mp answered)
    · intro t there
      have ⟨response, answered, alike⟩ := h.answered t (same ▸ there)
      exact ⟨response, goal.mpr answered, alike⟩
  | cached new low high kind encodable grown =>
    have fresh : ∀ t ∈ history.sess.cachedResponseList, t.id ≠ new.id := by
      intro t there
      have bounded := h.bounded t there
      omega
    have member : ∀ t, t ∈ after.cachedResponseList ↔
        t ∈ history.sess.cachedResponseList ∨ t = new := by
      intro t
      rw [grown, mem_append, mem_singleton]
    have early : .cacheTimeout new.id ∉ history.actions := by
      intro among
      have bounded := h.timeouts new.id among
      omega
    constructor
    · intro t there
      cases (member t).mp there with
      | inl old => exact Nat.lt_of_lt_of_le (h.bounded t old) nextId
      | inr same => exact same ▸ high
    · intro t there t' there' ids
      cases (member t).mp there with
      | inl old =>
        cases (member t').mp there' with
        | inl old' => exact h.unique t old t' old' ids
        | inr same' => exact absurd (same' ▸ ids) (fresh t old)
      | inr same =>
        cases (member t').mp there' with
        | inl old' => exact absurd (same ▸ ids.symm) (fresh t' old')
        | inr same' => exact same.trans same'.symm
    · intro t there
      cases (member t).mp there with
      | inl old => exact h.kind t old
      | inr same => exact same ▸ kind
    · intro t there
      cases (member t).mp there with
      | inl old => exact h.encodable t old
      | inr same => exact same ▸ encodable
    · exact fun id among => timeouts id among (by simp)
    · intro response answered
      have ⟨known, open', _⟩ := goal.mp answered
      cases known with
      | inl old =>
        have ⟨t, there, alike⟩ := h.listed response ⟨old, open'⟩
        exact ⟨t, (member t).mpr (.inl there), alike⟩
      | inr added =>
        cases mem_singleton.mp added
        exact ⟨new, (member new).mpr (.inr rfl), ⟨rfl, rfl, rfl, rfl⟩⟩
    · intro t there
      cases (member t).mp there with
      | inl old =>
        have ⟨response, answered, alike⟩ := h.answered t old
        exact ⟨response, goal.mpr ⟨.inl answered.1, answered.2, by simp⟩, alike⟩
      | inr same =>
        exact ⟨new, goal.mpr ⟨.inr (mem_singleton.mpr rfl), early, by simp⟩,
          same ▸ ⟨rfl, rfl, rfl, rfl⟩⟩

/-- A time-out takes a response out. -/
theorem Caching.timedOut (response : CachedResponse)
    (there : response ∈ history.sess.cachedResponseList) :
    Caching cfg ⟨{ history.sess with cachedResponseList :=
        history.sess.cachedResponseList.filter fun t => t.id ≠ response.id },
      history.actions ++ [.cacheTimeout response.id]⟩ := by
  have member : ∀ t, t ∈ history.sess.cachedResponseList.filter (fun t => t.id ≠ response.id) ↔
      t ∈ history.sess.cachedResponseList ∧ t.id ≠ response.id := by
    intro t
    simp
  constructor
  · intro t kept
    exact h.bounded t ((member t).mp kept).1
  · intro t kept t' kept' ids
    exact h.unique t ((member t).mp kept).1 t' ((member t').mp kept').1 ids
  · intro t kept
    exact h.kind t ((member t).mp kept).1
  · intro t kept
    exact h.encodable t ((member t).mp kept).1
  · intro id among
    cases mem_append.mp among with
    | inl early => exact h.timeouts id early
    | inr late =>
      cases mem_singleton.mp late
      exact h.bounded response there
  · intro known answered
    have ⟨cached, open'⟩ := answered
    simp only [mem_append, mem_singleton, not_or, reduceCtorEq, or_false] at cached open'
    have ⟨t, listed, alike⟩ := h.listed known ⟨cached, open'.1⟩
    refine ⟨t, (member t).mpr ⟨listed, ?_⟩, alike⟩
    intro same
    exact open'.2 (by rw [← alike.id, same])
  · intro t kept
    have ⟨listed, other⟩ := (member t).mp kept
    have ⟨known, ⟨cached, open'⟩, alike⟩ := h.answered t listed
    refine ⟨known, ⟨mem_append_left _ cached, ?_⟩, alike⟩
    intro among
    cases mem_append.mp among with
    | inl early => exact open' early
    | inr late =>
      have ids := mem_singleton.mp late
      injection ids with same
      exact other (alike.id.trans same)

/-- Sending a response again only changes its message. -/
theorem Caching.resent (there : t ∈ history.sess.cachedResponseList)
    (type : msg.hdr.type = t.tdata.msg.hdr.type)
    (encodable : Encodable cfg msg t.tdata.authInfo.authKey) (token : Nat) (pkt : Str)
    (addr : Sockaddr) (status : Int) :
    Caching cfg ⟨history.sess.updateCached t.id msg,
      history.actions ++ [.send true token pkt addr status]⟩ := by
  have answered : ∀ response, SessHistory.Answered ⟨history.sess.updateCached t.id msg,
      history.actions ++ [.send true token pkt addr status]⟩ response ↔
        history.Answered response := by
    intro response
    simp [SessHistory.Answered]
  have changed : ∀ known ∈ history.sess.cachedResponseList,
      (if known.id = t.id then { known with tdata.msg := msg } else known).Same known := by
    intro known listed
    split
    · rename_i same
      have one := h.unique known listed t there same
      exact ⟨rfl, rfl, rfl, by rw [one]; exact type⟩
    · exact ⟨rfl, rfl, rfl, rfl⟩
  have member : ∀ left, left ∈ (history.sess.updateCached t.id msg).cachedResponseList ↔
      ∃ known ∈ history.sess.cachedResponseList,
        (if known.id = t.id then { known with tdata.msg := msg } else known) = left := by
    intro left
    rw [StunSession.updateCached, mem_map]
  constructor
  · intro left listed
    obtain ⟨known, old, rfl⟩ := (member left).mp listed
    rw [(changed known old).id]
    exact h.bounded known old
  · intro left listed left' listed' ids
    obtain ⟨known, old, rfl⟩ := (member left).mp listed
    obtain ⟨known', old', rfl⟩ := (member left').mp listed'
    rw [(changed known old).id, (changed known' old').id] at ids
    rw [h.unique known old known' old' ids]
  · intro left listed
    obtain ⟨known, old, rfl⟩ := (member left).mp listed
    rw [(changed known old).type]
    exact h.kind known old
  · intro left listed
    obtain ⟨known, old, rfl⟩ := (member left).mp listed
    split
    · rename_i same
      have one := h.unique known old t there same
      rw [one]
      exact encodable
    · exact h.encodable known old
  · intro id among
    cases mem_append.mp among with
    | inl early => exact h.timeouts id early
    | inr late => cases mem_singleton.mp late
  · intro response open'
    have ⟨known, old, alike⟩ := h.listed response ((answered response).mp open')
    have same := changed known old
    exact ⟨_, (member _).mpr ⟨known, old, rfl⟩, same.id.trans alike.id,
      same.msgMagic.trans alike.msgMagic, same.msgKey.trans alike.msgKey, same.type.trans alike.type⟩
  · intro left listed
    obtain ⟨known, old, rfl⟩ := (member left).mp listed
    have ⟨response, open', alike⟩ := h.answered known old
    have same := changed known old
    exact ⟨response, (answered response).mpr open', same.id.trans alike.id,
      same.msgMagic.trans alike.msgMagic, same.msgKey.trans alike.msgKey, same.type.trans alike.type⟩

/-- A packet keeps the cache in order, whether it is answered from there or not. -/
theorem Caching.received
    (received : pjStunSessionOnRxPkt cfg history.sess rx = some (after, actions)) :
    Caching cfg ⟨after, history.actions ++ actions⟩ := by
  by_cases found : ∃ msg t, history.sess.isDestroying = false ∧ rx.decode cfg = .ok msg ∧
      findCached history.sess msg = some t
  · have ⟨msg, t, alive, decoded, found⟩ := found
    have there := (findCached_resembles found).1
    have ⟨pkt, left, outcome, type, again⟩ :=
      pjStunSessionOnRxPkt_found alive decoded (h.encodable t there) found
    rw [outcome] at received
    cases received
    exact h.resent there type again ..
  · apply h.stepped
    cases destroying : history.sess.isDestroying with
    | true =>
      simp only [pjStunSessionOnRxPkt, destroying, if_true] at received
      cases received
      exact (CacheFrame.refl _).stepped
    | false =>
      apply pjStunSessionOnRxPkt_other _ received
      intro msg decoded
      by_contra some'
      have ⟨t, same⟩ := Option.ne_none_iff_exists'.mp some'
      exact found ⟨msg, t, destroying, decoded, same⟩

end

theorem onRetransmitTimer_stepped
    (expired : onRetransmitTimer cfg sess request answers env = some (after, actions)) :
    CacheStepped cfg sess after actions := by
  simp only [onRetransmitTimer] at expired
  split at expired
  · cases expired
    exact (CacheFrame.refl sess).stepped
  · exact tsxGoesOn_stepped expired

/-- Every event keeps the cache in order. -/
theorem Caching.next (h : Caching cfg history) {event : SessEvent}
    (step : sessStep cfg history.sess event = some (after, actions)) :
    Caching cfg ⟨after, history.actions ++ actions⟩ := by
  have frame : ∀ {after : StunSession} {actions : List SessAction},
      CacheFrame history.sess after actions → Caching cfg ⟨after, history.actions ++ actions⟩ :=
    fun frame => h.stepped frame.stepped
  cases event with
  | sendMsg token cacheRes retransmit server tdata env =>
    have ⟨⟨status, last⟩, sent, same⟩ := Option.map_eq_some_iff.mp step
    cases same
    exact h.stepped (pjStunSessionSendMsg_stepped sent)
  | rxPkt rx => exact h.received step
  | retransmitTimer id answers env =>
    simp only [sessStep] at step
    split at step
    · cases step
      exact frame (.refl _)
    · exact h.stepped (onRetransmitTimer_stepped step)
  | destroyTimer id =>
    simp only [sessStep, stunTsxOnDestroy] at step
    split at step
    · cases step
      exact frame (.refl _)
    · cases step
      split <;> exact frame ⟨rfl, le_rfl, rfl⟩
  | cacheTimeout id =>
    simp only [sessStep, onCacheTimeout] at step
    split at step
    · cases step
      exact frame (.refl _)
    · rename_i response found
      split at step
      · cases step
        exact frame (.refl _)
      · cases step
        exact h.timedOut response (mem_of_find?_eq_some found)
  | cancelReq id notify notifyStatus answer =>
    simp only [sessStep, pjStunSessionCancelReq] at step
    split at step
    · cases step
      exact frame (.refl _)
    · rename_i request found
      split at step
      · cases step
        exact frame (.refl _)
      · cases step
        have last := destroyTdata_frame history.sess request.id false answer
        apply frame
        cases notify <;> exact ⟨last.list, last.nextId, rfl⟩
  | retransmitReq id modCount answers =>
    simp only [sessStep, pjStunSessionRetransmitReq] at step
    split at step
    · cases step
      exact frame (.refl _)
    · split at step
      · cases step
        exact frame (.refl _)
      · cases step
        exact frame ⟨rfl, le_rfl, cacheActions_tsxActions ..⟩
  | setCredential authType cred getCred =>
    cases step
    cases cred <;> exact frame ⟨rfl, le_rfl, rfl⟩
  | destroy | setSoftwareName | useFingerprint =>
    cases step
    exact frame ⟨rfl, le_rfl, rfl⟩

/-- The cache is in order in every state of a run. -/
theorem caching_next (state : Option SessHistory) (event : SessEvent)
    (h : ∀ history, state = some history → Caching cfg history) :
    ∀ history, sessNext cfg state event = some history → Caching cfg history := by
  intro history next
  cases state with
  | none => cases next
  | some before =>
    have ⟨⟨after, actions⟩, step, same⟩ := Option.map_eq_some_iff.mp next
    cases same
    exact (h before rfl).next step

theorem caching_start (fingerprint : Bool) (softwareName : Str) (hasRxRequest hasRxIndication : Bool) :
    Caching cfg (sessStart fingerprint softwareName hasRxRequest hasRxIndication) where
  bounded := by simp [sessStart, pjStunSessionCreate]
  unique := by simp [sessStart, pjStunSessionCreate]
  kind := by simp [sessStart, pjStunSessionCreate]
  encodable := by simp [sessStart, pjStunSessionCreate]
  timeouts := by simp [sessStart]
  listed := by simp [SessHistory.Answered, sessStart]
  answered := by simp [sessStart, pjStunSessionCreate]

/-! ## Retransmitted requests -/

/-- A response answers a request: it has the method of the request with the bits of a response, its
magic and its transaction ID. -/
structure TxData.Answers (response : TxData) (request : Msg) : Prop where
  asked : pjStunIsRequest request.hdr.type
  type : response.msg.hdr.type = request.hdr.type ||| 0x0100 ∨
    response.msg.hdr.type = request.hdr.type ||| 0x0110
  msgMagic : response.msgMagic = request.hdr.magic
  msgKey : response.msgKey = request.hdr.tsxId

/-- What a session is to do with a packet. If it is a request that was answered, a response that answered
it is sent again, byte for byte, and nothing else is done. Otherwise no response is sent again. -/
structure RxPkt.Absorbed (cfg : StunConfig) (history : SessHistory) (rx : RxPkt) : Prop where
  again : ∀ msg, rx.decode cfg = .ok msg →
    (∃ response, history.Answered response ∧ response.tdata.Answers msg) →
    ∃ response after, history.Answered response ∧ response.tdata.Answers msg ∧
      pjStunSessionOnRxPkt cfg history.sess rx = some (after,
        [.send true response.tdata.token response.tdata.pkt rx.srcAddr rx.reply.answers.transport])
  only : ∀ after actions, pjStunSessionOnRxPkt cfg history.sess rx = some (after, actions) →
    ∀ token pkt addr status, .send true token pkt addr status ∈ actions →
    ∃ msg response, rx.decode cfg = .ok msg ∧ history.Answered response ∧ response.tdata.Answers msg

/-- Every packet that arrives in a session is dealt with in this way. -/
def AbsorbsNext (cfg : StunConfig) (state : Option SessHistory) (event : SessEvent) : Prop :=
  ∀ history rx, state = some history → event = .rxPkt rx → history.sess.isDestroying = false →
    rx.Absorbed cfg history

/-- No packet is a request that a response in the cache answers, nor a message of the type of a response
in the cache, with its magic and its transaction ID. -/
def UnlikeCached (cfg : StunConfig) (state : Option SessHistory) (event : SessEvent) : Prop :=
  ∀ history rx, state = some history → event = .rxPkt rx → history.sess.isDestroying = false →
    ∀ msg response, rx.decode cfg = .ok msg → history.Answered response →
      ¬response.tdata.Answers msg ∧ ¬response.tdata.Resembles msg

theorem request_not_response {msgType : UInt16} (request : pjStunIsRequest msgType) :
    isAnyResponse msgType = false := by
  have bits : msgType.toNat &&& 0x0110 = 0 := by
    have zero := congrArg UInt16.toNat (of_decide_eq_true request)
    exact zero
  simp [isAnyResponse, pjStunIsSuccessResponse, pjStunIsErrorResponse, bits]

/-- What is in the cache does not resemble a request. -/
theorem Caching.not_resembles (h : Caching cfg history) (request : pjStunIsRequest msg.hdr.type)
    (there : t ∈ history.sess.cachedResponseList) : ¬t.tdata.Resembles msg := by
  intro alike
  have kind := h.kind t there
  rw [alike.2.1, request_not_response request] at kind
  exact Bool.false_ne_true kind

theorem CachedResponse.Same.resembles {response : CachedResponse} (h : t.Same response) :
    t.tdata.Resembles msg ↔ response.tdata.Resembles msg := by
  rw [TxData.Resembles, TxData.Resembles, h.msgMagic, h.type, h.msgKey]

/-- A packet is dealt with as it is to be if and only if it is like none of the cached responses and
like none of the requests that they answered. -/
theorem Caching.absorbed_iff (h : Caching cfg history) (alive : history.sess.isDestroying = false)
    (rx : RxPkt) :
    rx.Absorbed cfg history ↔ ∀ msg response, rx.decode cfg = .ok msg → history.Answered response →
      ¬response.tdata.Answers msg ∧ ¬response.tdata.Resembles msg := by
  constructor
  · intro absorbed msg response decoded answered
    constructor
    · intro answers
      have missed : findCached history.sess msg = none := by
        by_contra some'
        have ⟨t, found⟩ := Option.ne_none_iff_exists'.mp some'
        have ⟨there, alike⟩ := findCached_resembles found
        exact h.not_resembles answers.asked there alike
      have ⟨known, after, _, _, outcome⟩ := absorbed.again msg decoded ⟨response, answered, answers⟩
      have missed' : ∀ msg', rx.decode cfg = .ok msg' → findCached history.sess msg' = none := by
        intro msg' decoded'
        rw [decoded] at decoded'
        cases decoded'
        exact missed
      exact (pjStunSessionOnRxPkt_other missed' outcome).not_resent _ _ _ _ (mem_singleton.mpr rfl)
    · intro alike
      have ⟨t, there, same⟩ := h.listed response answered
      have some' : findCached history.sess msg ≠ none := by
        intro missed
        exact findCached_none missed there (same.resembles.mpr alike)
      have ⟨first, found⟩ := Option.ne_none_iff_exists'.mp some'
      have ⟨listed, resembles⟩ := findCached_resembles found
      have ⟨pkt, left, outcome, _, _⟩ :=
        pjStunSessionOnRxPkt_found alive decoded (h.encodable first listed) found
      have ⟨msg', known, decoded', _, answers⟩ :=
        absorbed.only _ _ outcome _ _ _ _ (mem_singleton.mpr rfl)
      rw [decoded] at decoded'
      cases decoded'
      exact h.not_resembles answers.asked listed resembles
  · intro unlike
    have missed : ∀ msg, rx.decode cfg = .ok msg → findCached history.sess msg = none := by
      intro msg decoded
      by_contra some'
      have ⟨t, found⟩ := Option.ne_none_iff_exists'.mp some'
      have ⟨there, alike⟩ := findCached_resembles found
      have ⟨response, answered, same⟩ := h.answered t there
      exact (unlike msg response decoded answered).2 (same.resembles.mp alike)
    constructor
    · intro msg decoded ⟨response, answered, answers⟩
      exact absurd answers (unlike msg response decoded answered).1
    · intro after actions received token pkt addr status among
      have other := pjStunSessionOnRxPkt_other missed received
      exact absurd among (other.not_resent token pkt addr status)

/-- Along a run, retransmitted requests are absorbed as they are to be if and only if there are none, and
no packet either that is like a cached response itself. -/
theorem cached_response_iff (fingerprint : Bool) (softwareName : Str)
    (hasRxRequest hasRxIndication : Bool) (events : List SessEvent) :
    Run.Meets (sessNext cfg) (AbsorbsNext cfg)
        (some (sessStart fingerprint softwareName hasRxRequest hasRxIndication)) events ↔
      Run.Meets (sessNext cfg) (UnlikeCached cfg)
        (some (sessStart fingerprint softwareName hasRxRequest hasRxIndication)) events := by
  apply Run.meets_iff caching_next
  · intro state event caching
    constructor
    · intro absorbs history rx here packet alive
      exact ((caching history here).absorbed_iff alive rx).mp (absorbs history rx here packet alive)
    · intro unlike history rx here packet alive
      exact ((caching history here).absorbed_iff alive rx).mpr (unlike history rx here packet alive)
  · intro history here
    cases here
    exact caching_start fingerprint softwareName hasRxRequest hasRxIndication

/-! A binding request with the transaction ID zero, its success response, sent to be cached, and the
request again. -/

/-- The header of a binding request. -/
def bindingRequest : Str := [0, 1, 0, 0, 0x21, 0x12, 0xA4, 0x42, 0, 0, 0, 0, 0, 0, 0, 0, 0, 0, 0, 0]

/-- The request arrives. -/
def bindingRx : RxPkt where
  packet := (bindingRequest.getD · 0)
  pktSize := 20
  options := ⟨true, true, false⟩
  noAuthenticate := false
  token := 0
  srcAddr := bindingAddr
  errorResponse := none
  reply := plainEnv
  complete := ⟨Vector.replicate 12 0, plainEnv, pjSuccess⟩

/-- The response to it. -/
def bindingResponse : TxData :=
  createTdata (pjStunMsgCreate 0x0101 pjStunMagic (Vector.replicate 12 0)) ReqCredInfo.empty

/-- The request arrives, is answered, and arrives again. -/
def bindingEvents : List SessEvent :=
  [.rxPkt bindingRx, .sendMsg 0 true false bindingAddr bindingResponse plainEnv, .rxPkt bindingRx]

/-- The response as it is cached: with the packet that was sent. -/
def bindingCached : CachedResponse where
  id := 0
  tdata := { bindingResponse with
    pkt := [1, 1, 0, 0, 0x21, 0x12, 0xA4, 0x42, 0, 0, 0, 0, 0, 0, 0, 0, 0, 0, 0, 0] }

/-- The state before the request arrives again. -/
def bindingHistory : SessHistory where
  sess := { pjStunSessionCreate false [] true false with
    cachedResponseList := [bindingCached]
    nextId := 1 }
  actions := [
    .rxRequest (pjStunMsgCreate 0x0001 pjStunMagic (Vector.replicate 12 0)) 0 bindingAddr,
    .send false 0 bindingCached.tdata.pkt bindingAddr pjSuccess,
    .cached bindingCached]

theorem bindingHistory_reached :
    (bindingEvents.take 2).foldl (sessNext plainConfig) (some (sessStart false [] true false)) =
      some bindingHistory := by
  rfl

/-- A retransmitted request is handed to the application. -/
theorem cached_response_handled_again : ¬Run.Meets (sessNext plainConfig) (AbsorbsNext plainConfig)
    (some (sessStart false [] true false)) bindingEvents := by
  intro meets
  have last := meets.2.2.1
  have absorbed := last bindingHistory bindingRx bindingHistory_reached rfl rfl
  have decoded : bindingRx.decode plainConfig =
      .ok (pjStunMsgCreate 0x0001 pjStunMagic (Vector.replicate 12 0)) := by rfl
  have answered : bindingHistory.Answered bindingCached := by
    constructor <;> decide
  have answers : bindingCached.tdata.Answers
      (pjStunMsgCreate 0x0001 pjStunMagic (Vector.replicate 12 0)) := by
    constructor <;> decide
  have ⟨response, after, _, _, outcome⟩ := absorbed.again _ decoded
    ⟨bindingCached, answered, answers⟩
  have handled : (pjStunSessionOnRxPkt plainConfig bindingHistory.sess bindingRx).map Prod.snd =
      some [.rxRequest (pjStunMsgCreate 0x0001 pjStunMagic (Vector.replicate 12 0)) 0 bindingAddr] := by
    decide
  rw [outcome] at handled
  cases handled

end Pjnath.Stun
