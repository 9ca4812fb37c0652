import Pjproject.Hash.Table
import Pjproject.Lib.SelectionSort
import Pjproject.Stun.Session

/-!
# ICE sessions

`ice_session.c`: a session pairs local with remote candidates, checks the pairs by STUN requests
and ends with a nominated pair for each component. Candidates and checks are slots of the arrays
of the session, and a pointer to one is the index of its slot. What the STUN sessions below answer
is given from outside: the status of each request that is created and sent, and the completions of
the requests that were sent. A call that would dereference a null pointer has no outcome, and an
assertion does nothing. The credentials, the default candidate, the texts of the log, the state of
the checklist that only the log shows and the destruction of a session are left out.
-/

namespace Pjnath.Ice
open Pj Stun

/-! ## Data -/

/-- `PJNATH_ESTUNNOMAPPEDADDR`. -/
def pjnathEstunnomappedaddr : Int := pjnathErrnoStart + 40

/-- `PJNATH_EICEFAILED`. -/
def pjnathEicefailed : Int := pjnathErrnoStart + 82

/-- `PJNATH_EICEINCOMPID`. -/
def pjnathEiceincompid : Int := pjnathErrnoStart + 86

/-- `PJNATH_EICEINSRCADDR`. -/
def pjnathEiceinsrcaddr : Int := pjnathErrnoStart + 88

/-- `PJNATH_EICENOHOSTCAND`. -/
def pjnathEicenohostcand : Int := pjnathErrnoStart + 92

/-- `PJNATH_EICENOMTIMEOUT`. -/
def pjnathEicenomtimeout : Int := pjnathErrnoStart + 93

/-- `PJ_ENOTFOUND`. -/
def pjEnotfound : Int := 70006

/-- `PJ_ECANCELLED`. -/
def pjEcancelled : Int := 70014

/-- `PJ_STUN_SC_ROLE_CONFLICT`. -/
def stunScRoleConflict : Int := 487

/-- `PJ_STUN_SC_BAD_REQUEST`. -/
def stunScBadRequest : Int := 400

/-- `PJ_ICE_MAX_CAND`. -/
def iceMaxCand : Nat := 16

/-- `PJ_ICE_MAX_CHECKS`. -/
def iceMaxChecks : Nat := 32

/-- `pj_ice_sess_role`. -/
inductive Role
  | unknown | controlled | controlling
deriving DecidableEq, Repr

/-- `pj_ice_cand_type`. -/
inductive CandType
  | host | srflx | prflx | relayed
deriving DecidableEq, Repr

/-- `pj_ice_sess_check_state`. -/
inductive CheckState
  | frozen | waiting | inProgress | succeeded | failed
deriving DecidableEq, Repr

/-- `timer_type`, the identifier of the timer of a session. -/
inductive TimerType
  | none | completionCallback | controlledWaitNom | startNominatedCheck | keepAlive
deriving DecidableEq, Repr

/-- `pj_ice_sess_cand`. The related address is not read. -/
structure Cand where
  type : CandType
  compId : Nat
  transportId : Nat
  foundation : Str
  prio : UInt32
  addr : Sockaddr
  baseAddr : Sockaddr
deriving DecidableEq, Repr

/-- `pj_ice_sess_check`. -/
structure Check where
  lcand : Nat
  rcand : Nat
  prio : Nat
  state : CheckState
  nominated : Bool
  errCode : Int
  tdata : Option Nat
deriving DecidableEq, Repr

/-- `pj_ice_sess_comp`: the checks are slots of the valid list. -/
structure Comp where
  validCheck : Option Nat
  nominatedCheck : Option Nat
deriving DecidableEq, Repr

/-- The slots of the arrays are zeroed. -/
def Cand.zero : Cand := ⟨.host, 0, 0, [], 0, .inet (.replicate 2 0) (.replicate 4 0),
  .inet (.replicate 2 0) (.replicate 4 0)⟩

def Check.zero : Check := ⟨0, 0, 0, .frozen, false, pjSuccess, none⟩

def Comp.zero : Comp := ⟨none, none⟩

/-- `pj_ice_rx_check`. -/
structure RxCheck where
  compId : Nat
  transportId : Nat
  srcAddr : Sockaddr
  useCandidate : Bool
  priority : UInt32
deriving DecidableEq, Repr

/-- A Binding request of a check, with the attributes that `perform_check` gives it and what it
attaches to it. -/
structure CheckRequest where
  id : Nat
  ckid : Nat
  transportId : Nat
  priority : UInt32
  useCandidate : Bool
  controlling : Bool
  tieBreaker : UInt64
  dstAddr : Sockaddr
deriving DecidableEq, Repr

/-- What a session lets others see: a request and the response to one, with its error code, and
the call that ends ICE. -/
inductive Output
  | request (request : CheckRequest)
  | response (code : Int)
  | complete (status : Int)
deriving DecidableEq, Repr

/-- What `pj_stun_session_create_req` and `pj_stun_session_send_msg` return for a request. -/
structure TxResult where
  create : Int
  send : Int

/-- What does not change in a session, and the functions that it calls. -/
structure Config where
  tieBreaker : UInt64
  prefs : CandType → UInt8
  aggressive : Bool
  controlledAgentWantNomTimeout : Int
  hasOnIceComplete : Bool
  tx : Nat → TxResult
  synthesize : Sockaddr → Option Sockaddr

/-- `pj_ice_sess`. The timer of the session is active when its identifier says so, that of the
checklist when `clistTimer` does. `tsx` has the requests that the STUN sessions have not ended, and
`nextTdata` counts those that were tried. -/
structure IceSess where
  role : Role
  isNominating : Bool
  isComplete : Bool
  iceStatus : Int
  timer : TimerType
  comps : List Comp
  compKa : Nat
  lcands : List Cand
  rcands : List Cand
  checks : List Check
  clistTimer : Bool
  valid : List Check
  earlyCheck : List RxCheck
  tsx : List CheckRequest
  nextTdata : Nat
  log : List Output

variable (cfg : Config)

/-- `pj_ice_sess_create`. -/
def pjIceSessCreate (role : Role) (compCnt : Nat) : IceSess where
  role := role
  isNominating := false
  isComplete := false
  iceStatus := pjSuccess
  timer := .none
  comps := List.replicate compCnt Comp.zero
  compKa := 0
  lcands := []
  rcands := []
  checks := []
  clistTimer := false
  valid := []
  earlyCheck := []
  tsx := []
  nextTdata := 0
  log := []

/-! ## Slots -/

/-- The check of a slot. -/
def checkAt (checks : List Check) (slot : Nat) : Check := checks.getD slot Check.zero

namespace IceSess

/-- `check->lcand`. -/
def lcand (ice : IceSess) (check : Check) : Cand := ice.lcands.getD check.lcand Cand.zero

/-- `check->rcand`. -/
def rcand (ice : IceSess) (check : Check) : Cand := ice.rcands.getD check.rcand Cand.zero

/-- `find_comp`. -/
def findComp (ice : IceSess) (compId : Nat) : Option Comp :=
  if compId = 0 then none else ice.comps[compId - 1]?

/-- A check of the checklist is changed. -/
def updateCheck (ice : IceSess) (ckid : Nat) (change : Check → Check) : IceSess :=
  { ice with checks := ice.checks.modify ckid change }

/-- `check_set_state`, of a check of the checklist. -/
def checkSetState (ice : IceSess) (ckid : Nat) (state : CheckState) (errCode : Int) : IceSess :=
  ice.updateCheck ckid fun check => { check with state := state, errCode := errCode }

/-- Something is seen from outside. -/
def emit (ice : IceSess) (output : Output) : IceSess := { ice with log := ice.log ++ [output] }

end IceSess

/-- The state is before `SUCCEEDED`: the check is not done. -/
def CheckState.isPending : CheckState → Bool
  | .frozen | .waiting | .inProgress => true
  | .succeeded | .failed => false

/-- The family is that of IPv6. -/
def isInet6 : Sockaddr → Bool
  | .inet _ _ => false
  | .inet6 _ _ => true

/-! ## Priorities and foundations -/

/-- `CALC_CAND_PRIO`. -/
def calcCandPrio (type : CandType) (localPref : UInt32) (compId : Nat) : UInt32 :=
  ((cfg.prefs type).toUInt32 &&& 0xFF) <<< 24 + (localPref &&& 0xFFFF) <<< 8 +
    ((256 - UInt32.ofNat compId) &&& 0xFF)

/-- `CALC_CHECK_PRIO`: the halves of 32 bits side by side. -/
def calcCheckPrio (role : Role) (lcand rcand : Cand) : Nat :=
  let offerer := if role = .controlling then lcand.prio else rcand.prio
  let answerer := if role = .controlling then rcand.prio else lcand.prio
  let hi := if offerer < answerer then offerer else answerer
  let lo := (if offerer > answerer then offerer else answerer) <<< 1 +
    if offerer > answerer then 1 else 0
  hi.toNat * 2 ^ 32 + lo.toNat

/-- `get_type_prefix`. -/
def getTypePrefix : CandType → UInt8
  | .host => 72
  | .srflx => 83
  | .prflx => 80
  | .relayed => 82

/-- `pj_ice_calc_foundation`. -/
def pjIceCalcFoundation (type : CandType) (baseAddr : Sockaddr) : Str :=
  let val := match baseAddr with
    | .inet _ addr => addr.toList.foldl (fun val byte => val * 256 + byte.toNat) 0
    | .inet6 _ addr => (Hash.pjHashCalc 0 addr.toList).toNat
  getTypePrefix type :: ofChars (Nat.toDigits 16 val)

/-! ## Candidates -/

/-- `pj_ice_sess_add_cand`. -/
def pjIceSessAddCand (ice : IceSess) (compId transportId : Nat) (type : CandType) (localPref : UInt16)
    (foundation : Str) (addr baseAddr : Sockaddr) : IceSess × Int :=
  if compId = 0 ∨ ice.comps.length < compId then (ice, pjEinval) else
  if iceMaxCand ≤ ice.lcands.length then (ice, pjEtoomany) else
  let lcand : Cand := {
    type := type
    compId := compId % 256
    transportId := transportId % 256
    foundation := foundation
    prio := calcCandPrio cfg type localPref.toUInt32 (compId % 256)
    addr := addr
    baseAddr := baseAddr }
  ({ ice with lcands := ice.lcands ++ [lcand] }, pjSuccess)

/-! ## The checklist -/

/-- `sort_checklist`: the checks, with where the pointers to them go. -/
def sortChecklist (checks : List Check) : List Check × (Nat → Nat) :=
  SelectionSort.sort Check.prio Check.zero checks

/-- The base of a server reflexive candidate that `prune_checklist` finds. -/
def findBase (lcands : List Cand) (srflx : Cand) : Option Nat :=
  lcands.findIdx? fun host => host.type = .host && srflx.baseAddr = host.addr

/-- The first loop of `prune_checklist`. -/
def replaceSrflx (lcands : List Cand) (check : Check) : Except Int Check :=
  let lcand := lcands.getD check.lcand Cand.zero
  if lcand.type = .srflx then
    match findBase lcands lcand with
    | some host => .ok { check with lcand := host }
    | none => .error pjnathEicenohostcand
  else .ok check

/-- A check makes a later one redundant. -/
def redundant (lcands : List Cand) (upper lower : Check) : Bool :=
  (upper.lcand = lower.lcand && upper.rcand = lower.rcand) ||
    (lower.rcand = upper.rcand &&
      (lcands.getD lower.lcand Cand.zero).baseAddr = (lcands.getD upper.lcand Cand.zero).baseAddr)

/-- The second loop of `prune_checklist`, which goes on with the checks that it leaves. -/
def pruneFrom (lcands : List Cand) : Nat → List Check → List Check
  | count + 1, check :: rest =>
    check :: pruneFrom lcands count (rest.filter fun lower => !redundant lcands check lower)
  | _, checks => checks

/-- `prune_checklist`. -/
def pruneChecklist (lcands : List Cand) (checks : List Check) : Except Int (List Check) := do
  let replaced ← checks.mapM (replaceSrflx lcands)
  pure (pruneFrom lcands replaced.length replaced)

/-- Two candidates are paired. -/
def paired (lcand rcand : Cand) : Bool :=
  lcand.compId = rcand.compId && isInet6 lcand.addr = isInet6 rcand.addr

/-- A pair of candidates that is checked. -/
def newCheck (role : Role) (lcands rcands : List Cand) (i j : Nat) : Check where
  lcand := i
  rcand := j
  prio := calcCheckPrio role (lcands.getD i Cand.zero) (rcands.getD j Cand.zero)
  state := .frozen
  nominated := false
  errCode := pjSuccess
  tdata := none

/-- The loops that pair the candidates. Before each pair the checklist has to have room. -/
def pairCands (role : Role) (lcands rcands : List Cand) : List (Nat × Nat) → List Check →
    Except Int (List Check)
  | [], checks => .ok checks
  | (i, j) :: rest, checks =>
    if iceMaxChecks ≤ checks.length then .error pjEtoomany else
    if paired (lcands.getD i Cand.zero) (rcands.getD j Cand.zero) then
      pairCands role lcands rcands rest (checks ++ [newCheck role lcands rcands i j])
    else pairCands role lcands rcands rest checks

/-- The indices of two loops. -/
def indexPairs (m n : Nat) : List (Nat × Nat) :=
  (List.range m).flatMap fun i => (List.range n).map fun j => (i, j)

/-- `pj_ice_sess_create_check_list`, of a session that has no checklist. A session for which it
fails is given up. -/
def pjIceSessCreateCheckList (ice : IceSess) (remCand : List Cand) : Except Int IceSess :=
  if remCand = [] then .error pjEinval else
  if iceMaxCand < remCand.length + ice.rcands.length then .error pjEtoomany else
  let rcands := remCand.filter fun cand => !(cand.compId = 0 || ice.comps.length < cand.compId)
  let highestComp := rcands.foldl (fun highest cand => max highest cand.compId) 0
  match pairCands ice.role ice.lcands rcands (indexPairs ice.lcands.length rcands.length)
      ice.checks with
  | .error status => .error status
  | .ok checks =>
    if checks = [] then .error pjEnotfound else
    match pruneChecklist ice.lcands (sortChecklist checks).1 with
    | .error status => .error status
    | .ok checks =>
      .ok { ice with
        rcands := rcands
        checks := checks
        comps := ice.comps.take highestComp
        clistTimer := false }

/-! ## The end of a check -/

/-- `on_ice_complete`. -/
def onIceComplete (ice : IceSess) (status : Int) : IceSess :=
  if ice.isComplete then ice else
  { ice with
    isComplete := true
    iceStatus := status
    timer := if cfg.hasOnIceComplete then .completionCallback else .none }

/-- The check of a slot takes the place of a lower one. -/
def takesOver (valid : List Check) (current : Option Nat) (slot : Nat) : Option Nat :=
  match current with
  | none => some slot
  | some held =>
    if (checkAt valid held).prio < (checkAt valid slot).prio then some slot else some held

/-- `update_comp_check`, of a check of the valid list. -/
def updateCompCheck (ice : IceSess) (compId slot : Nat) : Option IceSess :=
  match ice.findComp compId with
  | none => none
  | some comp =>
    some { ice with comps := ice.comps.set (compId - 1) {
      validCheck := takesOver ice.valid comp.validCheck slot
      nominatedCheck :=
        if (checkAt ice.valid slot).nominated then takesOver ice.valid comp.nominatedCheck slot
        else comp.nominatedCheck } }

/-- A valid check becomes `Waiting` again, where `start_nominated_check` finds it. -/
def renominate (ice : IceSess) (slot : Nat) (checks : List Check) : List Check :=
  let vc := checkAt ice.valid slot
  match checks.findIdx? fun check =>
      (ice.lcand check).transportId = (ice.lcand vc).transportId && check.rcand = vc.rcand with
  | none => checks
  | some ckid => checks.modify ckid fun check =>
    { check with state := .waiting, errCode := pjSuccess }

/-- The loop of `start_nominated_check`. -/
def renominateAll (ice : IceSess) : List Comp → List Check → Option (List Check)
  | [], checks => some checks
  | comp :: rest, checks =>
    match comp.validCheck with
    | none => none
    | some slot => renominateAll ice rest (renominate ice slot checks)

/-- `start_nominated_check`. -/
def startNominatedCheck (ice : IceSess) : Option IceSess :=
  match renominateAll ice ice.comps ice.checks with
  | none => none
  | some checks =>
    some { ice with
      timer := if ice.timer = .startNominatedCheck then .none else ice.timer
      checks := checks
      clistTimer := true
      isNominating := true }

/-- A check succeeds: the others of its foundation are not `Frozen` any more. -/
def unfreeze (ice : IceSess) (check : Check) : IceSess :=
  { ice with checks := ice.checks.map fun c =>
      if (ice.lcand c).foundation = (ice.lcand check).foundation ∧ c.state = .frozen then
        { c with state := .waiting, errCode := pjSuccess }
      else c }

/-- The transaction of a check of the component is cancelled. -/
def isCancelled (ice : IceSess) (compId : Nat) (check : Check) : Bool :=
  (ice.lcand check).compId = compId && check.state = .inProgress && check.tdata.isSome

/-- A check is nominated: the others of its component fail. -/
def cancelOthers (ice : IceSess) (check : Check) : Option IceSess :=
  let compId := (ice.lcand check).compId
  let cancelled := ice.checks.filter (isCancelled ice compId)
  if cancelled ≠ [] ∧ ice.findComp compId = none then none else
  some { ice with
    checks := ice.checks.map fun c =>
      if isCancelled ice compId c then
        { c with state := .failed, errCode := pjEcancelled, tdata := none }
      else if (ice.lcand c).compId = compId ∧ (c.state = .frozen ∨ c.state = .waiting) then
        { c with state := .failed, errCode := pjEcancelled }
      else c
    tsx := ice.tsx.filter fun request => !cancelled.any fun c => c.tdata = some request.id }

/-- What follows a check, once no check is left to do. -/
def onAllChecksDone (ice : IceSess) : Option (IceSess × Bool) :=
  if ice.role = .controlled then
    if ice.comps.any fun comp => comp.validCheck.isNone then
      some (onIceComplete cfg ice pjnathEicefailed, true)
    else if ice.timer = .none ∧ 0 ≤ cfg.controlledAgentWantNomTimeout then
      some ({ ice with timer := .controlledWaitNom }, false)
    else some (ice, false)
  else if ice.isNominating then some (onIceComplete cfg ice pjnathEicefailed, true)
  else if ice.comps.any fun comp => comp.validCheck.isNone then
    some (onIceComplete cfg ice pjnathEicefailed, true)
  else (startNominatedCheck ice).map fun ice => (ice, false)

/-- The rest of `on_check_complete`, which may end ICE. -/
def onPairStates (ice : IceSess) (check : Check) : Option (IceSess × Bool) :=
  if ice.comps.all fun comp => comp.nominatedCheck.isSome then
    some (onIceComplete cfg ice pjSuccess, true)
  else if ice.checks.all fun c => !c.state.isPending then onAllChecksDone cfg ice
  else if check.errCode = pjSuccess ∧ ice.role = .controlling ∧ ice.isNominating = false ∧
      ice.timer = .none ∧ (ice.comps.all fun comp => comp.validCheck.isSome) then
    some ({ ice with timer := .startNominatedCheck }, false)
  else some (ice, false)

/-- `on_check_complete`, of a check of the checklist. -/
def onCheckComplete (ice : IceSess) (ckid : Nat) : Option (IceSess × Bool) :=
  let check := checkAt ice.checks ckid
  let ice := if check.errCode = pjSuccess then unfreeze ice check else ice
  if check.errCode = pjSuccess ∧ check.nominated then
    (cancelOthers ice check).bind fun ice => onPairStates cfg ice check
  else onPairStates cfg ice check

/-! ## Checks -/

/-- The request of `perform_check`. -/
def checkRequest (ice : IceSess) (ckid : Nat) (nominate : Bool) : CheckRequest where
  id := ice.nextTdata
  ckid := ckid
  transportId := (ice.lcand (checkAt ice.checks ckid)).transportId
  priority := calcCandPrio cfg .prflx 65535 (ice.lcand (checkAt ice.checks ckid)).compId
  useCandidate := ice.role = .controlling && nominate
  controlling := ice.role = .controlling
  tieBreaker := cfg.tieBreaker
  dstAddr := (ice.rcand (checkAt ice.checks ckid)).addr

/-- `perform_check`. -/
def performCheck (ice : IceSess) (ckid : Nat) (nominate : Bool) : Option (IceSess × Int) :=
  match ice.findComp (ice.lcand (checkAt ice.checks ckid)).compId with
  | none => none
  | some _ =>
    let request := checkRequest cfg ice ckid nominate
    let tx := cfg.tx ice.nextTdata
    let ice := { ice with nextTdata := ice.nextTdata + 1 }
    if tx.create ≠ pjSuccess then some (ice, tx.create) else
    let ice := ice.updateCheck ckid fun check =>
      { check with nominated := check.nominated || request.useCandidate, tdata := some request.id }
    -- A request that is pending lives on, though the check takes it for a failure.
    let ice := if accepted tx.send then
        { ice with tsx := ice.tsx ++ [request] }.emit (.request request)
      else ice
    if tx.send ≠ pjSuccess then
      some (ice.updateCheck ckid fun check => { check with tdata := none }, tx.send)
    else some (ice.checkSetState ckid .inProgress pjSuccess, pjSuccess)

/-- The check that the periodic timer starts. -/
def nextCheck (checks : List Check) : Option Nat :=
  match checks.findIdx? fun check => check.state = .waiting with
  | some ckid => some ckid
  | none => checks.findIdx? fun check => check.state = .frozen

/-- `start_periodic_check`. -/
def startPeriodicCheck (ice : IceSess) : Option IceSess :=
  let ice := { ice with clistTimer := false }
  match nextCheck ice.checks with
  | none => some ice
  | some ckid =>
    (performCheck cfg ice ckid ice.isNominating).bind fun (ice, status) =>
      (if status ≠ pjSuccess then
        (onCheckComplete cfg (ice.checkSetState ckid .failed status) ckid).map Prod.fst
      else some ice).map fun ice => { ice with clistTimer := true }

/-- The first remote candidate with an address. -/
def findRcand (rcands : List Cand) (addr : Sockaddr) : Option Nat :=
  rcands.findIdx? fun rcand => addr = rcand.addr

/-- The local candidate that a request for a component and a transport is taken to be for. -/
def findLcand (ice : IceSess) (compId transportId : Nat) : Option Nat :=
  (ice.checks.find? fun check =>
    (ice.lcand check).compId = compId && (ice.lcand check).transportId = transportId).map Check.lcand

/-- The remote candidate that a request makes known. Its foundation is not read. -/
def prflxRcand (rcheck : RxCheck) : Cand where
  type := .prflx
  compId := rcheck.compId % 256
  transportId := 0
  foundation := []
  prio := rcheck.priority
  addr := rcheck.srcAddr
  baseAddr := Cand.zero.baseAddr

/-- A pair of the valid list that is that of a check, but for the local candidate, is nominated. -/
def nominateValid (check : Check) (ice : IceSess) (slot : Nat) : Option IceSess :=
  let vc := checkAt ice.valid slot
  if (ice.lcand vc).transportId = (ice.lcand check).transportId ∧ vc.rcand = check.rcand then
    updateCompCheck { ice with valid := ice.valid.modify slot fun vc => { vc with nominated := true } }
      (ice.lcand vc).compId slot
  else some ice

/-- `handle_incoming_check` on a pair that the checklist has. -/
def triggerCheck (ice : IceSess) (rcheck : RxCheck) (ckid : Nat) : Option IceSess :=
  let ice := ice.updateCheck ckid fun check =>
    { check with nominated := rcheck.useCandidate || check.nominated }
  let check := checkAt ice.checks ckid
  match check.state with
  | .frozen | .waiting =>
    (performCheck cfg ice ckid (check.nominated || ice.isNominating)).map Prod.fst
  | .inProgress =>
    -- A retransmission changes nothing here.
    if ice.findComp rcheck.compId = none then none else some ice
  | .succeeded =>
    (if rcheck.useCandidate then (List.range ice.valid.length).foldlM (nominateValid check) ice
      else some ice).bind fun ice => (onCheckComplete cfg ice ckid).map Prod.fst
  | .failed => some ice

/-- `handle_incoming_check` on a pair that the checklist does not have. -/
def addTriggeredCheck (ice : IceSess) (rcheck : RxCheck) (lcand rcand : Nat) : Option IceSess :=
  if iceMaxChecks ≤ ice.checks.length then some ice else
  let check : Check := {
    lcand := lcand
    rcand := rcand
    prio := calcCheckPrio ice.role (ice.lcands.getD lcand Cand.zero) (ice.rcands.getD rcand Cand.zero)
    state := .waiting
    nominated := rcheck.useCandidate
    errCode := pjSuccess
    tdata := none }
  (performCheck cfg { ice with checks := ice.checks ++ [check] } ice.checks.length
    (rcheck.useCandidate || ice.isNominating)).map Prod.fst

/-- `handle_incoming_check`. -/
def handleIncomingCheck (ice : IceSess) (rcheck : RxCheck) : Option IceSess :=
  let found := findRcand ice.rcands rcheck.srcAddr
  if found = none ∧ iceMaxCand ≤ ice.rcands.length then some ice else
  let rcand := found.getD ice.rcands.length
  let ice := if found = none then { ice with rcands := ice.rcands ++ [prflxRcand rcheck] } else ice
  match findLcand ice rcheck.compId rcheck.transportId with
  | none => some ice
  | some lcand =>
    match ice.checks.findIdx? fun check => check.lcand = lcand && check.rcand = rcand with
    | some ckid => triggerCheck cfg ice rcheck ckid
    | none => addTriggeredCheck cfg ice rcheck lcand rcand

/-- The candidate of component 1 is the first of its foundation: its check need not wait any longer
to be started. -/
def wakeFirsts (ice : IceSess) (compId : Nat) : List Str → List Check → List Check
  | _, [] => []
  | seen, check :: rest =>
    let foundation := (ice.lcand check).foundation
    if (ice.lcand check).compId = compId ∧ foundation ∉ seen then
      (if check.state = .frozen then { check with state := .waiting, errCode := pjSuccess } else check) ::
        wakeFirsts ice compId (seen ++ [foundation]) rest
    else check :: wakeFirsts ice compId seen rest

/-- A session whose first checks wait. -/
def wake (ice : IceSess) : IceSess :=
  { ice with
    isNominating := ice.isNominating || cfg.aggressive
    checks := wakeFirsts ice 1 [] ice.checks }

/-- `pj_ice_sess_start_check`. -/
def pjIceSessStartCheck (ice : IceSess) : Option (IceSess × Int) :=
  if ice.checks = [] then some (ice, pjEinvalidop) else
  if ice.checks.all fun check => (ice.lcand check).compId ≠ 1 then
    some ({ ice with isNominating := ice.isNominating || cfg.aggressive }, pjnathEiceincompid)
  else
  (ice.earlyCheck.foldlM (handleIncomingCheck cfg) (wake cfg ice)).map fun ice =>
    -- A timer that is scheduled is not scheduled again.
    ({ ice with earlyCheck := [], clistTimer := true },
      if ice.clistTimer then pjEinvalidop else pjSuccess)

/-! ## The timer of the session -/

/-- `ice_keep_alive`. -/
def iceKeepAlive (ice : IceSess) (sendNow : Bool) : Option IceSess :=
  if sendNow then
    match ice.comps[ice.compKa]? with
    | none | some ⟨_, none⟩ => none
    | some ⟨_, some _⟩ =>
      some { ice with
        compKa := (ice.compKa + 1) % ice.comps.length
        timer := if ice.timer = .none then .keepAlive else ice.timer }
  else some { ice with timer := if ice.timer = .none then .keepAlive else ice.timer }

/-- `on_timer`. -/
def onTimer (ice : IceSess) : Option IceSess :=
  let type := ice.timer
  let ice := { ice with timer := .none }
  match type with
  | .controlledWaitNom => some (onIceComplete cfg ice pjnathEicenomtimeout)
  | .completionCallback =>
    (if ice.iceStatus = pjSuccess then iceKeepAlive ice false else some ice).map fun ice =>
      ice.emit (.complete ice.iceStatus)
  | .startNominatedCheck => startNominatedCheck ice
  | .keepAlive => iceKeepAlive ice true
  | .none => some ice

/-! ## The end of a request -/

/-- The role that a 487 response to a request leaves. -/
def conflictRole (controlling : Bool) : Role := if controlling then .controlled else .controlling

/-- The source address of a response, seen through NAT64. -/
def responseSource (dst src : Sockaddr) : Sockaddr :=
  if !isInet6 dst ∧ isInet6 src ∧ cfg.synthesize dst = some src then dst else src

/-- The local candidate that a mapped address stands for. -/
def findMapped (lcands : List Cand) (mapped baseAddr : Sockaddr) : Option Nat :=
  lcands.findIdx? fun lcand => mapped = lcand.addr && baseAddr = lcand.baseAddr

/-- A check fails. -/
def failCheck (ice : IceSess) (ckid : Nat) (status : Int) : Option IceSess :=
  (onCheckComplete cfg (ice.checkSetState ckid .failed status) ckid).map Prod.fst

/-- The pair of a check that succeeded, in the valid list. -/
def validPair (ice : IceSess) (check : Check) (lcand : Nat) : Check where
  lcand := lcand
  rcand := check.rcand
  prio := calcCheckPrio ice.role (ice.lcands.getD lcand Cand.zero) (ice.rcand check)
  state := .succeeded
  nominated := check.nominated
  errCode := pjSuccess
  tdata := none

/-- The slot of a pair of the valid list. -/
def findValid (valid : List Check) (lcand rcand : Nat) : Option Nat :=
  valid.findIdx? fun check => check.lcand = lcand && check.rcand = rcand

/-- The valid list with a pair, and the slot of the pair. A list that is full grows. -/
def addValid (ice : IceSess) (check : Check) (lcand : Nat) : List Check × Nat :=
  match findValid ice.valid lcand check.rcand with
  | none => (ice.valid ++ [validPair ice check lcand], ice.valid.length)
  | some slot => (ice.valid.modify slot fun vc => { vc with nominated := check.nominated }, slot)

/-- `sort_checklist` of the valid list, with the checks of the components. -/
def sortValid (ice : IceSess) : IceSess :=
  let sorted := sortChecklist ice.valid
  { ice with
    valid := sorted.1
    comps := ice.comps.map fun comp =>
      ⟨comp.validCheck.map sorted.2, comp.nominatedCheck.map sorted.2⟩ }

/-- A check succeeds with a local candidate. -/
def succeedCheck (ice : IceSess) (ckid lcand : Nat) : Option IceSess :=
  let check := checkAt ice.checks ckid
  let (valid, slot) := addValid ice check lcand
  (updateCompCheck { ice with valid := valid } (ice.lcand (checkAt valid slot)).compId slot).bind
    fun ice =>
      (onCheckComplete cfg ((sortValid ice).checkSetState ckid .succeeded pjSuccess) ckid).map Prod.fst

/-- A response comes from where the request went, with a mapped address. -/
def onMapped (ice : IceSess) (request : CheckRequest) (mapped : Sockaddr) : Option IceSess :=
  let lcand := ice.lcand (checkAt ice.checks request.ckid)
  match findMapped ice.lcands mapped lcand.baseAddr with
  | some found => succeedCheck cfg ice request.ckid found
  | none =>
    let (added, status) := pjIceSessAddCand cfg ice lcand.compId request.transportId .prflx 65535
      (pjIceCalcFoundation .prflx lcand.baseAddr) mapped lcand.baseAddr
    if status ≠ pjSuccess then failCheck cfg ice request.ckid status
    else succeedCheck cfg added request.ckid ice.lcands.length

/-- A request ends. -/
def endRequest (ice : IceSess) (request : CheckRequest) : IceSess :=
  { ice with tsx := ice.tsx.filter fun tsx => tsx.id ≠ request.id }.updateCheck request.ckid fun check =>
    { check with tdata := none }

/-- A check that met a role conflict is performed again, in the new role. -/
def retryCheck (ice : IceSess) (request : CheckRequest) : Option IceSess :=
  let ckid := request.ckid
  let ice := { ice with role := conflictRole request.controlling }.checkSetState ckid .waiting pjSuccess
  (performCheck cfg ice ckid ((checkAt ice.checks ckid).nominated || ice.isNominating)).map Prod.fst

/-- `on_stun_request_complete`, of a request that has not ended. -/
def onStunRequestComplete (ice : IceSess) (request : CheckRequest) (status : Int)
    (mapped : Option Sockaddr) (srcAddr : Sockaddr) : Option IceSess :=
  let ice := endRequest ice request
  if status = pjStatusFromStunCode stunScRoleConflict then retryCheck cfg ice request
  else if status ≠ pjSuccess then failCheck cfg ice request.ckid status
  else
    let dst := (ice.rcand (checkAt ice.checks request.ckid)).addr
    if dst ≠ responseSource cfg dst srcAddr then failCheck cfg ice request.ckid pjnathEiceinsrcaddr
    else
      match mapped with
      | none => failCheck cfg ice request.ckid pjnathEstunnomappedaddr
      | some mapped => onMapped cfg ice request mapped

/-! ## Requests that are received -/

/-- A request of the other agent, and what `pj_stun_session_create_res` returns for it. -/
structure RxRequest where
  compId : Nat
  transportId : Nat
  srcAddr : Sockaddr
  isBinding : Bool
  priority : Option UInt32
  useCandidate : Bool
  controlling : Option UInt64
  controlled : Option UInt64
  createRes : Int
deriving DecidableEq, Repr

/-- The attribute for the role: which it is, and the tie-breaker. -/
def RxRequest.roleAttr (rx : RxRequest) : Option (Role × UInt64) :=
  match rx.controlling with
  | some value => some (.controlling, value)
  | none => rx.controlled.map fun value => (.controlled, value)

/-- A role conflict is detected and repaired: the role to go on with, or none where the answer is
487. -/
def repairRole (role : Role) : Option (Role × UInt64) → Option Role
  | some (.controlling, value) =>
    if role = .controlling then if cfg.tieBreaker < value then some .controlled else none
    else some role
  | some (.controlled, value) =>
    if role = .controlled then if cfg.tieBreaker < value then none else some .controlling
    else some role
  | _ => some role

/-- The source address of a request, seen through NAT64. -/
def requestSource (ice : IceSess) (rx : RxRequest) : Sockaddr :=
  if isInet6 rx.srcAddr then
    match findLcand ice rx.compId rx.transportId with
    | none => rx.srcAddr
    | some lcand =>
      if isInet6 (ice.lcands.getD lcand Cand.zero).addr then rx.srcAddr else
      match ice.rcands.find? fun rcand =>
          !isInet6 rcand.addr && cfg.synthesize rcand.addr = some rx.srcAddr with
      | none => rx.srcAddr
      | some rcand => rcand.addr
  else rx.srcAddr

/-- What is kept of a request. -/
def rxCheck (ice : IceSess) (rx : RxRequest) (priority : UInt32) : RxCheck where
  compId := rx.compId
  transportId := rx.transportId
  srcAddr := requestSource cfg ice rx
  useCandidate := rx.useCandidate
  priority := priority

/-- `on_stun_rx_request`. -/
def onStunRxRequest (ice : IceSess) (rx : RxRequest) : Option IceSess :=
  if !rx.isBinding then some (ice.emit (.response stunScBadRequest)) else
  match rx.priority with
  | none => some ice
  | some priority =>
    match repairRole cfg ice.role rx.roleAttr with
    | none => some (ice.emit (.response stunScRoleConflict))
    | some role =>
      let ice := { ice with role := role }
      if rx.createRes ≠ pjSuccess then some ice else
      let rcheck := rxCheck cfg ice rx priority
      let ice := ice.emit (.response 0)
      if ice.rcands = [] then some { ice with earlyCheck := ice.earlyCheck ++ [rcheck] }
      else handleIncomingCheck cfg ice rcheck

/-! ## Runs -/

/-- What happens to a session. -/
inductive Event
  | addCand (compId transportId : Nat) (type : CandType) (localPref : UInt16) (foundation : Str)
      (addr baseAddr : Sockaddr)
  | changeRole (role : Role)
  | createCheckList (remCand : List Cand)
  | startCheck
  | periodicTimer
  | sessionTimer
  | requestComplete (id : Nat) (status : Int) (mapped : Option Sockaddr) (srcAddr : Sockaddr)
  | rxRequest (rx : RxRequest)

/-- One event. A timer that is not scheduled and a request that has ended are not spoken of, and a
checklist is created once. -/
def step (ice : IceSess) : Event → Option IceSess
  | .addCand compId transportId type localPref foundation addr baseAddr =>
    some (pjIceSessAddCand cfg ice compId transportId type localPref foundation addr baseAddr).1
  | .changeRole role => some { ice with role := role }
  | .createCheckList remCand =>
    if ice.checks = [] then (pjIceSessCreateCheckList ice remCand).toOption else none
  | .startCheck => (pjIceSessStartCheck cfg ice).map Prod.fst
  | .periodicTimer => if ice.clistTimer then startPeriodicCheck cfg ice else some ice
  | .sessionTimer => onTimer cfg ice
  | .requestComplete id status mapped srcAddr =>
    match ice.tsx.find? fun request => request.id = id with
    | none => some ice
    | some request => onStunRequestComplete cfg ice request status mapped srcAddr
  | .rxRequest rx => onStunRxRequest cfg ice rx

/-- A session goes on, as long as its calls have an outcome. -/
def next (ice : Option IceSess) (event : Event) : Option IceSess :=
  ice.bind fun ice => step cfg ice event

/-! A configuration, addresses and candidates, for runs that are carried out. -/

/-- `cand_type_prefs`. -/
def candTypePrefs : CandType → UInt8
  | .host => 126
  | .srflx => 100
  | .prflx => 110
  | .relayed => 0

/-- Every request is sent. -/
def calmConfig : Config where
  tieBreaker := 1
  prefs := candTypePrefs
  aggressive := false
  controlledAgentWantNomTimeout := 10000
  hasOnIceComplete := true
  tx := fun _ => ⟨pjSuccess, pjSuccess⟩
  synthesize := fun _ => none

/-- An address of a host. -/
def iceAddr (host port : UInt8) : Sockaddr := .inet #v[0, port] #v[192, 0, 2, host]

/-- A host candidate of the other agent. -/
def remoteHost (compId : Nat) (prio : UInt32) (port : UInt8) : Cand :=
  ⟨.host, compId, 0, [], prio, iceAddr 2 port, iceAddr 2 port⟩

/-- A host candidate is added, with a transport of its own. -/
def addHost (compId : Nat) (port : UInt8) : Event :=
  .addCand compId compId .host 65535 [72] (iceAddr 1 port) (iceAddr 1 port)

/-- A Binding request of the other agent, for a component. -/
def rxBinding (compId : Nat) (port : UInt8) (useCandidate : Bool) (role : Role) : Event :=
  .rxRequest {
    compId := compId
    transportId := compId
    srcAddr := iceAddr 2 port
    isBinding := true
    priority := some 1
    useCandidate := useCandidate
    controlling := if role = .controlling then some 2 else none
    controlled := if role = .controlling then none else some 2
    createRes := pjSuccess }

end Pjnath.Ice
