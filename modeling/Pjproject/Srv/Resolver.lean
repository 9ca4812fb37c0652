import Pjproject.Dns.Parse
import Pjproject.Lib.SelectionSort
import Pjproject.Stun.Errno

/-!
# Resolving services

`srv_resolver.c`: the answer with the SRV records of a service gives targets, whose addresses are taken
from the additional records or asked for in queries of their own. When all are there, the callback of
the application is called. A query of an address may be answered while it is started, from the cache.
-/

namespace Pj.Srv
open Dns Pjnath.Stun

/-! ## Statuses and sizes -/

/-- `PJ_ENAMETOOLONG`. -/
def pjEnametoolong : Int := 70005

/-- `PJLIB_UTIL_EDNSNOANSWERREC`. -/
def pjlibUtilEdnsnoanswerrec : Int := 320047

/-- `PJLIB_UTIL_EDNSINANSWER`. -/
def pjlibUtilEdnsinanswer : Int := 320048

/-- `PJ_STATUS_FROM_DNS_RCODE`. -/
def pjStatusFromDnsRcode (rcode : Nat) : Int := if rcode = 0 then pjSuccess else 320050 + rcode

/-- `PJ_DNS_MAX_IP_IN_A_REC`, which is `ADDR_MAX_COUNT`. -/
def addrMaxCount : Nat := 8

/-- `PJ_DNS_SRV_MAX_ADDR`. -/
def pjDnsSrvMaxAddr : Nat := 8

/-- `PJ_MAX_HOSTNAME`. -/
def pjMaxHostname : Nat := 128

/-- A status that is an error. -/
structure Failure where
  status : Int
  failure : status ≠ pjSuccess

/-! ## Answers with addresses -/

/-- An address with its family. -/
inductive Address
  | v4 (addr : Str)
  | v6 (addr : Str)
deriving DecidableEq, Repr

/-- `pj_dns_addr_record`. -/
structure AddrRecord where
  name : Str
  hostAlias : Str
  addr : List Address
deriving DecidableEq, Repr

/-- The address of a record. -/
def Rdata.ipAddr : Rdata → Str
  | .addr ipAddr => ipAddr
  | _ => []

/-- The name of a record. -/
def Rdata.cname : Rdata → Str
  | .name name => name
  | _ => []

/-- The address of a record of type A or AAAA. -/
def addressOf (rr : ParsedRr) : Address :=
  if rr.type = typeA then .v4 (Rdata.ipAddr rr.rdata) else .v6 (Rdata.ipAddr rr.rdata)

/-- The record is one of type A or AAAA. -/
def isAddress (rr : ParsedRr) : Bool := rr.type = typeA || rr.type = typeAaaa

/-- Following the CNAME records from a record on, as often as is left: the record behind them, its name
and the first alias. -/
def followCname (ans : List ParsedRr) : Nat → ParsedRr → Str → Str → Except Int (ParsedRr × Str × Str)
  | 0, _, _, _ => .error pjlibUtilEdnsinanswer
  | left + 1, rr, resname, hostAlias =>
    if rr.type ≠ typeCname then .ok (rr, resname, hostAlias) else
    let resname := Rdata.cname rr.rdata
    match ans.find? fun rr => pjStricmpEq resname rr.name with
    | none => .error pjlibUtilEdnsnoanswerrec
    | some rr => followCname ans left rr resname (if hostAlias = [] then resname else hostAlias)

/-- `MAX_SEARCH`. -/
def maxSearch : Nat := 20

/-- `pj_dns_parse_addr_response`. -/
def pjDnsParseAddrResponse (pkt : ParsedPacket) : Except Int AddrRecord := do
  let rcode := pkt.hdr.flags.toNat % 16
  if rcode ≠ 0 then throw (pjStatusFromDnsRcode rcode)
  match pkt.q with
  | [] => throw pjlibUtilEdnsinanswer
  | query :: _ =>
    if pkt.ans = [] then throw pjlibUtilEdnsnoanswerrec
    let hostname := query.name
    if hostname.length > pjMaxHostname then throw pjEnametoolong
    match pkt.ans.find? fun rr => pjStricmpEq rr.name hostname with
    | none => throw pjlibUtilEdnsnoanswerrec
    | some rr =>
      let (rr, resname, hostAlias) ← followCname pkt.ans maxSearch rr hostname []
      if ¬isAddress rr then throw pjlibUtilEdnsinanswer
      if hostAlias.length > pjMaxHostname - hostname.length then throw pjEnametoolong
      let addr := ((pkt.ans.filter fun rr => isAddress rr && pjStricmpEq rr.name resname).map
        addressOf).take addrMaxCount
      if addr = [] then throw pjlibUtilEdnsnoanswerrec
      return { name := hostname, hostAlias := hostAlias, addr := addr }

/-! ## The query -/

/-- A pointer to a query: none, the dummy `0x1`, or a query that is pending. -/
inductive QueryPtr
  | null | dummy | pending
deriving DecidableEq, Repr

/-- `srv_target`. The number of addresses is the length of the list. -/
structure SrvTarget where
  targetName : Str
  qA : QueryPtr
  qAaaa : QueryPtr
  cname : Str
  port : Nat
  priority : Nat
  weight : Nat
  sum : Nat
  addr : List Address
deriving DecidableEq, Repr

/-- A target that is zeroed. -/
def SrvTarget.zero : SrvTarget := ⟨[], .null, .null, [], 0, 0, 0, 0, []⟩

/-- `pj_dns_srv_option`. -/
structure SrvOption where
  fallbackA : Bool
  fallbackAaaa : Bool
  resolveAaaa : Bool
  resolveAaaaOnly : Bool
deriving DecidableEq, Repr

/-- An entry of `pj_dns_srv_record`. -/
structure SrvEntry where
  priority : Nat
  weight : Nat
  port : Nat
  server : AddrRecord
deriving DecidableEq, Repr

/-- `pj_dns_srv_async_query`, with the calls of the callback so far, which nothing reads. -/
structure AsyncQuery where
  option : SrvOption
  domainPart : Str
  defPort : Nat
  lastError : Int
  srv : List SrvTarget
  hostResolved : Nat
  called : List (Int × Option (List SrvEntry))
deriving DecidableEq, Repr

/-- `pj_dns_srv_resolve`, until the query of the SRV records is started. -/
def pjDnsSrvResolve (option : SrvOption) (domainPart : Str) (defPort : Nat) : AsyncQuery where
  option := { option with resolveAaaa := option.resolveAaaa || option.resolveAaaaOnly }
  domainPart := domainPart
  defPort := defPort % 65536
  lastError := pjSuccess
  srv := []
  hostResolved := 0
  called := []

/-- What `pj_dns_srv_cancel_query` without a notification leaves of a target. -/
def SrvTarget.cancel (srv : SrvTarget) : SrvTarget := { srv with qA := .null, qAaaa := .null }

/-- `on_error` of `dns_callback`. -/
def AsyncQuery.onError (query : AsyncQuery) (status : Int) : AsyncQuery :=
  { query with srv := query.srv.map SrvTarget.cancel, called := query.called ++ [(status, none)] }

/-! ## Server entries -/

/-- The target of an SRV record, in the first loop of `build_server_entries`. -/
def targetOf (rr : ParsedRr) : Option SrvTarget :=
  if rr.type ≠ typeSrv then none else
  match rr.rdata with
  | .srv prio weight port target =>
    if target.length > pjMaxHostname then none
    else some { SrvTarget.zero with
      targetName := target, port := port.toNat, priority := prio.toNat, weight := weight.toNat }
  | _ => none

/-- The first pass: the targets in the order of their priorities, by selection. -/
def sortByPriority (srv : List SrvTarget) : List SrvTarget :=
  (SelectionSort.sort (fun target => 65535 - target.priority) .zero srv).1

/-- The sums of the weights of some targets, after a sum. -/
def runningSums : Nat → List SrvTarget → List SrvTarget
  | _, [] => []
  | sum, target :: rest =>
    { target with sum := sum + target.weight } :: runningSums (sum + target.weight) rest

/-- A round of the second pass: among the targets of one priority, one is elected by weight and put in
front of the others. -/
def elect (rand : Nat) (i : Nat) (srv : List SrvTarget) : List SrvTarget :=
  let priority := (srv.getD i .zero).priority
  let group := (srv.drop i).takeWhile fun target => target.priority = priority
  let summed := srv.take i ++ runningSums 0 group ++ srv.drop (i + group.length)
  if group.length > 1 then
    let sum := (group.map SrvTarget.weight).sum
    let r := rand % (sum + 1)
    let j := i + (runningSums 0 group).findIdx fun target => r ≤ target.sum
    SelectionSort.swap .zero summed i j
  else summed

/-- The second pass, with the random number of each round. -/
def electAll (rand : Nat → Nat) (srv : List SrvTarget) : List SrvTarget :=
  (List.range srv.length).foldl (fun srv i => elect (rand i) i srv) srv

/-- An address is added to a target. -/
def SrvTarget.add (target : SrvTarget) (address : Address) : SrvTarget :=
  { target with addr := target.addr ++ [address] }

/-- The application wants addresses of the type of a record. -/
def SrvOption.wants (option : SrvOption) (rr : ParsedRr) : Bool :=
  isAddress rr && !(rr.type = typeA && option.resolveAaaaOnly) &&
    !(rr.type = typeAaaa && !option.resolveAaaa)

/-- An additional record, whose address is added to the first target with its name and with room. -/
def addRecord (query : AsyncQuery) (rr : ParsedRr) : AsyncQuery :=
  if ¬query.option.wants rr then query else
  match query.srv.findIdx? fun target =>
      pjStricmpEq rr.name target.targetName && target.addr.length < addrMaxCount with
  | none => query
  | some j =>
    let target := query.srv.getD j .zero
    { query with
      srv := query.srv.set j (target.add (addressOf rr))
      hostResolved := if target.addr = [] then query.hostResolved + 1 else query.hostResolved }

/-- The address that a name is in print, if it is one: `pj_inet_pton` of both families. -/
structure InetPton where
  v4 : Str → Option Str
  v6 : Str → Option Str

/-- The address that the name of a target is. -/
def literalOf (inet : InetPton) (option : SrvOption) (target : SrvTarget) : Option Address :=
  if target.addr ≠ [] then none else
  match if option.resolveAaaaOnly then none else inet.v4 target.targetName with
  | some addr => some (.v4 addr)
  | none => if option.resolveAaaa then (inet.v6 target.targetName).map .v6 else none

/-- The last loop of `build_server_entries`, for a target. -/
def addLiteral (inet : InetPton) (query : AsyncQuery) (i : Nat) : AsyncQuery :=
  let target := query.srv.getD i .zero
  match literalOf inet query.option target with
  | none => query
  | some address =>
    { query with
      srv := query.srv.set i (target.add address)
      hostResolved := query.hostResolved + 1 }

/-- `build_server_entries`. -/
def buildServerEntries (inet : InetPton) (rand : Nat → Nat) (query : AsyncQuery)
    (response : ParsedPacket) : AsyncQuery :=
  let srv := (response.ans.filterMap targetOf).take pjDnsSrvMaxAddr
  if srv = [] then { query with srv := [] } else
  let query := { query with srv := electAll rand (sortByPriority srv) }
  let query := response.arr.foldl addRecord query
  (List.range query.srv.length).foldl (addLiteral inet) query

/-! ## The end -/

/-- The entry of a target. -/
def entryOf (target : SrvTarget) : SrvEntry where
  priority := target.priority
  weight := target.weight
  port := target.port
  server := { name := target.targetName, hostAlias := target.cname, addr := target.addr }

/-- The end of `dns_callback`: if all hosts have been resolved, the callback is called with those that
have addresses. -/
def AsyncQuery.finish (query : AsyncQuery) : AsyncQuery :=
  if query.hostResolved ≠ query.srv.length then query else
  let entries := (query.srv.filter fun target => target.addr ≠ []).map entryOf
  let status := if entries ≠ [] then pjSuccess
    else if query.lastError = pjSuccess then pjlibUtilEdnsnoanswerrec else query.lastError
  { query with called := query.called ++ [(status, some entries)] }

/-! ## Answers of addresses -/

/-- The answer to a query, as its callback gets it: an error, or a response. -/
abbrev Answer := Except Failure ParsedPacket

/-- The status and the record of an answer with addresses, and whether it has answers. -/
def readAnswer : Answer → Int × Option AddrRecord
  | .error failed => (failed.status, none)
  | .ok pkt =>
    if pkt.ans = [] then (pjSuccess, none) else
    match pjDnsParseAddrResponse pkt with
    | .error status => (status, none)
    | .ok rec => (pjSuccess, some rec)

/-- The address is of the family of the query. -/
def Address.matches (isTypeA : Bool) : Address → Bool
  | .v4 _ => isTypeA
  | .v6 _ => !isTypeA

/-- The addresses of a record are added to a target. -/
def SrvTarget.fill (target : SrvTarget) (isTypeA : Bool) (rec : AddrRecord) : SrvTarget :=
  { target with
    cname := if target.cname = [] ∧ rec.hostAlias ≠ [] then rec.hostAlias else target.cname
    addr := target.addr ++
      ((rec.addr.filter fun address => address.matches isTypeA).take (addrMaxCount - target.addr.length)) }

/-- `dns_callback` in the state of resolving addresses, for a target and a type. -/
def addressCallback (query : AsyncQuery) (i : Nat) (isTypeA : Bool) (answer : Answer) : AsyncQuery :=
  let target := query.srv.getD i .zero
  let srvCompleted := if isTypeA then target.qAaaa = .null else target.qA = .null
  let target := if isTypeA then { target with qA := .null } else { target with qAaaa := .null }
  let (status, rec) := readAnswer answer
  let target := (rec.map (target.fill isTypeA)).getD target
  { query with
    srv := query.srv.set i target
    lastError := if status ≠ pjSuccess then status else query.lastError
    hostResolved := if srvCompleted then query.hostResolved + 1 else query.hostResolved }.finish

/-! ## Starting the queries -/

/-- What `pj_dns_resolver_start_query` does for an address: the callback is called with an answer of the
cache, a query is pending, or it fails, after it has cleared the pointer or not. -/
inductive Start
  | cached (answer : Answer)
  | pending
  | failed (failure : Failure) (cleared : Bool)

/-- Where the resolution is: the answer with SRV records is awaited, a query for an address of a target
is started next, or the loop of `resolve_hostnames` is over. The loop has its `err_cnt` and `err`. -/
inductive Phase
  | srv
  | startA (i errCnt : Nat) (err : Int)
  | startAaaa (i errCnt : Nat) (err : Int)
  | returned
deriving DecidableEq, Repr

/-- A query and its phase. -/
structure State where
  query : AsyncQuery
  phase : Phase
deriving DecidableEq, Repr

/-- The loop of `resolve_hostnames` with some targets left, up to the next start of a query. -/
def resolveHostnames (query : AsyncQuery) (errCnt : Nat) (err : Int) : Nat → State
  | 0 =>
    if errCnt = query.srv.length then ⟨if err ≠ pjSuccess then query.onError err else query, .returned⟩
    else ⟨query, .returned⟩
  | count + 1 =>
    let i := query.srv.length - (count + 1)
    let target := query.srv.getD i .zero
    if target.addr ≠ [] then resolveHostnames query errCnt err count else
    let begun := fun qAaaa => { query with srv := query.srv.set i { target with qA := .null, qAaaa := qAaaa } }
    if ¬query.option.resolveAaaaOnly then
      ⟨begun (if query.option.resolveAaaa then .dummy else .null), .startA i errCnt err⟩
    else if query.option.resolveAaaa then ⟨begun .null, .startAaaa i errCnt err⟩
    else resolveHostnames query errCnt err count

/-- The loop goes on behind a target. -/
def afterHost (query : AsyncQuery) (i errCnt : Nat) (err : Int) : State :=
  resolveHostnames query errCnt err (query.srv.length - (i + 1))

/-- The loop goes on behind a target whose query could not be started. -/
def afterFailure (query : AsyncQuery) (i errCnt : Nat) (failure : Failure) : State :=
  afterHost { query with hostResolved := query.hostResolved + 1 } i (errCnt + 1) failure.status

/-- A pointer of a target is set. -/
def AsyncQuery.setA (query : AsyncQuery) (i : Nat) (qA : QueryPtr) : AsyncQuery :=
  { query with srv := query.srv.set i { query.srv.getD i .zero with qA := qA } }

def AsyncQuery.setAaaa (query : AsyncQuery) (i : Nat) (qAaaa : QueryPtr) : AsyncQuery :=
  { query with srv := query.srv.set i { query.srv.getD i .zero with qAaaa := qAaaa } }

/-- The query of type A is started. -/
def startA (query : AsyncQuery) (i errCnt : Nat) (err : Int) (start : Start) : State :=
  let started := fun query : AsyncQuery =>
    if query.option.resolveAaaa then ⟨query, .startAaaa i errCnt err⟩ else afterHost query i errCnt err
  match start with
  | .cached answer => started (addressCallback query i true answer)
  | .pending => started (query.setA i .pending)
  | .failed failure _ => afterFailure query i errCnt failure

/-- The query of type AAAA is started. -/
def startAaaa (query : AsyncQuery) (i errCnt : Nat) (err : Int) : Start → State
  | .cached answer => afterHost (addressCallback query i false answer) i errCnt err
  | .pending => afterHost (query.setAaaa i .pending) i errCnt err
  | .failed failure cleared =>
    afterFailure (if cleared then query.setAaaa i .null else query) i errCnt failure

/-! ## The answer with SRV records -/

/-- The target that is used without SRV records. -/
def AsyncQuery.fallback (query : AsyncQuery) : AsyncQuery :=
  { query with
    srv := [{ SrvTarget.zero with targetName := query.domainPart, port := query.defPort }]
    option := {
      fallbackA := false
      fallbackAaaa := false
      resolveAaaa := query.option.fallbackAaaa
      resolveAaaaOnly := query.option.fallbackAaaa && !query.option.fallbackA } }

/-- `dns_callback` in the state of resolving SRV records, behind the reading of the answer. -/
def resolveTargets (query : AsyncQuery) : State :=
  let query := if query.srv = [] then query.fallback else query
  if query.hostResolved ≠ query.srv.length then resolveHostnames query 0 pjSuccess query.srv.length
  else ⟨query.finish, .returned⟩

/-- `dns_callback` in the state of resolving SRV records. -/
def srvCallback (inet : InetPton) (rand : Nat → Nat) (query : AsyncQuery) : Answer → State
  | .ok response =>
    resolveTargets (if response.ans = [] then query else buildServerEntries inet rand query response)
  | .error failed =>
    let query := { query with lastError := failed.status }
    if ¬query.option.fallbackA ∧ ¬query.option.fallbackAaaa then ⟨query.onError failed.status, .returned⟩
    else resolveTargets query

/-! ## Runs -/

/-- What happens to a resolution: the answer with SRV records, a start of the query that is next, or the
answer to a query that is pending. -/
inductive Event
  | srv (inet : InetPton) (rand : Nat → Nat) (answer : Answer)
  | start (start : Start)
  | answer (i : Nat) (isTypeA : Bool) (answer : Answer)

/-- The query of a target and a type is pending. -/
def AsyncQuery.isPending (query : AsyncQuery) (i : Nat) (isTypeA : Bool) : Bool :=
  let target := query.srv.getD i .zero
  (if isTypeA then target.qA else target.qAaaa) = .pending

/-- One step. What cannot happen in a state leaves it as it is. -/
def step (state : State) (event : Event) : State :=
  match state.phase, event with
  | .srv, .srv inet rand answer => srvCallback inet rand state.query answer
  | .startA i errCnt err, .start start => startA state.query i errCnt err start
  | .startAaaa i errCnt err, .start start => startAaaa state.query i errCnt err start
  | _, .answer i isTypeA answer =>
    if state.query.isPending i isTypeA then
      { state with query := addressCallback state.query i isTypeA answer }
    else state
  | _, _ => state

end Pj.Srv
