import Pjproject.Ice.Sending

/-!
# Role conflicts between two ICE sessions

Two sessions with tie-breakers that differ exchange Binding requests and the success and 487
responses to them. A request that was sent and a response that was given can be delivered at any
time, any number of times and never. The larger tie-breaker gets the controlling role when both
start in one role, and sessions that start in two roles keep them.
-/

namespace Pjnath.Ice
open Function List Pj Stun

/-! ## Two agents -/

/-- The two agents. -/
inductive Side
  | left | right
deriving DecidableEq, Repr

namespace Side

/-- The other agent. -/
def other : Side → Side
  | .left => .right
  | .right => .left

@[simp] theorem other_other (side : Side) : side.other.other = side := by cases side <;> rfl

theorem other_ne (side : Side) : side.other ≠ side := by cases side <;> decide

end Side

/-- The response that was given to a request of an agent. -/
structure Answer where
  side : Side
  request : CheckRequest
  code : Int
deriving DecidableEq, Repr

/-- Two sessions and the responses between them; the requests are in what the sessions have shown.
What follows is history: the requests that told the role of the other agent when they were sent,
the requests for which a response was delivered, and how often each agent changed its role. -/
structure Network where
  agent : Side → IceSess
  answers : List Answer
  conflicted : List (Side × CheckRequest)
  settled : List (Side × CheckRequest)
  turns : Side → Nat

/-- The requests among what a session shows. -/
def requestsOf (outputs : List Output) : List CheckRequest :=
  outputs.filterMap fun output =>
    match output with
    | .request request => some request
    | _ => none

/-- The responses among what a session shows. -/
def codesOf (outputs : List Output) : List Int :=
  outputs.filterMap fun output =>
    match output with
    | .response code => some code
    | _ => none

/-- A request tells a role. -/
def CheckRequest.tells (request : CheckRequest) (role : Role) : Bool :=
  request.controlling = decide (role = .controlling)

namespace Network

/-- The roles differ. -/
def Opposite (net : Network) : Prop := (net.agent .left).role ≠ (net.agent .right).role

/-- What an agent shows in a step. -/
def shown (net : Network) (side : Side) (ice : IceSess) : List Output :=
  ice.log.drop (net.agent side).log.length

/-- An agent goes on. -/
def advance (net : Network) (side : Side) (ice : IceSess) : Network :=
  { net with
    agent := update net.agent side ice
    conflicted := net.conflicted ++
      ((requestsOf (net.shown side ice)).filter fun request =>
        request.tells (net.agent side.other).role).map fun request => (side, request)
    turns :=
      if ice.role = (net.agent side).role then net.turns
      else update net.turns side (net.turns side + 1) }

end Network

/-- What happens in a network: an event of one agent alone, a request of the other agent that an
agent receives, and a response to a request of its own. -/
inductive NetworkEvent
  | own (side : Side) (event : Event)
  | request (side : Side) (request : CheckRequest) (compId transportId : Nat) (srcAddr : Sockaddr)
      (createRes : Int)
  | response (answer : Answer) (mapped : Option Sockaddr) (srcAddr : Sockaddr)

/-- A request, as the other agent receives it. -/
def CheckRequest.received (request : CheckRequest) (compId transportId : Nat) (srcAddr : Sockaddr)
    (createRes : Int) : RxRequest where
  compId := compId
  transportId := transportId
  srcAddr := srcAddr
  isBinding := true
  priority := some request.priority
  useCandidate := request.useCandidate
  controlling := if request.controlling then some request.tieBreaker else none
  controlled := if request.controlling then none else some request.tieBreaker
  createRes := createRes

/-- The status of a request that is completed by a response. -/
def responseStatus (code : Int) : Int := if code = 0 then pjSuccess else pjStatusFromStunCode code

/-- One event. What was not sent is not delivered, a response for a request that has ended is
dropped, and a call that has no outcome is left out. -/
def Network.step (cfg : Side → Config) (net : Network) : NetworkEvent → Network
  | .own side event =>
    if event.isOwn then
      ((Ice.step (cfg side) (net.agent side) event).map (net.advance side)).getD net
    else net
  | .request side request compId transportId srcAddr createRes =>
    if .request request ∈ (net.agent side.other).log then
      match onStunRxRequest (cfg side) (net.agent side)
          (request.received compId transportId srcAddr createRes) with
      | none => net
      | some ice =>
        { net.advance side ice with
          answers := net.answers ++
            (codesOf (net.shown side ice)).map fun code => ⟨side.other, request, code⟩ }
    else net
  | .response answer mapped srcAddr =>
    if answer ∈ net.answers ∧ answer.request ∈ (net.agent answer.side).tsx then
      match onStunRequestComplete (cfg answer.side) (net.agent answer.side) answer.request
          (responseStatus answer.code) mapped srcAddr with
      | none => net
      | some ice =>
        { net.advance answer.side ice with
          settled := net.settled ++ [(answer.side, answer.request)] }
    else net

/-- Two sessions that are created. -/
def Network.start (role : Side → Role) (compCnt : Side → Nat) : Network where
  agent := fun side => pjIceSessCreate (role side) (compCnt side)
  answers := []
  conflicted := []
  settled := []
  turns := fun _ => 0

/-! ## The roles to end with -/

variable {cfg : Side → Config} {role : Side → Role} {net : Network}

/-- The role that the tie-breakers give an agent. -/
def winner (cfg : Side → Config) (side : Side) : Role :=
  if (cfg side.other).tieBreaker < (cfg side).tieBreaker then .controlling else .controlled

/-- The role that an agent ends with. -/
def goal (cfg : Side → Config) (role : Side → Role) (side : Side) : Role :=
  if role .left = role .right then winner cfg side else role side

/-- The tie-breakers differ, and the agents start with roles. -/
structure Opposed (cfg : Side → Config) (role : Side → Role) : Prop where
  apart : (cfg .left).tieBreaker ≠ (cfg .right).tieBreaker
  known : ∀ side, role side ≠ .unknown

theorem winner_other (apart : (cfg .left).tieBreaker ≠ (cfg .right).tieBreaker) (side : Side) :
    winner cfg side.other = conflictRole (decide (winner cfg side = .controlling)) := by
  have strict : (cfg side).tieBreaker < (cfg side.other).tieBreaker ↔
      ¬(cfg side.other).tieBreaker < (cfg side).tieBreaker := by
    have differ : (cfg side).tieBreaker ≠ (cfg side.other).tieBreaker := by
      cases side
      · exact apart
      · exact apart.symm
    constructor
    · exact UInt64.lt_asymm
    · intro least
      exact UInt64.lt_of_le_of_ne (UInt64.not_lt.mp least) differ
  unfold winner
  rw [Side.other_other]
  by_cases larger : (cfg side.other).tieBreaker < (cfg side).tieBreaker
  · rw [if_pos larger, if_neg fun smaller => strict.mp smaller larger]
    rfl
  · rw [if_neg larger, if_pos (strict.mpr larger)]
    rfl

/-- The roles to end with differ, and are those of the start unless these are one. -/
theorem goal_cases (opposed : Opposed cfg role) :
    (goal cfg role .left = .controlling ∧ goal cfg role .right = .controlled ∨
      goal cfg role .left = .controlled ∧ goal cfg role .right = .controlling) ∧
    (role .left = role .right ∨
      goal cfg role .left = role .left ∧ goal cfg role .right = role .right) := by
  have left := opposed.known .left
  have right := opposed.known .right
  unfold goal
  by_cases same : role .left = role .right
  · refine ⟨?_, .inl same⟩
    rw [if_pos same, if_pos same]
    have other := winner_other opposed.apart .left
    change winner cfg .right = _ at other
    rw [other, winner]
    split
    · exact .inl ⟨rfl, rfl⟩
    · exact .inr ⟨rfl, rfl⟩
  · rw [if_neg same, if_neg same]
    refine ⟨?_, .inr ⟨rfl, rfl⟩⟩
    cases first : role .left <;> cases second : role .right <;> simp_all

section
variable {now : Side → Role} (opposed : Opposed cfg role)
  (roles : ∀ side, now side = role side ∨ now side = goal cfg role side)
include opposed roles

/-- Roles that are equal are those of the start. -/
theorem start_of_equal (equal : now .left = now .right) :
    role .left = role .right ∧ ∀ side, now side = role side := by
  have cases' := goal_cases opposed
  have left := roles .left
  have right := roles .right
  refine ⟨by grind, fun side => ?_⟩
  cases side <;> grind [opposed.known .left, opposed.known .right]

/-- Roles that differ are those to end with. -/
theorem goal_of_opposite (differ : now .left ≠ now .right) (side : Side) :
    now side = goal cfg role side := by
  have cases' := goal_cases opposed
  have left := roles .left
  have right := roles .right
  have known := opposed.known .left
  have known' := opposed.known .right
  cases side <;> cases first : role .left <;> cases second : role .right <;> grind

end

/-! ## What one delivery does -/

variable {srcAddr : Sockaddr} {transportId : Nat}

variable {side : Side} {request : CheckRequest}

theorem roleAttr_received {compId : Nat} {createRes : Int} :
    (request.received compId transportId srcAddr createRes).roleAttr =
      some (if request.controlling then .controlling else .controlled, request.tieBreaker) := by
  unfold CheckRequest.received RxRequest.roleAttr
  cases request.controlling <;> rfl

/-- A request that tells another role than that of the receiver changes nothing. -/
theorem repairRole_apart {now : Role} (known : now ≠ .unknown)
    (differ : request.tells now = false) :
    repairRole (cfg side) now
      (some (if request.controlling then .controlling else .controlled, request.tieBreaker)) =
        some now := by
  unfold CheckRequest.tells at differ
  cases now <;> cases told : request.controlling <;> simp_all [repairRole]

/-- A request that tells the role of the receiver is refused, or the receiver takes the role that
the tie-breakers give it. -/
theorem repairRole_conflict {now : Role} (known : now ≠ .unknown)
    (same : request.tells now = true) (apart : (cfg .left).tieBreaker ≠ (cfg .right).tieBreaker)
    (tie : request.tieBreaker = (cfg side.other).tieBreaker) :
    repairRole (cfg side) now
      (some (if request.controlling then .controlling else .controlled, request.tieBreaker)) =
        if winner cfg side = now then none else some (winner cfg side) := by
  have other := winner_other apart side
  unfold winner at other
  unfold CheckRequest.tells at same
  unfold winner
  cases now with
  | unknown => exact absurd rfl known
  | controlled =>
    have told : request.controlling = false := by simpa using same
    by_cases larger : (cfg side.other).tieBreaker < (cfg side).tieBreaker <;>
      by_cases smaller : (cfg side).tieBreaker < (cfg side.other).tieBreaker <;>
      simp_all [repairRole, conflictRole]
  | controlling =>
    have told : request.controlling = true := by simpa using same
    by_cases larger : (cfg side.other).tieBreaker < (cfg side).tieBreaker <;>
      by_cases smaller : (cfg side).tieBreaker < (cfg side.other).tieBreaker <;>
      simp_all [repairRole, conflictRole]

/-! ## The invariant -/

variable {outputs : List Output}

/-- The agents have the roles to end with. -/
def AtGoal (cfg : Side → Config) (role : Side → Role) (net : Network) : Prop :=
  ∀ side, (net.agent side).role = goal cfg role side

/-- A request that tells the role of the start is refused to the agent that leaves it, or it was
answered when the agents had the roles to end with. -/
def Answered (cfg : Side → Config) (role : Side → Role) (net : Network) (answer : Answer) : Prop :=
  (answer.code = stunScRoleConflict ∧ role answer.side ≠ goal cfg role answer.side ∧
    answer.request.tells (role answer.side)) ∨
  (answer.code = 0 ∧ (answer.request.tells (role answer.side) → AtGoal cfg role net))

/-- What holds of two sessions that were created with roles. -/
structure NetworkInv (cfg : Side → Config) (role : Side → Role) (net : Network) : Prop where
  roles : ∀ side, (net.agent side).role = role side ∨ (net.agent side).role = goal cfg role side
  turns : ∀ side, net.turns side = if (net.agent side).role = role side then 0 else 1
  asked : ∀ side request, .request request ∈ (net.agent side).log →
    request.tieBreaker = (cfg side).tieBreaker ∧
      (request.tells (role side) ∨ request.tells (goal cfg role side))
  answered : ∀ answer ∈ net.answers, Answered cfg role net answer
  conflicted : ∀ side request, (side, request) ∈ net.conflicted →
    role .left = role .right ∧ request.tells (role side)
  settled : ∀ side request, (side, request) ∈ net.settled →
    request.tells (role side) → AtGoal cfg role net

theorem networkInv_start {compCnt : Side → Nat} :
    NetworkInv cfg role (Network.start role compCnt) where
  roles _ := .inl rfl
  turns _ := (if_pos rfl).symm
  asked _ _ member := absurd member not_mem_nil
  answered _ member := absurd member not_mem_nil
  conflicted _ _ member := absurd member not_mem_nil
  settled _ _ member := absurd member not_mem_nil

theorem known_goal (opposed : Opposed cfg role) (side : Side) : goal cfg role side ≠ .unknown := by
  have cases' := goal_cases opposed
  cases side <;> grind

theorem NetworkInv.known (inv : NetworkInv cfg role net) (opposed : Opposed cfg role) (side : Side) :
    (net.agent side).role ≠ .unknown := by
  rcases inv.roles side with same | same
  · rw [same]
    exact opposed.known side
  · rw [same]
    exact known_goal opposed side

/-- The agents do not leave the roles to end with. -/
theorem NetworkInv.atGoal_iff (inv : NetworkInv cfg role net) (opposed : Opposed cfg role) :
    net.Opposite ↔ AtGoal cfg role net := by
  constructor
  · exact fun differ => goal_of_opposite opposed inv.roles differ
  · intro there
    have cases' := goal_cases opposed
    have left := there .left
    have right := there .right
    unfold Network.Opposite
    grind

theorem mem_requestsOf :
    request ∈ requestsOf outputs ↔ .request request ∈ outputs := by
  unfold requestsOf
  rw [mem_filterMap]
  constructor
  · rintro ⟨output, member, found⟩
    cases output <;> cases found
    exact member
  · exact fun member => ⟨_, member, rfl⟩

theorem mem_codesOf {code : Int} :
    code ∈ codesOf outputs ↔ .response code ∈ outputs := by
  unfold codesOf
  rw [mem_filterMap]
  constructor
  · rintro ⟨output, member, found⟩
    cases output <;> cases found
    exact member
  · exact fun member => ⟨_, member, rfl⟩

/-! ## One step -/

variable {role' : Role}

variable {ice : IceSess}

/-- An agent goes on in its role, or in that to end with. -/
def Turned (cfg : Side → Config) (role : Side → Role) (net : Network) (side : Side) (ice : IceSess) :
    Prop :=
  ice.role = (net.agent side).role ∨ ice.role = goal cfg role side

theorem advance_agent (of : Side) :
    (net.advance side ice).agent of = if of = side then ice else net.agent of := by
  change update net.agent side ice of = _
  by_cases same : of = side
  · rw [same, update_self, if_pos rfl]
  · rw [update_of_ne same, if_neg same]

theorem atGoal_advance (turned : Turned cfg role net side ice) (there : AtGoal cfg role net) :
    AtGoal cfg role (net.advance side ice) := by
  intro of
  rw [advance_agent]
  by_cases same : of = side
  · rw [if_pos same, same]
    rcases turned with kept | turned
    · exact kept.trans (there side)
    · exact turned
  · rw [if_neg same]
    exact there of

section
variable (inv : NetworkInv cfg role net) (turned : Turned cfg role net side ice) (of : Side)
include inv turned of

theorem roles_advance :
    ((net.advance side ice).agent of).role = role of ∨
      ((net.advance side ice).agent of).role = goal cfg role of := by
  rw [advance_agent]
  by_cases same : of = side
  · rw [if_pos same, same]
    rcases turned with kept | turned
    · rw [kept]
      exact inv.roles side
    · exact .inr turned
  · rw [if_neg same]
    exact inv.roles of

theorem turns_advance :
    (net.advance side ice).turns of =
      if ((net.advance side ice).agent of).role = role of then 0 else 1 := by
  have before := inv.turns of
  have roles := inv.roles side
  rw [advance_agent]
  change (if ice.role = (net.agent side).role then net.turns
    else update net.turns side (net.turns side + 1)) of = _
  by_cases same : of = side
  · rw [if_pos same]
    rw [same] at before ⊢
    by_cases kept : ice.role = (net.agent side).role
    · rw [if_pos kept, kept]
      exact before
    · have there : ice.role = goal cfg role side := turned.resolve_left kept
      have old : (net.agent side).role = role side :=
        roles.resolve_right fun same => kept (there.trans same.symm)
      have left : ice.role ≠ role side := fun same => kept (same.trans old.symm)
      rw [if_neg kept, update_self, if_neg left, before, if_pos old]
  · split
    · exact before
    · rw [update_of_ne same]
      exact before

end

/-- A request that tells two roles tells one, when neither is unknown. -/
theorem role_of_tells {role : Role} (known : role ≠ .unknown) (known' : role' ≠ .unknown)
    (tells : request.tells role) (tells' : request.tells role') :
    role = role' := by
  unfold CheckRequest.tells at tells tells'
  cases role <;> cases role' <;> simp_all

theorem inv_advance (inv : NetworkInv cfg role net) (opposed : Opposed cfg role)
    (turned : Turned cfg role net side ice) {more : List Output}
    (log : ice.log = (net.agent side).log ++ more)
    (tells : ∀ request, .request request ∈ more →
      request.tieBreaker = (cfg side).tieBreaker ∧ request.tells ice.role) :
    NetworkInv cfg role (net.advance side ice) := by
  have roles := roles_advance inv turned
  have shown : net.shown side ice = more := by
    unfold Network.shown
    rw [log, drop_left]
  have now : ((net.advance side ice).agent side).role = ice.role := by rw [advance_agent, if_pos rfl]
  refine
    { roles := roles
      turns := turns_advance inv turned
      asked := ?_
      answered := ?_
      conflicted := ?_
      settled := ?_ }
  · intro of request member
    rw [advance_agent] at member
    by_cases same : of = side
    · rw [if_pos same, log] at member
      rw [same]
      rcases mem_append.mp member with early | late
      · exact inv.asked side request early
      · have told := tells request late
        refine ⟨told.1, ?_⟩
        rcases roles side with was | goes
        · rw [← was, now]
          exact .inl told.2
        · rw [← goes, now]
          exact .inr told.2
    · rw [if_neg same] at member
      exact inv.asked of request member
  · intro answer member
    rcases inv.answered answer member with refused | ⟨code, there⟩
    · exact .inl refused
    · exact .inr ⟨code, fun told => atGoal_advance turned (there told)⟩
  · intro of request member
    rcases mem_append.mp member with early | late
    · exact inv.conflicted of request early
    · have ⟨request', found, same⟩ := mem_map.mp late
      obtain ⟨rfl, rfl⟩ := Prod.mk.inj same
      have ⟨inside, other⟩ := mem_filter.mp found
      rw [shown] at inside
      have told := tells request' (mem_requestsOf.mp inside)
      have known : ∀ of, ((net.advance side ice).agent of).role ≠ .unknown := by
        intro of
        rcases roles of with same | same
        · rw [same]
          exact opposed.known of
        · rw [same]
          exact known_goal opposed of
      have quiet : ((net.advance side ice).agent side.other).role = (net.agent side.other).role := by
        rw [advance_agent, if_neg side.other_ne]
      have equal : ((net.advance side ice).agent side).role =
          ((net.advance side ice).agent side.other).role := by
        apply role_of_tells (known side) (known side.other)
        · rw [now]
          exact told.2
        · rw [quiet]
          exact other
      have one : ((net.advance side ice).agent .left).role =
          ((net.advance side ice).agent .right).role := by
        cases side
        · exact equal
        · exact equal.symm
      have start := start_of_equal opposed roles one
      refine ⟨start.1, ?_⟩
      have was := start.2 side
      rw [← was, now]
      exact told.2
  · intro of request member told
    exact atGoal_advance turned (inv.settled of request member told)

/-- How the roles of an agent and of the other one go together: a start in one role is left by one
of them, a start in two roles by none. -/
theorem goal_other (opposed : Opposed cfg role) (side : Side) :
    goal cfg role side.other ≠ goal cfg role side ∧
    (role side.other = role side ∧ goal cfg role side = winner cfg side ∨
      role side.other ≠ role side ∧ goal cfg role side = role side ∧
        goal cfg role side.other = role side.other) := by
  have cases' := (goal_cases opposed).1
  have differ : goal cfg role side.other ≠ goal cfg role side := by
    cases side <;> simp only [Side.other] <;> grind
  refine ⟨differ, ?_⟩
  by_cases same : role .left = role .right
  · refine .inl ⟨?_, if_pos same⟩
    cases side
    · exact same.symm
    · exact same
  · refine .inr ⟨?_, if_neg same, if_neg same⟩
    cases side
    · exact fun equal => same equal.symm
    · exact same

theorem Sent.tells {cfg : Config} {ice' : IceSess} (sent : Sent cfg ice ice') :
    ∃ more : List Output, ice'.log = ice.log ++ more ∧
      (∀ code, .response code ∉ more) ∧
      ∀ request, .request request ∈ more →
        request.tieBreaker = cfg.tieBreaker ∧ request.tells ice'.role := by
  have ⟨more, log, tells⟩ := sent.log
  refine ⟨more, log, fun code member => tells _ member, fun request member => ?_⟩
  have told := tells _ member
  refine ⟨told.2, ?_⟩
  rw [sent.role]
  exact decide_eq_true told.1

section
variable (inv : NetworkInv cfg role net)
include inv

theorem inv_own (opposed : Opposed cfg role) {event : Event} (own : event.isOwn = true)
    (done : Ice.step (cfg side) (net.agent side) event = some ice) :
    NetworkInv cfg role (net.advance side ice) ∧ Turned cfg role net side ice := by
  have sent := sent_step own done
  have ⟨more, log, _, tells⟩ := sent.tells
  have turned : Turned cfg role net side ice := .inl sent.role
  exact ⟨inv_advance inv opposed turned log tells, turned⟩

/-- Answers are given in a state in which they may be. -/
theorem NetworkInv.answer {more : List Answer}
    (new : ∀ answer ∈ more, Answered cfg role net answer) :
    NetworkInv cfg role { net with answers := net.answers ++ more } :=
  { roles := inv.roles
    turns := inv.turns
    asked := inv.asked
    answered := by
      intro answer member
      rcases mem_append.mp member with early | late
      · exact inv.answered answer early
      · exact new answer late
    conflicted := inv.conflicted
    settled := inv.settled }

theorem inv_request (opposed : Opposed cfg role)
    (asked : .request request ∈ (net.agent side.other).log) {compId : Nat} {createRes : Int}
    (done : onStunRxRequest (cfg side) (net.agent side)
    (request.received compId transportId srcAddr createRes) = some ice) :
    NetworkInv cfg role { net.advance side ice with
      answers := net.answers ++ (codesOf (net.shown side ice)).map fun code =>
        ⟨side.other, request, code⟩ } ∧ Turned cfg role net side ice := by
  obtain ⟨tie, told⟩ := inv.asked side.other request asked
  obtain ⟨differ, starts⟩ := goal_other opposed side
  have known := inv.known opposed side
  -- A request that tells the role of the receiver meets it in the role of the start.
  have conflict : request.tells (net.agent side).role →
      goal cfg role side = winner cfg side ∧ role side.other = role side ∧
        ((net.agent side).role = goal cfg role side → request.tells (role side.other) ∧
          role side.other ≠ goal cfg role side.other) := by
    intro same
    have one : ∀ other, other ≠ .unknown → request.tells other → other = (net.agent side).role :=
      fun other known' tells => role_of_tells known' known tells same
    have first := one _ (opposed.known side.other)
    have second := one _ (known_goal opposed side.other)
    have roles := inv.roles side
    grind
  rcases sent_onStunRxRequest rfl (Option.some_ne_none _) done with ⟨refused, same⟩ |
    ⟨role', repaired, outcome⟩
  · rw [roleAttr_received] at refused
    have meets : request.tells (net.agent side).role := by
      by_contra other
      rw [repairRole_apart known (Bool.eq_false_iff.mpr other)] at refused
      cases refused
    have there := conflict meets
    rw [repairRole_conflict known meets opposed.apart tie] at refused
    have wins : winner cfg side = (net.agent side).role := by
      by_contra other
      rw [if_neg other] at refused
      cases refused
    have turned : Turned cfg role net side ice := by
      rw [same]
      exact .inl rfl
    have log : ice.log = (net.agent side).log ++ [.response stunScRoleConflict] := by
      rw [same]
      rfl
    have advanced := inv_advance inv opposed turned log (by simp)
    refine ⟨advanced.answer ?_, turned⟩
    have shown : net.shown side ice = [.response stunScRoleConflict] := by
      unfold Network.shown
      rw [log, drop_left]
    rw [shown]
    intro answer member
    rw [mem_singleton.mp member]
    have last := there.2.2 (wins.symm.trans there.1.symm)
    exact .inl ⟨rfl, last.2, last.1⟩
  · rw [roleAttr_received] at repaired
    have turns : role' = (net.agent side).role ∧ ¬request.tells (net.agent side).role ∨
        role' ≠ (net.agent side).role ∧ role' = goal cfg role side ∧
          request.tells (net.agent side).role := by
      by_cases meets : request.tells (net.agent side).role = true
      · have there := conflict meets
        rw [repairRole_conflict known meets opposed.apart tie] at repaired
        by_cases wins : winner cfg side = (net.agent side).role
        · rw [if_pos wins] at repaired
          cases repaired
        · rw [if_neg wins, there.1.symm] at repaired
          have taken : role' = goal cfg role side := (Option.some.inj repaired).symm
          refine .inr ⟨?_, taken, meets⟩
          rw [taken, there.1]
          exact wins
      · rw [repairRole_apart known (Bool.eq_false_iff.mpr meets)] at repaired
        exact .inl ⟨(Option.some.inj repaired).symm, meets⟩
    have shows : ice.role = role' ∧ ∃ more : List Output, ice.log = (net.agent side).log ++ more ∧
        (∀ code, .response code ∈ more → code = 0) ∧
        ∀ request, .request request ∈ more →
          request.tieBreaker = (cfg side).tieBreaker ∧ request.tells ice.role := by
      rcases outcome with rfl | sent
      · exact ⟨rfl, [], (append_nil _).symm, by simp, by simp⟩
      · obtain ⟨more, log, silent, tells⟩ := sent.tells
        refine ⟨sent.role, .response 0 :: more, ?_, ?_, ?_⟩
        · rw [log]
          simp [IceSess.emit]
        · intro code member
          rcases mem_cons.mp member with first | later
          · exact Output.response.inj first
          · exact absurd later (silent code)
        · intro request member
          rcases mem_cons.mp member with first | later
          · cases first
          · exact tells request later
    obtain ⟨now, more, log, codes, tells⟩ := shows
    have turned : Turned cfg role net side ice := by
      unfold Turned
      rw [now]
      exact turns.imp And.left fun taken => taken.2.1
    have advanced := inv_advance inv opposed turned log tells
    refine ⟨advanced.answer ?_, turned⟩
    have shown : net.shown side ice = more := by
      unfold Network.shown
      rw [log, drop_left]
    rw [shown]
    intro answer member
    obtain ⟨code, given, rfl⟩ := mem_map.mp member
    refine .inr ⟨codes code (mem_codesOf.mp given), fun start => ?_⟩
    -- The request tells the role of the start, so the receiver is not in that role now.
    have apart : role' ≠ (net.agent side.other).role := by
      have roles := inv.roles side
      have roles' := inv.roles side.other
      have one : request.tells (net.agent side).role → role side.other = (net.agent side).role :=
        fun meets => role_of_tells (opposed.known side.other) known start meets
      have two : role side.other = (net.agent side).role → request.tells (net.agent side).role :=
        fun same => same ▸ start
      grind
    have opposite : (net.advance side ice).Opposite := by
      have first : ((net.advance side ice).agent side).role = role' := by
        rw [advance_agent, if_pos rfl, now]
      have second : ((net.advance side ice).agent side.other).role = (net.agent side.other).role := by
        rw [advance_agent, if_neg side.other_ne]
      cases side
      · change _ ≠ ((net.advance Side.left ice).agent Side.left.other).role
        rw [first, second]
        exact apart
      · change ((net.advance Side.right ice).agent Side.right.other).role ≠ _
        rw [first, second]
        exact apart.symm
    exact (advanced.atGoal_iff opposed).mp opposite

end

/-- Two roles other than a third are one, when none is unknown. -/
theorem eq_of_ne_ne {role third : Role} (known : role ≠ .unknown) (known' : third ≠ .unknown)
    (known'' : role' ≠ .unknown) (differ : role ≠ third) (differ' : role' ≠ third) :
    role = role' := by
  cases role <;> cases role' <;> cases third <;> simp_all

/-- The role that a request does not tell, of two known roles. -/
theorem conflictRole_of_tells {role : Role} (known : role ≠ .unknown) (known' : role' ≠ .unknown)
    (differ : role ≠ role') (tells : request.tells role) :
    conflictRole request.controlling = role' := by
  unfold CheckRequest.tells at tells
  unfold conflictRole
  cases role <;> cases role' <;> simp_all

theorem inv_response (inv : NetworkInv cfg role net) (opposed : Opposed cfg role)
    {answer : Answer} (given : answer ∈ net.answers) {mapped : Option Sockaddr}
    (done : onStunRequestComplete (cfg answer.side) (net.agent answer.side) answer.request
      (responseStatus answer.code) mapped srcAddr = some ice) :
    NetworkInv cfg role { net.advance answer.side ice with
      settled := net.settled ++ [(answer.side, answer.request)] } ∧
    Turned cfg role net answer.side ice := by
  have sent := sent_onStunRequestComplete done
  have advanced : NetworkInv cfg role (net.advance answer.side ice) ∧
      Turned cfg role net answer.side ice ∧
      (answer.request.tells (role answer.side) → AtGoal cfg role (net.advance answer.side ice)) := by
    rcases inv.answered answer given with ⟨refused, leaves, told⟩ | ⟨success, settles⟩
    · have conflict : responseStatus answer.code = pjStatusFromStunCode stunScRoleConflict := by
        rw [refused]
        rfl
      rw [if_pos conflict] at sent
      have ⟨more, log, _, tells⟩ := sent.tells
      have turns : ice.role = goal cfg role answer.side := by
        rw [sent.role]
        exact conflictRole_of_tells (opposed.known _) (known_goal opposed _) leaves told
      have turned : Turned cfg role net answer.side ice := .inr turns
      refine ⟨inv_advance inv opposed turned log tells, turned, fun _ of => ?_⟩
      rw [advance_agent]
      by_cases same : of = answer.side
      · rw [if_pos same, same]
        exact turns
      · rw [if_neg same]
        have is : of = answer.side.other := by
          cases of <;> cases side : answer.side <;> simp_all [Side.other]
        have ⟨differ, starts⟩ := goal_other opposed answer.side
        have stays : goal cfg role answer.side.other = role answer.side.other := by
          rcases starts with ⟨same, -⟩ | ⟨-, -, stays⟩
          · rw [same]
            exact eq_of_ne_ne (known_goal opposed _) (known_goal opposed _) (opposed.known _) differ leaves
          · exact stays
        have roles := inv.roles of
        rw [is] at roles ⊢
        rcases roles with start | ends
        · exact start.trans stays.symm
        · exact ends
    · have other : responseStatus answer.code ≠ pjStatusFromStunCode stunScRoleConflict := by
        rw [success]
        decide
      rw [if_neg other] at sent
      have ⟨more, log, _, tells⟩ := sent.tells
      have turned : Turned cfg role net answer.side ice := .inl sent.role
      exact ⟨inv_advance inv opposed turned log tells, turned,
        fun told => atGoal_advance turned (settles told)⟩
  have ⟨inv', turned, settles⟩ := advanced
  refine ⟨?_, turned⟩
  exact
    { roles := inv'.roles
      turns := inv'.turns
      asked := inv'.asked
      answered := inv'.answered
      conflicted := inv'.conflicted
      settled := by
        intro side request member told
        rcases mem_append.mp member with early | late
        · exact inv'.settled side request early told
        · obtain ⟨rfl, rfl⟩ := Prod.mk.inj (mem_singleton.mp late)
          exact settles told }

/-! ## Runs -/

/-- An event leaves the invariant in force, and agents with the roles to end with keep them. -/
theorem networkInv_step (opposed : Opposed cfg role) (inv : NetworkInv cfg role net)
    (event : NetworkEvent) :
    NetworkInv cfg role (net.step cfg event) ∧
      (AtGoal cfg role net → AtGoal cfg role (net.step cfg event)) := by
  have still : NetworkInv cfg role net ∧ (AtGoal cfg role net → AtGoal cfg role net) := ⟨inv, id⟩
  cases event with
  | own side event =>
    rw [Network.step]
    split
    · next own =>
      cases done : Ice.step (cfg side) (net.agent side) event with
      | none => exact still
      | some ice =>
        have ⟨inv', turned⟩ := inv_own inv opposed own done
        exact ⟨inv', atGoal_advance turned⟩
    · exact still
  | request side request compId transportId srcAddr createRes =>
    rw [Network.step]
    split
    · next asked =>
      split
      · exact still
      · next ice done =>
        have ⟨inv', turned⟩ := inv_request inv opposed asked done
        exact ⟨inv', atGoal_advance turned⟩
    · exact still
  | response answer mapped srcAddr =>
    rw [Network.step]
    split
    · next given =>
      split
      · exact still
      · next ice done =>
        have ⟨inv', turned⟩ := inv_response inv opposed given.1 done
        exact ⟨inv', atGoal_advance turned⟩
    · exact still

/-- Role conflicts are resolved: no agent changes its role twice, roles that differ go on to differ
whatever happens, and once a response to a request that met a conflict is delivered the roles
differ, and the agent with the larger tie-breaker is in the controlling role. -/
structure Resolved (cfg : Side → Config) (net : Network) : Prop where
  once : ∀ side, net.turns side ≤ 1
  lasting : net.Opposite → ∀ events, Run.Always (Network.step cfg) Network.Opposite net events
  repaired : ∀ side request, (side, request) ∈ net.conflicted → (side, request) ∈ net.settled →
    net.Opposite ∧ ∀ of : Side, (cfg of.other).tieBreaker < (cfg of).tieBreaker →
      (net.agent of).role = .controlling

theorem NetworkInv.resolved (inv : NetworkInv cfg role net) (opposed : Opposed cfg role) :
    Resolved cfg net where
  once side := by
    rw [inv.turns side]
    split <;> decide
  lasting differ events := by
    have there : AtGoal cfg role net := (inv.atGoal_iff opposed).mp differ
    have kept : Run.Always (Network.step cfg)
        (fun net => NetworkInv cfg role net ∧ AtGoal cfg role net) net events :=
      Run.always_of_forall
        (fun _ event held =>
          ⟨(networkInv_step opposed held.1 event).1, (networkInv_step opposed held.1 event).2 held.2⟩)
        ⟨inv, there⟩
    exact kept.imp fun _ held => (held.1.atGoal_iff opposed).mpr held.2
  repaired side request conflicted settled := by
    have ⟨same, told⟩ := inv.conflicted side request conflicted
    have there := inv.settled side request settled told
    refine ⟨(inv.atGoal_iff opposed).mpr there, fun of larger => ?_⟩
    rw [there of, goal, if_pos same, winner, if_pos larger]

/-- Two sessions that are created in roles, the same or not, with tie-breakers that differ resolve
role conflicts, in whatever order their requests and responses are delivered, lost and repeated. -/
theorem roles_resolve (cfg : Side → Config) (role : Side → Role) (opposed : Opposed cfg role)
    (compCnt : Side → Nat) (events : List NetworkEvent) :
    Run.Always (Network.step cfg) (Resolved cfg) (Network.start role compCnt) events := by
  have kept : Run.Always (Network.step cfg) (NetworkInv cfg role) (Network.start role compCnt) events :=
    Run.always_of_forall (fun _ event held => (networkInv_step opposed held event).1) networkInv_start
  exact kept.imp fun _ inv => inv.resolved opposed

/-- Two agents, the right one with the larger tie-breaker. -/
def rivalConfig : Side → Config
  | .left => calmConfig
  | .right => { calmConfig with tieBreaker := 2 }

/-- The first request of the left agent. -/
def rivalRequest : CheckRequest where
  id := 0
  ckid := 0
  transportId := 1
  priority := 1862270975
  useCandidate := false
  controlling := true
  tieBreaker := 1
  dstAddr := iceAddr 2 1

/-- Both agents start in the controlling role, and a request of the left one is refused. -/
def rivalRun : List NetworkEvent :=
  [.own .left (addHost 1 1), .own .left (.createCheckList [remoteHost 1 1 1]),
    .own .left .startCheck, .own .left .periodicTimer,
    .request .right rivalRequest 1 1 (iceAddr 1 1) pjSuccess,
    .response ⟨.left, rivalRequest, stunScRoleConflict⟩ none (iceAddr 2 1)]

theorem roles_resolve_refused :
    Run.Always (Network.step rivalConfig) (Resolved rivalConfig)
        (Network.start (fun _ => .controlling) fun _ => 1) rivalRun ∧
      let net := rivalRun.foldl (Network.step rivalConfig)
        (Network.start (fun _ => .controlling) fun _ => 1)
      net.conflicted = [(.left, rivalRequest)] ∧ net.settled = [(.left, rivalRequest)] ∧
        (net.agent .left).role = .controlled ∧ (net.agent .right).role = .controlling :=
  ⟨roles_resolve rivalConfig (fun _ => .controlling) ⟨by decide, fun _ => Role.noConfusion⟩ (fun _ => 1) rivalRun,
    by decide⟩

end Pjnath.Ice
