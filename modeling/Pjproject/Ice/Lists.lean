import Pjproject.Ice.Transactions

/-!
# The lists of an ICE session

The pairs of the checklist and of the valid list join a local and a remote candidate of one
component, the checklist has no pair twice, and neither list is larger than its array. A step keeps
this if the candidates that it finds are of the component it takes them for, and if the valid list
has room.
-/

namespace Pjnath.Ice
open List Pj Stun

variable {cfg : Config}

/-! ## What holds of the lists -/

variable {lcands rcands : List Cand}

variable {ice ice' : IceSess}

/-- The candidates of a pair are there, and are of one component. -/
def Joined (ice : IceSess) (check : Check) : Prop :=
  check.lcand < ice.lcands.length ∧ check.rcand < ice.rcands.length ∧
    (ice.lcand check).compId = (ice.rcand check).compId

/-- The invariant of the candidates and the lists. -/
structure Lists (ice : IceSess) : Prop where
  checks_joined : ∀ check ∈ ice.checks, Joined ice check
  valid_joined : ∀ check ∈ ice.valid, Joined ice check
  distinct : (ice.checks.map Check.key).Nodup
  checks_room : ice.checks.length ≤ iceMaxChecks
  valid_room : ice.valid.length ≤ iceMaxChecks
  compIds : ∀ cand ∈ ice.lcands, cand.compId < 256
  fresh : ice.checks = [] → ice.valid = []

section
variable {check check' : Check} (joined : Joined ice check) (same : check'.pair = check.pair)
include joined same

/-- The candidates of a pair stay where they are when others are added. -/
theorem Joined.grow (left : ice'.lcands = ice.lcands ++ lcands)
    (right : ice'.rcands = ice.rcands ++ rcands) : Joined ice' check' := by
  have ⟨inside, inside', one⟩ := joined
  have key := key_of_pair same
  simp only [Joined, IceSess.lcand, IceSess.rcand, left, right, key.1, key.2, length_append]
  refine ⟨by omega, by omega, ?_⟩
  rwa [getD_append _ _ _ _ inside, getD_append _ _ _ _ inside']

theorem Joined.of_pair (left : ice'.lcands = ice.lcands) (right : ice'.rcands = ice.rcands) :
    Joined ice' check' :=
  joined.grow same (left.trans (append_nil _).symm) (right.trans (append_nil _).symm)

end

theorem map_key_of_map_pair {checks checks' : List Check}
    (same : checks'.map Check.pair = checks.map Check.pair) :
    checks'.map Check.key = checks.map Check.key := by
  have keyed := congrArg (List.map fun pair : Nat × Nat × Nat => (pair.1, pair.2.1)) same
  rw [map_map, map_map] at keyed
  exact keyed

/-- The invariant is about the pairs. -/
theorem Lists.congr (lists : Lists ice) (same : ice'.pairing = ice.pairing) :
    Lists ice' := by
  have left : ice'.lcands = ice.lcands := congrArg Pairing.lcands same
  have right : ice'.rcands = ice.rcands := congrArg Pairing.rcands same
  have pairs : ice'.checks.map Check.pair = ice.checks.map Check.pair := congrArg Pairing.pairs same
  have valid : ice'.valid.map Check.pair = ice.valid.map Check.pair := congrArg Pairing.valid same
  exact
    { checks_joined := forall_of_map_pair pairs
        (fun _ _ same' joined => Joined.of_pair joined same' left right) lists.checks_joined
      valid_joined := forall_of_map_pair valid
        (fun _ _ same' joined => Joined.of_pair joined same' left right) lists.valid_joined
      distinct := by
        rw [map_key_of_map_pair pairs]
        exact lists.distinct
      checks_room := (length_of_map_pair pairs).trans_le lists.checks_room
      valid_room := (length_of_map_pair valid).trans_le lists.valid_room
      compIds := left ▸ lists.compIds
      fresh := fun empty => by
        have nothing : ice.checks.length = 0 := by rw [← length_of_map_pair pairs, empty]; rfl
        have valid' := lists.fresh (length_eq_zero_iff.mp nothing)
        rw [valid'] at valid
        exact map_eq_nil_iff.mp valid }

theorem Lists.of_frame (lists : Lists ice) (same : ice'.frame = ice.frame) :
    Lists ice' :=
  lists.congr (pairing_of_frame same)

/-! ## Incoming checks -/

/-- A remote candidate that an incoming check is found to come from, and pairs anew, is of the
component that the check is for. -/
def FromComponent (ice : IceSess) (rcheck : RxCheck) : Prop :=
  ∀ rcand ∈ findRcand ice.rcands rcheck.srcAddr,
    ∀ _lcand ∈ findLcand ice rcheck.compId rcheck.transportId,
      ice.checks.length < iceMaxChecks → (ice.rcands.getD rcand Cand.zero).compId = rcheck.compId

instance (ice : IceSess) (rcheck : RxCheck) : Decidable (FromComponent ice rcheck) :=
  inferInstanceAs (Decidable (∀ rcand ∈ findRcand ice.rcands rcheck.srcAddr,
    ∀ _lcand ∈ findLcand ice rcheck.compId rcheck.transportId,
      ice.checks.length < iceMaxChecks → (ice.rcands.getD rcand Cand.zero).compId = rcheck.compId))

/-- Candidates that are added leave the lists as they were. -/
theorem Lists.grow (lists : Lists ice) (left : ice'.lcands = ice.lcands ++ lcands)
    (right : ice'.rcands = ice.rcands ++ rcands) (compIds : ∀ cand ∈ lcands, cand.compId < 256)
    (checks : ice'.checks = ice.checks) (valid : ice'.valid = ice.valid) : Lists ice' :=
  { checks_joined := by
      rw [checks]
      exact fun check member => (lists.checks_joined check member).grow rfl left right
    valid_joined := by
      rw [valid]
      exact fun check member => (lists.valid_joined check member).grow rfl left right
    distinct := checks ▸ lists.distinct
    checks_room := checks ▸ lists.checks_room
    valid_room := valid ▸ lists.valid_room
    compIds := fun cand member => by
      rw [left] at member
      rcases mem_append.mp member with member | member
      · exact lists.compIds cand member
      · exact compIds cand member
    fresh := checks ▸ valid ▸ lists.fresh }

/-- The local candidate that is found for an incoming check. -/
theorem Lists.of_findLcand (lists : Lists ice) {compId transportId lcand : Nat}
    (found : findLcand ice compId transportId = some lcand) :
    lcand < ice.lcands.length ∧ (ice.lcands.getD lcand Cand.zero).compId = compId ∧ compId < 256 := by
  obtain ⟨check, member, rfl, compId', -⟩ := findLcand_spec found
  have inside := (lists.checks_joined check member).1
  refine ⟨inside, compId', ?_⟩
  rw [← compId', IceSess.lcand, getD_eq_getElem?_getD, getElem?_eq_getElem inside]
  exact lists.compIds _ (getElem_mem inside)

theorem lists_handleIncomingCheck (lists : Lists ice) {rcheck : RxCheck}
    (sound : FromComponent ice rcheck) (done : handleIncomingCheck cfg ice rcheck = some ice') :
    Lists ice' := by
  rcases handleIncomingCheck_cases done with rfl | ⟨known, rcand, learned, outcome⟩
  · exact lists
  have known' : Lists known ∧ known.checks = ice.checks ∧ known.lcands = ice.lcands := by
    rcases learned with ⟨-, rfl⟩ | ⟨-, -, -, rfl⟩
    · exact ⟨lists, rfl, rfl⟩
    · refine ⟨lists.grow (append_nil _).symm rfl ?_ rfl rfl, rfl, rfl⟩
      exact fun cand member => absurd member not_mem_nil
  rcases outcome with rfl |
    ⟨lcand, found, ⟨ckid, -, -, triggers⟩ | ⟨anew, rfl | ⟨room, nominate, status, performed⟩⟩⟩
  · exact known'.1
  · exact known'.1.congr (pairing_triggerCheck triggers)
  · exact known'.1
  · refine Lists.of_frame ?_ (frame_performCheck performed)
    have local' := lists.of_findLcand found
    have remote : rcand < known.rcands.length ∧
        (known.rcands.getD rcand Cand.zero).compId = rcheck.compId := by
      rcases learned with ⟨found', rfl⟩ | ⟨-, -, rfl, rfl⟩
      · have spec := findIdx?_eq_some_iff_findIdx_eq.mp found'
        exact ⟨spec.1, sound rcand found' lcand found room⟩
      · have last : (ice.rcands ++ [prflxRcand rcheck]).getD ice.rcands.length Cand.zero =
            prflxRcand rcheck := by simp
        constructor
        · rw [length_append]
          exact Nat.lt_succ_self _
        · rw [last]
          exact Nat.mod_eq_of_lt local'.2.2
    have joined : Joined known (triggered known rcheck lcand rcand) := by
      refine ⟨known'.2.2.symm ▸ local'.1, remote.1, ?_⟩
      simp only [IceSess.lcand, IceSess.rcand, triggered, known'.2.2]
      rw [local'.2.1, remote.2]
    exact
      { checks_joined := fun check member => by
          rcases mem_append.mp member with member | member
          · exact known'.1.checks_joined check (known'.2.1.symm ▸ member)
          · rw [mem_singleton.mp member]
            exact joined
        valid_joined := known'.1.valid_joined
        distinct := by
          rw [map_append, nodup_append']
          refine ⟨lists.distinct, nodup_singleton _, ?_⟩
          intro key member member'
          obtain ⟨check, inside, rfl⟩ := mem_map.mp member
          exact anew check inside (mem_singleton.mp member')
        checks_room := by
          rw [length_append]
          exact room
        valid_room := known'.1.valid_room
        compIds := known'.1.compIds
        fresh := fun empty => absurd empty (append_ne_nil_of_right_ne_nil _ (cons_ne_nil _ _)) }

/-! ## Success -/

/-- A pair that succeeds has room in the valid list, if it is not there. -/
def HasRoom (ice : IceSess) (lcand rcand : Nat) : Prop :=
  findValid ice.valid lcand rcand = none → ice.valid.length < iceMaxChecks

theorem addValid_cases (ice : IceSess) (check : Check) (lcand : Nat) :
    (findValid ice.valid lcand check.rcand = none ∧
      addValid ice check lcand = (ice.valid ++ [validPair ice check lcand], ice.valid.length)) ∨
    ∃ slot, findValid ice.valid lcand check.rcand = some slot ∧
      addValid ice check lcand =
        (ice.valid.modify slot fun vc => { vc with nominated := check.nominated }, slot) := by
  unfold addValid
  cases found : findValid ice.valid lcand check.rcand with
  | none => exact .inl ⟨rfl, rfl⟩
  | some slot => exact .inr ⟨slot, rfl, rfl⟩

theorem sortChecklist_perm (checks : List Check) : (sortChecklist checks).1.Perm checks :=
  (SelectionSort.tracks_sort Check.prio Check.zero checks).perm

theorem lists_succeedCheck (lists : Lists ice) {ckid lcand : Nat}
    (inside : ckid < ice.checks.length) (inside' : lcand < ice.lcands.length)
    (one : (ice.lcands.getD lcand Cand.zero).compId = (ice.lcand (checkAt ice.checks ckid)).compId)
    (room : HasRoom ice lcand (checkAt ice.checks ckid).rcand)
    (done : succeedCheck cfg ice ckid lcand = some ice') : Lists ice' := by
  have ⟨updated, complete, first, rest⟩ := succeedCheck_eq done
  have own := lists.checks_joined _ (checkAt_mem inside)
  have some' : ice.checks ≠ [] := fun empty => absurd inside (empty ▸ Nat.not_lt_zero _)
  have added : Lists { ice with valid := (addValid ice (checkAt ice.checks ckid) lcand).1 } := by
    rcases addValid_cases ice (checkAt ice.checks ckid) lcand with ⟨absent, same⟩ | ⟨slot, -, same⟩
    · rw [same]
      have joined : Joined ice (validPair ice (checkAt ice.checks ckid) lcand) :=
        ⟨inside', own.2.1, one.trans own.2.2⟩
      exact
        { lists with
          valid_joined := fun check member => by
            rcases mem_append.mp member with member | member
            · exact lists.valid_joined check member
            · rw [mem_singleton.mp member]
              exact joined
          valid_room := by
            rw [length_append]
            exact room absent
          fresh := fun empty => absurd empty some' }
    · rw [same]
      apply lists.congr
      exact congrArg (Pairing.mk _ _ _ _) (map_modify_pair fun _ => rfl)
  have updated' : Lists updated := added.congr (pairing_updateCompCheck first).1
  have sorted := sortChecklist_perm updated.valid
  have sorted' : Lists (sortValid updated) :=
    { updated' with
      valid_joined := fun check member => updated'.valid_joined check (sorted.mem_iff.mp member)
      valid_room := sorted.length_eq.trans_le updated'.valid_room
      fresh := fun empty => by
        have nothing := updated'.fresh empty
        have length := sorted.length_eq
        rw [nothing, length_nil] at length
        rw [← nothing] at length
        exact length_eq_zero_iff.mp length }
  exact sorted'.of_frame ((frame_onCheckComplete rest).trans frame_checkSetState)

/-! ## Steps -/

variable {request : CheckRequest}

/-- The early checks are handled one after the other, each in a session with a property. -/
def EachEarly (cfg : Config) (ok : IceSess → RxCheck → Prop) : IceSess → List RxCheck → Prop
  | _, [] => True
  | ice, rcheck :: rest => ok ice rcheck ∧
    match handleIncomingCheck cfg ice rcheck with
    | none => True
    | some ice => EachEarly cfg ok ice rest

/-- An invariant that each early check keeps which has the property. -/
theorem EachEarly.kept {ok : IceSess → RxCheck → Prop} {kept : IceSess → Prop}
    (each : ∀ ice rcheck ice', kept ice → ok ice rcheck →
      handleIncomingCheck cfg ice rcheck = some ice' → kept ice') {early : List RxCheck}
    (met : EachEarly cfg ok ice early) (start : kept ice)
    (done : early.foldlM (handleIncomingCheck cfg) ice = some ice') : kept ice' := by
  induction early generalizing ice with
  | nil =>
    cases done
    exact start
  | cons rcheck rest ih =>
    have ⟨next, first, later⟩ := Option.bind_eq_some_iff.mp done
    have rest' := met.2
    rw [first] at rest'
    exact ih rest' (each ice rcheck next start met.1 first) later

/-- The condition on early checks is decidable if that on one check is. -/
instance EachEarly.decidable (cfg : Config) (ok : IceSess → RxCheck → Prop)
    [∀ ice rcheck, Decidable (ok ice rcheck)] :
    ∀ ice early, Decidable (EachEarly cfg ok ice early)
  | _, [] => .isTrue trivial
  | ice, rcheck :: rest =>
    haveI : Decidable (match handleIncomingCheck cfg ice rcheck with
        | none => True
        | some ice => EachEarly cfg ok ice rest) :=
      match handleIncomingCheck cfg ice rcheck with
      | none => .isTrue trivial
      | some ice => EachEarly.decidable cfg ok ice rest
    inferInstanceAs (Decidable (ok ice rcheck ∧ _))

/-- A base that stands in for a server reflexive candidate that is paired is of its component. -/
def BasesOfComponent (ice : IceSess) (remCand : List Cand) : Prop :=
  ∀ srflx ∈ ice.lcands, srflx.type = .srflx → (∃ rcand ∈ savedCands ice remCand, paired srflx rcand) →
    ∀ host ∈ findBase ice.lcands srflx, (ice.lcands.getD host Cand.zero).compId = srflx.compId

instance (ice : IceSess) (remCand : List Cand) : Decidable (BasesOfComponent ice remCand) :=
  inferInstanceAs (Decidable (∀ srflx ∈ ice.lcands, srflx.type = .srflx →
    (∃ rcand ∈ savedCands ice remCand, paired srflx rcand) →
      ∀ host ∈ findBase ice.lcands srflx, (ice.lcands.getD host Cand.zero).compId = srflx.compId))

/-- A check that succeeds with a mapped address finds a local candidate of its component, has room
in the valid list, and does not take the nomination from the nominated check of a component. -/
def SoundSuccess (ice : IceSess) (check : Check) (addr : Sockaddr) : Prop :=
  (findMapped ice.lcands addr (ice.lcand check).baseAddr = none → ice.lcands.length < iceMaxCand →
    ice.valid.length < iceMaxChecks) ∧
  ∀ lcand ∈ findMapped ice.lcands addr (ice.lcand check).baseAddr,
    (ice.lcands.getD lcand Cand.zero).compId = (ice.lcand check).compId ∧
    (findValid ice.valid lcand check.rcand = none → ice.valid.length < iceMaxChecks) ∧
    ∀ slot ∈ findValid ice.valid lcand check.rcand,
      (∃ comp ∈ ice.comps, comp.nominatedCheck = some slot) → check.nominated = true

instance (ice : IceSess) (check : Check) (addr : Sockaddr) : Decidable (SoundSuccess ice check addr) :=
  inferInstanceAs (Decidable ((_ → _ → _) ∧ ∀ lcand ∈ findMapped ice.lcands addr _,
    _ ∧ (_ → _) ∧ ∀ slot ∈ findValid ice.valid lcand check.rcand,
      (∃ comp ∈ ice.comps, comp.nominatedCheck = some slot) → check.nominated = true))

/-- The check of a request that is handled when it is received. -/
def handledCheck (cfg : Config) (ice : IceSess) (rx : RxRequest) : Option RxCheck :=
  if rx.isBinding = true ∧ rx.createRes = pjSuccess ∧ repairRole cfg ice.role rx.roleAttr ≠ none then
    rx.priority.map (rxCheck cfg ice rx)
  else none

/-- What a step is about is of the component it is taken for, has room, and stays nominated. -/
def StepSound (cfg : Config) (ice : IceSess) : Event → Prop
  | .createCheckList remCand => BasesOfComponent ice remCand
  | .startCheck => Starts ice → EachEarly cfg FromComponent (wake cfg ice) ice.earlyCheck
  | .requestComplete id status mapped srcAddr =>
    ∀ request ∈ ice.tsx.find? fun request => request.id = id,
      ∀ addr ∈ successAddr cfg ice request status mapped srcAddr,
        SoundSuccess ice (checkAt ice.checks request.ckid) addr
  | .rxRequest rx => ∀ rcheck ∈ handledCheck cfg ice rx, FromComponent ice rcheck
  | _ => True

instance (ice : IceSess) : Decidable (Starts ice) :=
  inferInstanceAs (Decidable (∃ check ∈ ice.checks, (ice.lcand check).compId = 1))

instance (cfg : Config) (ice : IceSess) : ∀ event, Decidable (StepSound cfg ice event)
  | .createCheckList remCand => inferInstanceAs (Decidable (BasesOfComponent ice remCand))
  | .startCheck =>
    inferInstanceAs (Decidable (Starts ice → EachEarly cfg FromComponent (wake cfg ice) ice.earlyCheck))
  | .requestComplete id status mapped srcAddr =>
    inferInstanceAs (Decidable (∀ request ∈ ice.tsx.find? fun request => request.id = id,
      ∀ addr ∈ successAddr cfg ice request status mapped srcAddr,
        SoundSuccess ice (checkAt ice.checks request.ckid) addr))
  | .rxRequest rx =>
    inferInstanceAs (Decidable (∀ rcheck ∈ handledCheck cfg ice rx, FromComponent ice rcheck))
  | .addCand .. | .changeRole _ | .periodicTimer | .sessionTimer => .isTrue trivial

theorem lists_createCheckList (lists : Lists ice) {remCand : List Cand}
    (bases : BasesOfComponent ice remCand)
    (done : step cfg ice (.createCheckList remCand) = some ice') : Lists ice' := by
  have ⟨fresh, done⟩ := createCheckList_step done
  obtain ⟨created, pruned, highestComp, pairs, some', pruned', -, rfl⟩ := createCheckList_eq done
  rw [fresh] at pairs
  have length := created_length pairs some' pruned'
  have valid := lists.fresh fresh
  exact
    { checks_joined := fun check member => by
        obtain ⟨origin, ⟨i, j, left, right, joined, rfl⟩, image⟩ := created_origin pairs pruned' member
        simp only [paired, Bool.and_eq_true, decide_eq_true_eq] at joined
        rcases replaceSrflx_cases image with ⟨-, rfl⟩ | ⟨reflexive, host, found, rfl⟩
        · exact ⟨left, right, joined.1⟩
        · refine ⟨findBase_lt found, right, Eq.trans ?_ joined.1⟩
          have entry : ice.lcands.getD i Cand.zero ∈ ice.lcands := by
            rw [getD_eq_getElem?_getD, getElem?_eq_getElem left]
            exact getElem_mem left
          refine bases _ entry reflexive ⟨(savedCands ice remCand).getD j Cand.zero, ?_, ?_⟩ host found
          · rw [getD_eq_getElem?_getD, getElem?_eq_getElem right]
            exact getElem_mem right
          · simp only [paired, Bool.and_eq_true, decide_eq_true_eq]
            exact joined
      valid_joined := fun check member => by
        rw [show ice.valid = [] from valid] at member
        exact absurd member not_mem_nil
      distinct := by
        obtain ⟨replaced, -, rfl⟩ := pruneChecklist_eq pruned'
        apply pairwise_map.mpr
        refine (pruneFrom_pairwise le_rfl).imp ?_
        intro upper lower apart same
        simp only [Check.key, Prod.mk.injEq] at same
        simp [redundant, same.1, same.2] at apart
      checks_room := length.1
      valid_room := lists.valid_room
      compIds := lists.compIds
      fresh := fun empty => absurd empty length.2 }

/-- The pairs stay when a request ends. -/
theorem frame_endRequest :
    (endRequest ice request).frame = ice.frame := by
  rw [endRequest, frame_updateCheck]
  · rfl
  · exact fun _ => rfl

theorem findMapped_lt {mapped baseAddr : Sockaddr} {lcand : Nat}
    (found : findMapped lcands mapped baseAddr = some lcand) : lcand < lcands.length :=
  (findIdx?_eq_some_iff_findIdx_eq.mp found).1

theorem frame_retryCheck (done : retryCheck cfg ice request = some ice') :
    ice'.frame = { ice with role := conflictRole request.controlling }.frame := by
  obtain ⟨⟨performed, status⟩, found, rfl⟩ := Option.map_eq_some_iff.mp done
  exact (frame_performCheck found).trans frame_checkSetState

section
variable (lists : Lists ice)
include lists

theorem Lists.of_role (role : Role) (same : ice'.frame = { ice with role := role }.frame) :
    Lists ice' := by
  refine Lists.of_frame ?_ same
  exact { lists with }

theorem lists_onStunRequestComplete (live : Live ice none) (member : request ∈ ice.tsx)
    {status : Int} {mapped : Option Sockaddr} {srcAddr : Sockaddr}
    (sound : ∀ addr ∈ successAddr cfg ice request status mapped srcAddr, SoundSuccess ice
    (checkAt ice.checks request.ckid) addr)
    (done : onStunRequestComplete cfg ice request status mapped srcAddr = some ice') :
    Lists ice' := by
  have ended : Lists (endRequest ice request) := lists.of_frame frame_endRequest
  have inside : request.ckid < (endRequest ice request).checks.length :=
    length_endRequest.symm ▸ live.slots request member
  have own := lists.checks_joined _ (checkAt_mem (live.slots request member))
  rcases onStunRequestComplete_cases done with ⟨-, retried⟩ | ⟨failure, -, failed⟩ |
    ⟨addr, given, ⟨found, here, succeeded⟩ | ⟨nowhere, room, cand, compId, -, -, succeeded⟩⟩
  · exact ended.of_role _ (frame_retryCheck retried)
  · exact ended.of_frame (frame_failCheck failed)
  · have success := sound addr given
    have found' := success.2 found here
    refine lists_succeedCheck ended inside (findMapped_lt here) ?_ ?_ succeeded
    · rw [checkAt_endRequest]
      exact found'.1
    · rw [checkAt_endRequest]
      exact found'.2.1
  · have success := sound addr given
    have small : (ice.lcand (checkAt ice.checks request.ckid)).compId < 256 := by
      rw [IceSess.lcand, getD_eq_getElem?_getD, getElem?_eq_getElem own.1]
      exact lists.compIds _ (getElem_mem own.1)
    rw [Nat.mod_eq_of_lt small] at compId
    have grown : Lists { endRequest ice request with lcands := ice.lcands ++ [cand] } := by
      refine ended.grow rfl (append_nil _).symm ?_ rfl rfl
      intro other member'
      rw [mem_singleton.mp member', compId]
      exact small
    refine lists_succeedCheck grown inside ?_ ?_ (fun _ => success.1 nowhere room) succeeded
    · rw [length_append]
      exact Nat.lt_succ_self _
    · have last : (ice.lcands ++ [cand]).getD ice.lcands.length Cand.zero = cand := by simp
      have before : (ice.lcands ++ [cand]).getD (checkAt ice.checks request.ckid).lcand Cand.zero =
          ice.lcand (checkAt ice.checks request.ckid) :=
        getD_append _ _ _ _ own.1
      rw [checkAt_endRequest]
      simp only [IceSess.lcand]
      rw [last, before, compId]

theorem lists_onStunRxRequest {rx : RxRequest}
    (sound : ∀ rcheck ∈ handledCheck cfg ice rx, FromComponent ice rcheck)
    (done : onStunRxRequest cfg ice rx = some ice') : Lists ice' := by
  rcases onStunRxRequest_cases done with ⟨code, rfl⟩ | rfl |
    ⟨role, repaired, rfl | ⟨binding, created, priority, given, ⟨-, rfl⟩ | handled⟩⟩
  · exact lists.of_frame rfl
  · exact lists
  · exact lists.of_role role rfl
  · exact lists.of_role role rfl
  · have ready : Lists ({ ice with role := role }.emit (.response 0)) := lists.of_role role rfl
    refine lists_handleIncomingCheck ready ?_ handled
    apply sound _
    have taken : rx.isBinding = true ∧ rx.createRes = pjSuccess ∧
        repairRole cfg ice.role rx.roleAttr ≠ none :=
      ⟨binding, created, repaired ▸ Option.some_ne_none role⟩
    rw [handledCheck, if_pos taken, given]
    rfl

/-- Every step that is sound keeps the lists. -/
theorem lists_step (live : Live ice none) {event : Event} (sound : StepSound cfg ice event)
    (done : step cfg ice event = some ice') : Lists ice' := by
  cases event with
  | addCand compId transportId type localPref foundation addr baseAddr =>
    cases done
    unfold pjIceSessAddCand
    split
    · exact lists
    · split
      · exact lists
      · refine lists.grow rfl (append_nil _).symm ?_ rfl rfl
        intro cand member
        rw [mem_singleton.mp member]
        exact Nat.mod_lt _ (by decide)
  | changeRole role =>
    cases done
    exact lists.of_role role rfl
  | createCheckList remCand => exact lists_createCheckList lists sound done
  | startCheck =>
    obtain ⟨⟨started, status⟩, found, rfl⟩ := Option.map_eq_some_iff.mp done
    rcases startCheck_cases found with ⟨-, rfl | rfl⟩ | ⟨starts, checked, early, rfl⟩
    · exact lists
    · exact lists.of_frame rfl
    · have lists' : Lists checked := (sound starts).kept
        (fun _ _ _ kept met handled => lists_handleIncomingCheck kept met handled)
        (lists.of_frame frame_wake) early
      exact lists'.of_frame rfl
  | periodicTimer =>
    rcases periodicTimer_step done with rfl | ⟨-, done⟩
    · exact lists
    · exact lists.of_frame (frame_startPeriodicCheck done)
  | sessionTimer => exact lists.of_frame (frame_onTimer done)
  | requestComplete id status mapped srcAddr =>
    rcases requestComplete_step done with rfl | ⟨request, member, found, done⟩
    · exact lists
    · exact lists_onStunRequestComplete lists live member (sound request found) done
  | rxRequest rx => exact lists_onStunRxRequest lists sound done

end

end Pjnath.Ice
