import Pjproject.Ice.Checklist

/-!
# What one step of an ICE session can do

The outcomes of the functions that pick one of several ways to go on, each with what the way is
taken for.
-/

namespace Pjnath.Ice
open List Pj Stun

variable {cfg : Config} {ice ice' : IceSess}

/-! ## Searches -/

variable {slot : Nat} {checks : List Check}

/-- A check found in a list is in it. -/
theorem checkAt_mem (inside : slot < checks.length) :
    checkAt checks slot ∈ checks := by
  rw [checkAt, getD_eq_getElem?_getD, getElem?_eq_getElem inside]
  exact getElem_mem inside

/-- The first check of a kind. -/
theorem checkAt_of_findIdx? {kind : Check → Bool} (found : checks.findIdx? kind = some slot) :
    slot < checks.length ∧ kind (checkAt checks slot) = true := by
  have first := findIdx?_eq_some_iff_getElem.mp found
  have ⟨inside, matched, _⟩ := first
  refine ⟨inside, ?_⟩
  rwa [checkAt, getD_eq_getElem?_getD, getElem?_eq_getElem inside]

theorem findLcand_spec {compId transportId lcand : Nat}
    (found : findLcand ice compId transportId = some lcand) :
    ∃ check ∈ ice.checks, check.lcand = lcand ∧ (ice.lcand check).compId = compId ∧
      (ice.lcand check).transportId = transportId := by
  obtain ⟨check, found', rfl⟩ := Option.map_eq_some_iff.mp found
  have matched := find?_some found'
  simp only [Bool.and_eq_true, decide_eq_true_eq] at matched
  exact ⟨check, mem_of_find?_eq_some found', rfl, matched⟩

/-! ## Incoming checks -/

variable {rcheck : RxCheck}

/-- What `handle_incoming_check` does with a pair that is on the checklist: a triggered check, a
nomination of valid pairs, or nothing. -/
theorem triggerCheck_cases {ckid : Nat} (done : triggerCheck cfg ice rcheck ckid = some ice') :
    ∃ flagged : IceSess,
      flagged = ice.updateCheck ckid (fun check =>
        { check with nominated := rcheck.useCandidate || check.nominated }) ∧
      ((((checkAt flagged.checks ckid).state = .frozen ∨
            (checkAt flagged.checks ckid).state = .waiting) ∧
          ∃ nominate status, performCheck cfg flagged ckid nominate = some (ice', status)) ∨
        ((checkAt flagged.checks ckid).state = .succeeded ∧
          ∃ nominated complete,
            (nominated = flagged ∨
              rcheck.useCandidate = true ∧
                (List.range flagged.valid.length).foldlM (nominateValid (checkAt flagged.checks ckid))
                  flagged = some nominated) ∧
            onCheckComplete cfg nominated ckid = some (ice', complete)) ∨
        ((checkAt flagged.checks ckid).state = .inProgress ∨
            (checkAt flagged.checks ckid).state = .failed) ∧ ice' = flagged) := by
  unfold triggerCheck at done
  dsimp only at done
  refine ⟨_, rfl, ?_⟩
  split at done
  · next state =>
    obtain ⟨⟨performed, status⟩, found, rfl⟩ := Option.map_eq_some_iff.mp done
    exact .inl ⟨.inl state, _, status, found⟩
  · next state =>
    obtain ⟨⟨performed, status⟩, found, rfl⟩ := Option.map_eq_some_iff.mp done
    exact .inl ⟨.inr state, _, status, found⟩
  · next state =>
    split at done
    · cases done
    · exact .inr (.inr ⟨.inl state, (Option.some.inj done).symm⟩)
  · next state =>
    have ⟨nominated, first, rest⟩ := Option.bind_eq_some_iff.mp done
    obtain ⟨⟨completed, complete⟩, found, rfl⟩ := Option.map_eq_some_iff.mp rest
    refine .inr (.inl ⟨state, nominated, complete, ?_, found⟩)
    split at first
    · next asked => exact .inr ⟨asked, first⟩
    · exact .inl (Option.some.inj first).symm
  · next state => exact .inr (.inr ⟨.inr state, (Option.some.inj done).symm⟩)

/-- The check that is added for an incoming check. -/
def triggered (ice : IceSess) (rcheck : RxCheck) (lcand rcand : Nat) : Check where
  lcand := lcand
  rcand := rcand
  prio := calcCheckPrio ice.role (ice.lcands.getD lcand Cand.zero) (ice.rcands.getD rcand Cand.zero)
  state := .waiting
  nominated := rcheck.useCandidate
  errCode := pjSuccess
  tdata := none

/-- What `handle_incoming_check` does: nothing, or it makes a remote candidate known, and then it
uses a pair of the checklist or adds one. -/
theorem handleIncomingCheck_cases (done : handleIncomingCheck cfg ice rcheck = some ice') :
    ice' = ice ∨
    ∃ known : IceSess, ∃ rcand,
      (findRcand ice.rcands rcheck.srcAddr = some rcand ∧ known = ice ∨
        findRcand ice.rcands rcheck.srcAddr = none ∧ ice.rcands.length < iceMaxCand ∧
          rcand = ice.rcands.length ∧
          known = { ice with rcands := ice.rcands ++ [prflxRcand rcheck] }) ∧
      (ice' = known ∨
        ∃ lcand, findLcand ice rcheck.compId rcheck.transportId = some lcand ∧
          ((∃ ckid, (checkAt ice.checks ckid).key = (lcand, rcand) ∧ ckid < ice.checks.length ∧
              triggerCheck cfg known rcheck ckid = some ice') ∨
            (∀ check ∈ ice.checks, check.key ≠ (lcand, rcand)) ∧
              (ice' = known ∨
                ice.checks.length < iceMaxChecks ∧ ∃ nominate status,
                  performCheck cfg
                    { known with checks := ice.checks ++ [triggered known rcheck lcand rcand] }
                    ice.checks.length nominate = some (ice', status)))) := by
  unfold handleIncomingCheck at done
  dsimp only at done
  split at done
  · exact .inl (Option.some.inj done).symm
  · next room =>
    refine .inr ⟨if findRcand ice.rcands rcheck.srcAddr = none then
        { ice with rcands := ice.rcands ++ [prflxRcand rcheck] } else ice,
      (findRcand ice.rcands rcheck.srcAddr).getD ice.rcands.length, ?_, ?_⟩
    · cases found : findRcand ice.rcands rcheck.srcAddr with
      | some rcand => exact .inl ⟨rfl, if_neg (by simp)⟩
      | none => exact .inr ⟨rfl, by simpa [found] using room, rfl, if_pos rfl⟩
    generalize (findRcand ice.rcands rcheck.srcAddr).getD ice.rcands.length = rcand at done ⊢
    -- The candidate that may be new changes neither the checks nor the local candidates.
    generalize result : (if findRcand ice.rcands rcheck.srcAddr = none then
      { ice with rcands := ice.rcands ++ [prflxRcand rcheck] } else ice) = known at done ⊢
    have same : known.checks = ice.checks := by
      rw [← result]
      split <;> rfl
    have same' : findLcand known rcheck.compId rcheck.transportId =
        findLcand ice rcheck.compId rcheck.transportId := by
      rw [← result]
      split <;> rfl
    rw [same', same] at done
    split at done
    · exact .inl (Option.some.inj done).symm
    · next lcand found =>
      refine .inr ⟨lcand, found, ?_⟩
      split at done
      · next ckid here =>
        have spec := checkAt_of_findIdx? here
        simp only [Bool.and_eq_true, decide_eq_true_eq] at spec
        exact .inl ⟨ckid, Prod.ext spec.2.1 spec.2.2, spec.1, done⟩
      · next nowhere =>
        refine .inr ⟨fun check member same => ?_, ?_⟩
        · have other := findIdx?_eq_none_iff.mp nowhere check member
          simp only [Check.key, Prod.mk.injEq] at same
          simp [same.1, same.2] at other
        · unfold addTriggeredCheck at done
          rw [same] at done
          split at done
          · exact .inl (Option.some.inj done).symm
          · next room =>
            obtain ⟨⟨performed, status⟩, found', rfl⟩ := Option.map_eq_some_iff.mp done
            exact .inr ⟨Nat.lt_of_not_le room, _, status, found'⟩

/-! ## Pairs -/

/-- The candidates of a session and the pairs of its lists, with their priorities. -/
structure Pairing where
  role : Role
  lcands : List Cand
  rcands : List Cand
  pairs : List (Nat × Nat × Nat)
  valid : List (Nat × Nat × Nat)

/-- The pairs of a session. -/
def IceSess.pairing (ice : IceSess) : Pairing :=
  ⟨ice.role, ice.lcands, ice.rcands, ice.checks.map Check.pair, ice.valid.map Check.pair⟩

theorem pairing_of_frame (same : ice'.frame = ice.frame) :
    ice'.pairing = ice.pairing := by
  simp only [IceSess.pairing, frame_role same, frame_lcands same, frame_rcands same,
    frame_valid same, frame_pairs same]

/-- A property of pairs, of all pairs of one list and so of the other. -/
theorem forall_of_map_pair {checks' : List Check}
    (same : checks'.map Check.pair = checks.map Check.pair) {goal goal' : Check → Prop}
    (of_pair : ∀ check check' : Check, check'.pair = check.pair → goal check → goal' check')
    (all : ∀ check ∈ checks, goal check) : ∀ check ∈ checks', goal' check := by
  intro check' member
  have mapped : check'.pair ∈ checks.map Check.pair := same ▸ mem_map_of_mem member
  have ⟨check, inside, found⟩ := mem_map.mp mapped
  exact of_pair check check' found.symm (all check inside)

theorem key_of_pair {check check' : Check} (same : check'.pair = check.pair) :
    check'.lcand = check.lcand ∧ check'.rcand = check.rcand := by
  simp only [Check.pair, Prod.mk.injEq] at same
  exact ⟨same.1, same.2.1⟩

theorem pairing_updateCompCheck {compId : Nat}
    (done : updateCompCheck ice compId slot = some ice') :
    ice'.pairing = ice.pairing ∧ ice'.valid = ice.valid ∧ ice'.checks = ice.checks := by
  unfold updateCompCheck at done
  split at done
  · cases done
  · cases done
    exact ⟨rfl, rfl, rfl⟩

theorem pairing_nominateValid {check : Check} (done : nominateValid check ice slot = some ice') :
    ice'.pairing = ice.pairing := by
  unfold nominateValid at done
  dsimp only at done
  split at done
  · refine (pairing_updateCompCheck done).1.trans ?_
    exact congrArg (Pairing.mk _ _ _ _) (map_modify_pair fun _ => rfl)
  · cases done
    rfl

theorem pairing_triggerCheck {ckid : Nat} (done : triggerCheck cfg ice rcheck ckid = some ice') :
    ice'.pairing = ice.pairing := by
  obtain ⟨flagged, rfl, outcome⟩ := triggerCheck_cases done
  have same : (ice.updateCheck ckid fun check =>
      { check with nominated := rcheck.useCandidate || check.nominated }).pairing = ice.pairing :=
    pairing_of_frame (frame_updateCheck fun _ => rfl)
  refine Eq.trans ?_ same
  rcases outcome with ⟨-, nominate, status, performed⟩ | ⟨-, nominated, complete, first, rest⟩ |
    ⟨-, rfl⟩
  · exact pairing_of_frame (frame_performCheck performed)
  · refine (pairing_of_frame (frame_onCheckComplete rest)).trans ?_
    rcases first with rfl | ⟨-, loop⟩
    · rfl
    · exact Run.foldlM_kept (fun other : IceSess => other.pairing = _)
        (fun _ _ _ _ kept found => (pairing_nominateValid found).trans kept) rfl loop
  · rfl

/-! ## The end of a request -/

variable {mapped : Option Sockaddr} {srcAddr : Sockaddr}

theorem checkAt_modify (change : Check → Check) (zero : change Check.zero = Check.zero) :
    checkAt (checks.modify slot change) slot = change (checkAt checks slot) := by
  rw [checkAt, checkAt, getD_eq_getElem?_getD, getD_eq_getElem?_getD,
    getElem?_modify_eq]
  cases checks[slot]? with
  | none => exact zero.symm
  | some check => rfl

/-- The check of a request that ends has no transaction any more. -/
theorem checkAt_endRequest {request : CheckRequest} :
    checkAt (endRequest ice request).checks request.ckid =
      { checkAt ice.checks request.ckid with tdata := none } :=
  checkAt_modify (fun check => { check with tdata := none }) rfl

/-- The mapped address with which a check succeeds. -/
def successAddr (cfg : Config) (ice : IceSess) (request : CheckRequest) (status : Int)
    (mapped : Option Sockaddr) (srcAddr : Sockaddr) : Option Sockaddr :=
  let dst := (ice.rcand (checkAt ice.checks request.ckid)).addr
  if status = pjSuccess ∧ dst = responseSource cfg dst srcAddr then mapped else none

/-- What `on_stun_request_complete` does: the check is retried in another role, or fails, or
succeeds, with a local candidate that is known or that is made known. -/
theorem onStunRequestComplete_cases {request : CheckRequest} {status : Int}
    (done : onStunRequestComplete cfg ice request status mapped srcAddr = some ice') :
    status = pjStatusFromStunCode stunScRoleConflict ∧
      retryCheck cfg (endRequest ice request) request = some ice' ∨
    (∃ failure, failure ≠ pjSuccess ∧
      failCheck cfg (endRequest ice request) request.ckid failure = some ice') ∨
    ∃ addr, successAddr cfg ice request status mapped srcAddr = some addr ∧
      let lcand := ice.lcand (checkAt ice.checks request.ckid)
      ((∃ found, findMapped ice.lcands addr lcand.baseAddr = some found ∧
          succeedCheck cfg (endRequest ice request) request.ckid found = some ice') ∨
        findMapped ice.lcands addr lcand.baseAddr = none ∧ ice.lcands.length < iceMaxCand ∧
          ∃ cand : Cand, cand.compId = lcand.compId % 256 ∧
            cand.transportId = request.transportId % 256 ∧
            cand.prio = calcCandPrio cfg .prflx 65535 cand.compId ∧
            succeedCheck cfg { endRequest ice request with lcands := ice.lcands ++ [cand] }
              request.ckid ice.lcands.length = some ice') := by
  have same : (endRequest ice request).lcand (checkAt (endRequest ice request).checks request.ckid) =
      ice.lcand (checkAt ice.checks request.ckid) ∧
      (endRequest ice request).rcand (checkAt (endRequest ice request).checks request.ckid) =
        ice.rcand (checkAt ice.checks request.ckid) := by
    rw [checkAt_endRequest]
    exact ⟨rfl, rfl⟩
  unfold onStunRequestComplete at done
  dsimp only at done
  split at done
  · next conflict => exact .inl ⟨conflict, done⟩
  · split at done
    · next failed => exact .inr (.inl ⟨status, failed, done⟩)
    · next success =>
      rw [same.2] at done
      split at done
      · exact .inr (.inl ⟨_, by decide, done⟩)
      · next from' =>
        split at done
        · exact .inr (.inl ⟨_, by decide, done⟩)
        · next addr =>
          have given : successAddr cfg ice request status (some addr) srcAddr = some addr :=
            if_pos ⟨not_not.mp success, not_not.mp from'⟩
          unfold onMapped at done
          dsimp only at done
          rw [same.1] at done
          split at done
          · next found here => exact .inr (.inr ⟨addr, given, .inl ⟨found, here, done⟩⟩)
          · next nowhere =>
            unfold pjIceSessAddCand at done
            split at done
            · exact .inr (.inl ⟨pjEinval, by decide, done⟩)
            · split at done
              · exact .inr (.inl ⟨pjEtoomany, by decide, done⟩)
              · next room =>
                exact .inr (.inr ⟨addr, given, .inr ⟨nowhere, Nat.lt_of_not_le room, _, rfl, rfl, rfl,
                  done⟩⟩)

/-! ## Requests that are received -/

/-- What `on_stun_rx_request` does: it only answers or takes a role, or it handles the check, at
once or later. -/
theorem onStunRxRequest_cases {rx : RxRequest} (done : onStunRxRequest cfg ice rx = some ice') :
    (∃ code, ice' = ice.emit (.response code)) ∨ ice' = ice ∨
    ∃ role, repairRole cfg ice.role rx.roleAttr = some role ∧
      (ice' = { ice with role := role } ∨
        rx.isBinding = true ∧ rx.createRes = pjSuccess ∧ ∃ priority, rx.priority = some priority ∧
          (ice.rcands = [] ∧
              ice' = { ({ ice with role := role }.emit (.response 0)) with
                earlyCheck := ice.earlyCheck ++ [rxCheck cfg ice rx priority] } ∨
            handleIncomingCheck cfg ({ ice with role := role }.emit (.response 0))
              (rxCheck cfg ice rx priority) = some ice')) := by
  unfold onStunRxRequest at done
  split at done
  · exact .inl ⟨_, (Option.some.inj done).symm⟩
  · next binding =>
    split at done
    · exact .inr (.inl (Option.some.inj done).symm)
    · next priority given =>
      split at done
      · exact .inl ⟨_, (Option.some.inj done).symm⟩
      · next role repaired =>
        refine .inr (.inr ⟨role, repaired, ?_⟩)
        dsimp only at done
        split at done
        · exact .inl (Option.some.inj done).symm
        · next created =>
          refine .inr ⟨by simpa using binding, not_not.mp created, priority, given, ?_⟩
          split at done
          · next early => exact .inl ⟨early, (Option.some.inj done).symm⟩
          · exact .inr done

/-- There is a check of component 1 to start with. -/
def Starts (ice : IceSess) : Prop := ∃ check ∈ ice.checks, (ice.lcand check).compId = 1

/-- What `pj_ice_sess_start_check` does. -/
theorem startCheck_cases {status : Int} (done : pjIceSessStartCheck cfg ice = some (ice', status)) :
    (status ≠ pjSuccess ∧ (ice' = ice ∨
      ice' = { ice with isNominating := ice.isNominating || cfg.aggressive })) ∨
    Starts ice ∧ ∃ checked : IceSess,
      ice.earlyCheck.foldlM (handleIncomingCheck cfg) (wake cfg ice) = some checked ∧
      ice' = { checked with earlyCheck := [], clistTimer := true } := by
  unfold pjIceSessStartCheck at done
  split at done
  · cases done
    exact .inl ⟨by decide, .inl rfl⟩
  · split at done
    · cases done
      exact .inl ⟨by decide, .inr rfl⟩
    · next first =>
      have ⟨checked, found, same⟩ := Option.map_eq_some_iff.mp done
      cases same
      simp only [ne_eq, decide_not, Bool.not_eq_true, all_eq_false, Bool.not_eq_false',
        decide_eq_true_eq] at first
      exact .inr ⟨first, checked, found, rfl⟩

/-! ## Steps -/

/-- A session creates its checklist when it has none. -/
theorem createCheckList_step {remCand : List Cand}
    (done : step cfg ice (.createCheckList remCand) = some ice') :
    ice.checks = [] ∧ pjIceSessCreateCheckList ice remCand = .ok ice' := by
  have taken : (if ice.checks = [] then (pjIceSessCreateCheckList ice remCand).toOption else none) =
      some ice' := done
  split at taken
  · next fresh =>
    refine ⟨fresh, ?_⟩
    cases found : pjIceSessCreateCheckList ice remCand with
    | error status =>
      rw [found] at taken
      cases taken
    | ok created =>
      rw [found] at taken
      cases taken
      rfl
  · cases taken

/-- The timer of the checklist does something when it is scheduled. -/
theorem periodicTimer_step (done : step cfg ice .periodicTimer = some ice') :
    ice' = ice ∨ ice.clistTimer = true ∧ startPeriodicCheck cfg ice = some ice' := by
  have taken : (if ice.clistTimer = true then startPeriodicCheck cfg ice else some ice) = some ice' := done
  split at taken
  · next scheduled => exact .inr ⟨scheduled, taken⟩
  · exact .inl (Option.some.inj taken).symm

/-- A request that has not ended completes. -/
theorem requestComplete_step {id : Nat} {status : Int}
    (done : step cfg ice (.requestComplete id status mapped srcAddr) = some ice') :
    ice' = ice ∨ ∃ request, request ∈ ice.tsx ∧
      (ice.tsx.find? fun request => request.id = id) = some request ∧
      onStunRequestComplete cfg ice request status mapped srcAddr = some ice' := by
  simp only [step] at done
  split at done
  · exact .inl (Option.some.inj done).symm
  · next request found => exact .inr ⟨request, mem_of_find?_eq_some found, found, done⟩

end Pjnath.Ice
