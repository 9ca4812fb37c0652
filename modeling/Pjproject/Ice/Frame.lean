import Pjproject.Ice.Session

/-!
# What the functions of an ICE session leave alone

Most functions of a session change what its checks have come to, its timers and its transactions,
but neither candidates, roles and the pairs of its lists nor what its components point to. The
sorted valid list has the checks it had, and the pointers into it follow them.
-/

namespace Pjnath.Ice
open List Pj Stun

/-! ## Frames -/

/-- The pair of a check, with its priority. -/
def Check.pair (check : Check) : Nat × Nat × Nat := (check.lcand, check.rcand, check.prio)

/-- The candidates of a check. -/
def Check.key (check : Check) : Nat × Nat := (check.lcand, check.rcand)

/-- The part of a session that its pairs make up. -/
structure Frame where
  role : Role
  lcands : List Cand
  rcands : List Cand
  comps : List Comp
  valid : List Check
  pairs : List (Nat × Nat × Nat)

/-- The frame of a session. -/
def IceSess.frame (ice : IceSess) : Frame :=
  ⟨ice.role, ice.lcands, ice.rcands, ice.comps, ice.valid, ice.checks.map Check.pair⟩

section Frame

variable {ice ice' : IceSess}

section
variable (same : ice'.frame = ice.frame)
include same

theorem frame_role : ice'.role = ice.role :=
  congrArg Frame.role same

theorem frame_lcands : ice'.lcands = ice.lcands :=
  congrArg Frame.lcands same

theorem frame_rcands : ice'.rcands = ice.rcands :=
  congrArg Frame.rcands same

theorem frame_comps : ice'.comps = ice.comps :=
  congrArg Frame.comps same

theorem frame_valid : ice'.valid = ice.valid :=
  congrArg Frame.valid same

theorem frame_pairs : ice'.checks.map Check.pair = ice.checks.map Check.pair :=
  congrArg Frame.pairs same

end

variable {checks : List Check}

variable {checks' : List Check}

theorem length_of_map_pair (same : checks'.map Check.pair = checks.map Check.pair) :
    checks'.length = checks.length := by
  have mapped := congrArg List.length same
  rwa [length_map, length_map] at mapped

theorem frame_length (same : ice'.frame = ice.frame) : ice'.checks.length = ice.checks.length :=
  length_of_map_pair (frame_pairs same)

variable {change : Check → Check}

/-- A list whose entries change keeps its pairs if each entry does. -/
theorem map_modify_pair {slot : Nat} (keeps : ∀ check, (change check).pair = check.pair) :
    (checks.modify slot change).map Check.pair = checks.map Check.pair := by
  apply ext_getElem?
  intro i
  rw [getElem?_map, getElem?_map, getElem?_modify]
  cases checks[i]? with
  | none => rfl
  | some check =>
    by_cases here : slot = i
    · simp [here, keeps]
    · simp [here]

theorem map_map_pair (keeps : ∀ check, (change check).pair = check.pair) :
    (checks.map change).map Check.pair = checks.map Check.pair := by
  rw [map_map]
  exact map_congr_left fun check _ => keeps check

variable {ckid : Nat}

theorem frame_updateCheck (keeps : ∀ check, (change check).pair = check.pair) :
    (ice.updateCheck ckid change).frame = ice.frame := by
  simp only [IceSess.frame, IceSess.updateCheck, map_modify_pair keeps]

@[simp]
theorem frame_checkSetState {state : CheckState} {errCode : Int} :
    (ice.checkSetState ckid state errCode).frame = ice.frame :=
  frame_updateCheck fun _ => rfl

@[simp]
theorem frame_unfreeze {check : Check} : (unfreeze ice check).frame = ice.frame := by
  have keeps : ∀ c : Check,
      (if (ice.lcand c).foundation = (ice.lcand check).foundation ∧ c.state = .frozen then
        { c with state := .waiting, errCode := pjSuccess } else c).pair = c.pair := by
    intro c
    split <;> rfl
  simp only [IceSess.frame, unfreeze, map_map_pair keeps]

theorem frame_cancelOthers {check : Check} (done : cancelOthers ice check = some ice') :
    ice'.frame = ice.frame := by
  unfold cancelOthers at done
  simp only [Option.ite_none_left_eq_some, Option.some.injEq] at done
  obtain ⟨-, rfl⟩ := done
  unfold IceSess.frame
  rw [map_map_pair]
  intro c
  split
  · rfl
  · split <;> rfl

variable {cfg : Config}

@[simp]
theorem frame_onIceComplete {status : Int} :
    (onIceComplete cfg ice status).frame = ice.frame := by
  unfold onIceComplete
  split <;> rfl

theorem map_renominate {slot : Nat} :
    (renominate ice slot checks).map Check.pair = checks.map Check.pair := by
  unfold renominate
  dsimp only
  split
  · rfl
  · exact map_modify_pair fun _ => rfl

theorem map_renominateAll {comps : List Comp}
    (done : renominateAll ice comps checks = some checks') :
    checks'.map Check.pair = checks.map Check.pair := by
  induction comps generalizing checks with
  | nil => rw [Option.some.inj done]
  | cons comp rest ih =>
    unfold renominateAll at done
    cases found : comp.validCheck with
    | none => simp [found] at done
    | some slot =>
      rw [found] at done
      exact (ih done).trans map_renominate

/-- What `start_nominated_check` does. -/
theorem startNominatedCheck_eq (done : startNominatedCheck ice = some ice') :
    ∃ checks, renominateAll ice ice.comps ice.checks = some checks ∧
      ice' = { ice with
        timer := if ice.timer = .startNominatedCheck then .none else ice.timer
        checks := checks
        clistTimer := true
        isNominating := true } := by
  unfold startNominatedCheck at done
  cases found : renominateAll ice ice.comps ice.checks with
  | none => simp [found] at done
  | some checks =>
    rw [found] at done
    exact ⟨checks, rfl, (Option.some.inj done).symm⟩

theorem frame_startNominatedCheck (done : startNominatedCheck ice = some ice') :
    ice'.frame = ice.frame := by
  obtain ⟨checks, renominated, rfl⟩ := startNominatedCheck_eq done
  simp only [IceSess.frame, map_renominateAll renominated]

variable {complete : Bool}

theorem frame_onAllChecksDone (done : onAllChecksDone cfg ice = some (ice', complete)) :
    ice'.frame = ice.frame := by
  unfold onAllChecksDone at done
  split at done
  · split at done
    · cases done
      exact frame_onIceComplete
    · split at done <;> cases done <;> rfl
  · split at done
    · cases done
      exact frame_onIceComplete
    · split at done
      · cases done
        exact frame_onIceComplete
      · have ⟨started, found, same⟩ := Option.map_eq_some_iff.mp done
        cases same
        exact frame_startNominatedCheck found

theorem frame_onPairStates {check : Check}
    (done : onPairStates cfg ice check = some (ice', complete)) : ice'.frame = ice.frame := by
  unfold onPairStates at done
  split at done
  · cases done
    exact frame_onIceComplete
  · split at done
    · exact frame_onAllChecksDone done
    · split at done <;> cases done <;> rfl

section
variable (done : onCheckComplete cfg ice ckid = some (ice', complete))
include done

/-- A check that is done leads to the end of ICE, or to what follows. -/
theorem onCheckComplete_cases :
    ∃ unfrozen settled : IceSess,
      (unfrozen = ice ∨
        (checkAt ice.checks ckid).errCode = pjSuccess ∧
          unfrozen = unfreeze ice (checkAt ice.checks ckid)) ∧
      (settled = unfrozen ∨ cancelOthers unfrozen (checkAt ice.checks ckid) = some settled) ∧
      onPairStates cfg settled (checkAt ice.checks ckid) = some (ice', complete) := by
  unfold onCheckComplete at done
  by_cases succeeded : (checkAt ice.checks ckid).errCode = pjSuccess
  · simp only [succeeded, if_true, true_and] at done
    by_cases nominated : (checkAt ice.checks ckid).nominated = true
    · simp only [nominated, if_true] at done
      have ⟨settled, cancelled, rest⟩ := Option.bind_eq_some_iff.mp done
      exact ⟨_, settled, .inr ⟨succeeded, rfl⟩, .inr cancelled, rest⟩
    · simp only [nominated, Bool.false_eq_true, if_false] at done
      exact ⟨_, _, .inr ⟨succeeded, rfl⟩, .inl rfl, done⟩
  · simp only [succeeded, if_false, false_and] at done
    exact ⟨_, _, .inl rfl, .inl rfl, done⟩

theorem frame_onCheckComplete : ice'.frame = ice.frame := by
  have ⟨unfrozen, settled, first, second, rest⟩ := onCheckComplete_cases done
  have same : unfrozen.frame = ice.frame := by
    rcases first with rfl | ⟨-, rfl⟩
    · rfl
    · exact frame_unfreeze
  have same' : settled.frame = unfrozen.frame := by
    rcases second with rfl | cancelled
    · rfl
    · exact frame_cancelOthers cancelled
  exact (frame_onPairStates rest).trans (same'.trans same)

end

theorem frame_failCheck {status : Int} (done : failCheck cfg ice ckid status = some ice') :
    ice'.frame = ice.frame := by
  obtain ⟨⟨ice'', complete⟩, found, rfl⟩ := Option.map_eq_some_iff.mp done
  exact (frame_onCheckComplete found).trans frame_checkSetState

/-- What a call of `perform_check` leaves behind: the check after a change, and the request, if the
STUN session took it. -/
structure Performed (cfg : Config) (ice : IceSess) (ckid : Nat) (nominate : Bool)
    (change : Check → Check) (sent : List CheckRequest) (ice' : IceSess) (status : Int) : Prop where
  eq : ice' = { ice with
    checks := ice.checks.modify ckid change
    tsx := ice.tsx ++ sent
    log := ice.log ++ sent.map .request
    nextTdata := ice.nextTdata + 1 }
  comp : ice.findComp (ice.lcand (checkAt ice.checks ckid)).compId ≠ none
  one : sent = [] ∨ sent = [checkRequest cfg ice ckid nominate]
  pair : ∀ check, (change check).pair = check.pair
  failed : status ≠ pjSuccess → ∀ check,
    (change check).state = check.state ∧ (change check).errCode = check.errCode
  started : status = pjSuccess → sent = [checkRequest cfg ice ckid nominate] ∧ ∀ check,
    (change check).state = .inProgress ∧ (change check).tdata = some ice.nextTdata

section
variable {nominate : Bool} {status : Int}
  (done : performCheck cfg ice ckid nominate = some (ice', status))
include done

theorem performCheck_performed :
    ∃ change sent, Performed cfg ice ckid nominate change sent ice' status := by
  unfold performCheck at done
  cases found : ice.findComp (ice.lcand (checkAt ice.checks ckid)).compId with
  | none => simp [found] at done
  | some comp =>
    have known : ice.findComp (ice.lcand (checkAt ice.checks ckid)).compId ≠ none := by
      rw [found]
      exact Option.some_ne_none comp
    simp only [found] at done
    split at done
    · next failed =>
      cases done
      exact ⟨id, [], ⟨by simp, known, .inl rfl, fun _ => rfl, fun _ _ => ⟨rfl, rfl⟩,
        fun success => absurd success failed⟩⟩
    · let flag (check : Check) : Check :=
        { check with
          nominated := check.nominated || (checkRequest cfg ice ckid nominate).useCandidate
          tdata := none }
      by_cases success : (cfg.tx ice.nextTdata).send = pjSuccess
      · simp only [success, ne_eq, not_true_eq_false, if_false] at done
        cases done
        refine ⟨fun check => { flag check with
            tdata := some ice.nextTdata, state := .inProgress, errCode := pjSuccess },
          [checkRequest cfg ice ckid nominate], ⟨?_, known, .inr rfl, fun _ => rfl,
          fun failed => absurd rfl failed, fun _ => ⟨rfl, fun _ => ⟨rfl, rfl⟩⟩⟩⟩
        have taken : accepted pjSuccess = true := rfl
        simp only [taken, if_true, IceSess.checkSetState, IceSess.emit, IceSess.updateCheck,
          modify_modify_eq, map_cons, map_nil]
        rfl
      · simp only [success, ne_eq, not_false_eq_true, if_true] at done
        cases done
        by_cases taken : accepted (cfg.tx ice.nextTdata).send = true
        · refine ⟨flag, [checkRequest cfg ice ckid nominate], ⟨?_, known, .inr rfl, fun _ => rfl,
            fun _ _ => ⟨rfl, rfl⟩, fun sent => absurd sent success⟩⟩
          simp only [taken, if_true, IceSess.emit, IceSess.updateCheck,
            modify_modify_eq, map_cons, map_nil]
          rfl
        · refine ⟨flag, [], ⟨?_, known, .inl rfl, fun _ => rfl,
            fun _ _ => ⟨rfl, rfl⟩, fun sent => absurd sent success⟩⟩
          simp only [taken, Bool.false_eq_true, if_false, IceSess.updateCheck,
            modify_modify_eq, map_nil, append_nil]
          rfl

theorem frame_performCheck : ice'.frame = ice.frame := by
  have ⟨change, sent, performed⟩ := performCheck_performed done
  rw [performed.eq]
  simp only [IceSess.frame, map_modify_pair performed.pair]

end

theorem map_wakeFirsts {compId : Nat} {seen : List Str} :
    (wakeFirsts ice compId seen checks).map Check.pair = checks.map Check.pair := by
  induction checks generalizing seen with
  | nil => rfl
  | cons check rest ih =>
    unfold wakeFirsts
    dsimp only
    split
    · rw [map_cons, map_cons, ih]
      split <;> rfl
    · rw [map_cons, map_cons, ih]

theorem frame_wake : (wake cfg ice).frame = ice.frame := by
  simp only [IceSess.frame, wake, map_wakeFirsts]

theorem frame_onTimer (done : onTimer cfg ice = some ice') :
    ice'.frame = ice.frame := by
  have stopped : { ice with timer := .none }.frame = ice.frame := rfl
  unfold onTimer at done
  dsimp only at done
  split at done
  · cases done
    exact frame_onIceComplete
  · obtain ⟨kept, found, rfl⟩ := Option.map_eq_some_iff.mp done
    split at found <;> cases found <;> rfl
  · exact (frame_startNominatedCheck done).trans stopped
  · unfold iceKeepAlive at done
    simp only [if_true] at done
    split at done
    · cases done
    · cases done
    · cases done
      rfl
  · cases done
    rfl

theorem frame_startPeriodicCheck (done : startPeriodicCheck cfg ice = some ice') :
    ice'.frame = ice.frame := by
  unfold startPeriodicCheck at done
  dsimp only at done
  split at done
  · cases done
    rfl
  · have ⟨⟨performed, status⟩, found, rest⟩ := Option.bind_eq_some_iff.mp done
    have same : performed.frame = ice.frame := (frame_performCheck found).trans rfl
    obtain ⟨settled, rest', rfl⟩ := Option.map_eq_some_iff.mp rest
    refine Eq.trans (show settled.frame = performed.frame from ?_) same
    split at rest'
    · exact frame_failCheck rest'
    · cases rest'
      rfl

end Frame

end Pjnath.Ice
