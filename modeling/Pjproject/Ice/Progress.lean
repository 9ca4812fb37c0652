import Pjproject.Ice.Invariant
import Pjproject.Ice.Paths

/-!
# The progress of an ICE session

A session that has started and has not ended has something pending: a check in progress with its
transaction, the timer of the checklist, or its own timer. The timer of the checklist stops when no
check waits, so a check that waits later has to be started at once; this is what a retry after a
role conflict and a triggered check of a new pair do, whatever becomes of the request.
-/

namespace Pjnath.Ice
open List Pj Stun

variable {cfg : Config} {ice ice' : IceSess} {ckid : Nat} {started : Prop}

/-! ## What is pending -/

/-- Some check is not done. -/
def HasPending (checks : List Check) : Prop := ∃ check ∈ checks, check.state.isPending = true

/-- The check is for the timer of the checklist. -/
def IsQueued (check : Check) : Prop := check.state = .waiting ∨ check.state = .frozen

/-- A check can be started by the timer, or no check has to be. -/
def Scheduled (ice : IceSess) : Prop :=
  ice.isComplete = false → ice.clistTimer = false → ∀ check ∈ ice.checks, ¬IsQueued check

/-- A session with checks goes on. The timer of the checklist is relied on once it has started. -/
structure Going (started : Prop) (ice : IceSess) : Prop where
  comps : ice.checks ≠ [] → ice.comps ≠ []
  alive : ice.checks ≠ [] → ice.isComplete = false → ice.timer = .none → HasPending ice.checks
  ended : ice.timer = .completionCallback ∨ ice.timer = .keepAlive → ice.isComplete = true
  scheduled : started → Scheduled ice

/-- Something is pending, or the session has ended. -/
def Busy (ice : IceSess) : Prop :=
  ice.isComplete = true ∨
    (∃ check ∈ ice.checks, check.state = .inProgress ∧
      ∃ request ∈ ice.tsx, check.tdata = some request.id) ∨
    ice.clistTimer = true ∨ ice.timer ≠ .none

theorem Going.busy (going : Going True ice) (live : Live ice none) (some' : ice.checks ≠ []) :
    Busy ice := by
  by_cases ended : ice.isComplete = true
  · exact .inl ended
  by_cases scheduled : ice.clistTimer = true
  · exact .inr (.inr (.inl scheduled))
  by_cases timer : ice.timer = .none
  · have running : ice.isComplete = false := Bool.eq_false_iff.mpr ended
    have ⟨check, member, pending⟩ := going.alive some' running timer
    have idle := going.scheduled trivial running (Bool.eq_false_iff.mpr scheduled) check member
    have inProgress : check.state = .inProgress := by
      unfold IsQueued at idle
      cases state : check.state <;> simp_all [CheckState.isPending]
    have ⟨i, found⟩ := mem_iff_getElem?.mp member
    have ⟨request, among, _, tdata⟩ := live.live i check (Option.some_ne_none i).symm found
      inProgress
    exact .inr (.inl ⟨check, member, inProgress, request, among, tdata⟩)
  · exact .inr (.inr (.inr timer))

/-! ## Changes that end nothing -/

/-- The checks change one by one, none that was pending is done, and none is queued anew. -/
structure Calm (checks checks' : List Check) : Prop where
  some' : checks' ≠ [] → checks ≠ []
  pending : HasPending checks → HasPending checks'
  queued : ∀ check' ∈ checks', IsQueued check' → ∃ check ∈ checks, IsQueued check

theorem Calm.refl (checks : List Check) : Calm checks checks :=
  ⟨id, id, fun check member queued => ⟨check, member, queued⟩⟩

/-- A check is changed, and is pending if it was. -/
theorem calm_modify {checks : List Check} {change : Check → Check}
    (pending : ∀ check, check.state.isPending = true → (change check).state.isPending = true)
    (queued : ∀ check, IsQueued (change check) → IsQueued check) :
    Calm checks (checks.modify ckid change) := by
  have each : ∀ (i : Nat) (check' : Check), (checks.modify ckid change)[i]? = some check' →
      ∃ check, checks[i]? = some check ∧ (check' = check ∨ check' = change check) := by
    intro i check' found
    rw [getElem?_modify] at found
    have ⟨check, found', same⟩ := Option.map_eq_some_iff.mp found
    refine ⟨check, found', ?_⟩
    split at same
    · exact .inr same.symm
    · exact .inl same.symm
  refine ⟨?_, ?_, ?_⟩
  · intro some' empty
    rw [empty, modify_nil] at some'
    exact some' rfl
  · rintro ⟨check, member, still⟩
    have ⟨i, found⟩ := mem_iff_getElem?.mp member
    have there : i < (checks.modify ckid change).length := by
      rw [length_modify]
      exact (List.getElem?_eq_some_iff.mp found).1
    have found' := getElem?_eq_getElem there
    have ⟨check', before, same⟩ := each i _ found'
    rw [found] at before
    cases before
    refine ⟨_, getElem_mem there, ?_⟩
    rcases same with same | same
    · rw [same]
      exact still
    · rw [same]
      exact pending check still
  · intro check' member waits
    have ⟨i, found⟩ := mem_iff_getElem?.mp member
    have ⟨check, before, same⟩ := each i check' found
    refine ⟨check, mem_of_getElem? before, ?_⟩
    rcases same with rfl | rfl
    · exact waits
    · exact queued check waits

/-- Nothing but the checks and what does not matter changes. -/
theorem Going.calm (going : Going started ice) (calm : Calm ice.checks ice'.checks)
    (comps : ice.comps ≠ [] → ice'.comps ≠ []) (complete : ice'.isComplete = ice.isComplete)
    (timer : ice'.timer = ice.timer) (clistTimer : ice'.clistTimer = ice.clistTimer) :
    Going started ice' :=
  { comps := fun some' => comps (going.comps (calm.some' some'))
    alive := fun some' running none' => by
      rw [complete] at running
      rw [timer] at none'
      exact calm.pending (going.alive (calm.some' some') running none')
    ended := fun over' => by
      rw [timer] at over'
      rw [complete]
      exact going.ended over'
    scheduled := fun now running stopped check' member queued => by
      rw [complete] at running
      rw [clistTimer] at stopped
      have ⟨check, among, before⟩ := calm.queued check' member queued
      exact going.scheduled now running stopped check among before }

/-- While the timer of the checklist is scheduled no check need be watched. -/
theorem Going.watch (going : Going False ice) (scheduled : started → Scheduled ice) :
    Going started ice :=
  { going with scheduled := scheduled }

/-! ## The end of a check -/

variable {status : Int} {check : Check}

/-- A nominated check of a session whose pairs have ways waits to be started. -/
theorem pending_startNominatedCheck (paths : Paths ice) (comps : ice.comps ≠ [])
    (done : startNominatedCheck ice = some ice') : HasPending ice'.checks := by
  obtain ⟨checks, renominated, rfl⟩ := startNominatedCheck_eq done
  have ⟨comp, rest, same⟩ := exists_cons_of_ne_nil comps
  rw [same, renominateAll] at renominated
  cases points : comp.validCheck with
  | none => simp [points] at renominated
  | some slot =>
    rw [points] at renominated
    have own : comp ∈ ice.comps := by
      rw [same]
      exact mem_cons_self
    have inside := paths.pointed comp own slot points
    have ⟨check, member, way, remote⟩ := paths.known _ (checkAt_mem inside)
    -- The search finds the check of the pair, or one before it.
    obtain ⟨ckid, found⟩ : ∃ ckid, (ice.checks.findIdx? fun check =>
        (ice.lcand check).transportId = (ice.lcand (checkAt ice.valid slot)).transportId &&
          check.rcand = (checkAt ice.valid slot).rcand) = some ckid := by
      apply Option.isSome_iff_exists.mp
      rw [findIdx?_isSome, any_eq_true]
      refine ⟨check, member, ?_⟩
      simp only [Bool.and_eq_true, decide_eq_true_eq]
      exact ⟨way, remote⟩
    have first : (renominate ice slot ice.checks)[ckid]? =
        some { checkAt ice.checks ckid with state := .waiting, errCode := pjSuccess } := by
      have there := checkAt_of_findIdx? found
      unfold renominate
      dsimp only
      rw [found]
      rw [getElem?_modify_eq, checkAt, getD_eq_getElem?_getD,
        getElem?_eq_getElem there.1]
      rfl
    have length := length_of_map_pair (map_renominateAll renominated)
    have inside' : ckid < checks.length := by
      rw [length]
      exact (List.getElem?_eq_some_iff.mp first).1
    have found' := getElem?_eq_getElem inside'
    refine ⟨checks[ckid], getElem_mem inside', ?_⟩
    rcases renominateAll_states renominated found' with waits | kept
    · rw [waits]
      rfl
    · rw [first] at kept
      rw [← Option.some.inj kept]
      rfl

/-- After a check is done a session goes on. -/
structure Settled (ice ice' : IceSess) : Prop where
  alive : ice'.isComplete = false → ice'.timer = .none → HasPending ice'.checks
  ended : (ice.timer = .completionCallback ∨ ice.timer = .keepAlive → ice.isComplete = true) →
    (ice'.timer = .completionCallback ∨ ice'.timer = .keepAlive → ice'.isComplete = true)
  scheduled : Scheduled ice → Scheduled ice'

theorem settled_onIceComplete : Settled ice (onIceComplete cfg ice status) := by
  have over' : (onIceComplete cfg ice status).isComplete = true := by
    unfold onIceComplete
    split
    · next ended => exact ended
    · rfl
  refine ⟨fun running => ?_, fun _ _ => over', fun _ running => ?_⟩
  · rw [over'] at running
    cases running
  · rw [over'] at running
    cases running

theorem settled_startNominatedCheck (paths : Paths ice) (comps : ice.comps ≠ [])
    (done : startNominatedCheck ice = some ice') : Settled ice ice' := by
  have pending := pending_startNominatedCheck paths comps done
  obtain ⟨checks, -, rfl⟩ := startNominatedCheck_eq done
  refine ⟨fun _ _ => pending, fun ended over' => ended ?_, fun _ _ stopped => ?_⟩
  · split at over'
    · rcases over' with over' | over' <;> cases over'
    · exact over'
  · cases stopped

section
variable {complete : Bool} (paths : Paths ice) (comps : ice.comps ≠ [])
  (waits : 0 ≤ cfg.controlledAgentWantNomTimeout)
include paths comps waits

theorem settled_onAllChecksDone (done : onAllChecksDone cfg ice = some (ice', complete)) :
    Settled ice ice' := by
  unfold onAllChecksDone at done
  split at done
  · split at done
    · cases done
      exact settled_onIceComplete
    · split at done
      · cases done
        refine ⟨fun _ none' => ?_, fun _ over' => ?_, fun scheduled => scheduled⟩
        · cases none'
        · rcases over' with over' | over' <;> cases over'
      · next busy =>
        cases done
        have timer : ice.timer ≠ .none := fun none' => busy ⟨none', waits⟩
        exact ⟨fun _ none' => absurd none' timer, id, id⟩
  · split at done
    · cases done
      exact settled_onIceComplete
    · split at done
      · cases done
        exact settled_onIceComplete
      · have ⟨started, found, same⟩ := Option.map_eq_some_iff.mp done
        cases same
        exact settled_startNominatedCheck paths comps found

theorem settled_onPairStates (done : onPairStates cfg ice check = some (ice', complete)) :
    Settled ice ice' := by
  unfold onPairStates at done
  split at done
  · cases done
    exact settled_onIceComplete
  · split at done
    · exact settled_onAllChecksDone paths comps waits done
    · next some' =>
      have pending : HasPending ice.checks := by
        simp only [Bool.not_eq_true, all_eq_false, Bool.not_eq_false'] at some'
        exact some'
      split at done
      · cases done
        refine ⟨fun _ _ => pending, fun _ over' => ?_, fun scheduled => scheduled⟩
        rcases over' with over' | over' <;> cases over'
      · cases done
        exact ⟨fun _ _ => pending, id, id⟩

end

theorem scheduled_of_queued (scheduled : Scheduled ice) (complete : ice'.isComplete = ice.isComplete)
    (clistTimer : ice'.clistTimer = ice.clistTimer)
    (queued : ∀ check' ∈ ice'.checks, IsQueued check' → ∃ check ∈ ice.checks, IsQueued check) :
    Scheduled ice' := by
  intro running stopped check' member waits
  rw [complete] at running
  rw [clistTimer] at stopped
  have ⟨check, among, before⟩ := queued check' member waits
  exact scheduled running stopped check among before

theorem scheduled_unfreeze (scheduled : Scheduled ice) :
    Scheduled (unfreeze ice check) := by
  refine scheduled_of_queued scheduled rfl rfl ?_
  intro check' member waits
  have ⟨before, among, same⟩ := mem_map.mp member
  refine ⟨before, among, ?_⟩
  split at same
  · next frozen => exact .inr frozen.2
  · rw [same]
    exact waits

theorem scheduled_cancelOthers (scheduled : Scheduled ice)
    (done : cancelOthers ice check = some ice') : Scheduled ice' := by
  unfold cancelOthers at done
  dsimp only at done
  split at done
  · cases done
  · cases done
    refine scheduled_of_queued scheduled rfl rfl ?_
    intro check' member waits
    have ⟨before, among, same⟩ := mem_map.mp member
    refine ⟨before, among, ?_⟩
    split at same
    · rw [← same] at waits
      rcases waits with state | state <;> cases state
    · split at same
      · rw [← same] at waits
        rcases waits with state | state <;> cases state
      · rw [same]
        exact waits

/-- A session in which a check is being dealt with. -/
structure Doing (started : Prop) (ice : IceSess) : Prop where
  comps : ice.comps ≠ []
  ended : ice.timer = .completionCallback ∨ ice.timer = .keepAlive → ice.isComplete = true
  scheduled : started → Scheduled ice

theorem Going.doing (going : Going started ice) (some' : ice.checks ≠ []) : Doing started ice :=
  ⟨going.comps some', going.ended, going.scheduled⟩

theorem Doing.set (doing : Doing started ice) {state : CheckState} (done : state.isPending = false)
    {errCode : Int} : Doing started (ice.checkSetState ckid state errCode) := by
  refine ⟨doing.comps, doing.ended, fun now => ?_⟩
  refine scheduled_of_queued (doing.scheduled now) rfl rfl ?_
  intro check' member waits
  obtain ⟨i, found⟩ := mem_iff_getElem?.mp member
  rw [IceSess.checkSetState, IceSess.updateCheck, getElem?_modify] at found
  obtain ⟨check, before, same⟩ := Option.map_eq_some_iff.mp found
  refine ⟨check, mem_of_getElem? before, ?_⟩
  split at same
  · rw [← same] at waits
    have state' : state = .waiting ∨ state = .frozen := waits
    rcases state' with rfl | rfl <;> cases done
  · rw [same]
    exact waits

section
variable (waits : 0 ≤ cfg.controlledAgentWantNomTimeout) (paths : Paths ice)
  (doing : Doing started ice)
include waits paths doing

theorem going_onCheckComplete {complete : Bool}
    (done : onCheckComplete cfg ice ckid = some (ice', complete)) : Going started ice' := by
  have ⟨unfrozen, settled, first, second, rest⟩ := onCheckComplete_cases done
  have before : Paths unfrozen ∧ Doing started unfrozen := by
    rcases first with rfl | ⟨-, rfl⟩
    · exact ⟨paths, doing⟩
    · exact ⟨paths.of_frame frame_unfreeze fun _ member => .inl member, doing.comps, doing.ended,
        fun now => scheduled_unfreeze (doing.scheduled now)⟩
  have after : Paths settled ∧ Doing started settled := by
    rcases second with rfl | cancelled
    · exact before
    · have frame := frame_cancelOthers cancelled
      have same : settled.isComplete = unfrozen.isComplete ∧ settled.timer = unfrozen.timer := by
        unfold cancelOthers at cancelled
        dsimp only at cancelled
        split at cancelled
        · cases cancelled
        · cases cancelled
          exact ⟨rfl, rfl⟩
      refine ⟨before.1.of_frame frame fun request member =>
        .inl (keeps_cancelOthers cancelled request member), ?_, ?_, ?_⟩
      · rw [frame_comps frame]
        exact before.2.comps
      · rw [same.1, same.2]
        exact before.2.ended
      · exact fun now => scheduled_cancelOthers (before.2.scheduled now) cancelled
  have result := settled_onPairStates after.1 after.2.comps waits rest
  have frame := frame_onPairStates rest
  exact
    { comps := fun _ => by
        rw [frame_comps frame]
        exact after.2.comps
      alive := fun _ => result.alive
      ended := result.ended after.2.ended
      scheduled := fun now => result.scheduled (after.2.scheduled now) }

theorem going_failCheck (done : failCheck cfg ice ckid status = some ice') :
    Going started ice' := by
  obtain ⟨⟨settled, complete⟩, found, rfl⟩ := Option.map_eq_some_iff.mp done
  exact going_onCheckComplete waits (paths_checkSetState paths) (doing.set rfl) found

end

/-! ## Checks -/

variable {rcheck : RxCheck}

theorem going_performCheck (going : Going started ice) {nominate : Bool}
    (done : performCheck cfg ice ckid nominate = some (ice', status)) : Going started ice' := by
  have ⟨change, sent, performed⟩ := performCheck_performed done
  obtain rfl := performed.eq
  refine going.calm (calm_modify (fun check pending => ?_) fun check queued => ?_) id rfl rfl rfl
  · by_cases success : status = pjSuccess
    · rw [((performed.started success).2 check).1]
      rfl
    · rw [(performed.failed success check).1]
      exact pending
  · unfold IsQueued at queued ⊢
    by_cases success : status = pjSuccess
    · rw [((performed.started success).2 check).1] at queued
      rcases queued with state | state <;> cases state
    · rw [(performed.failed success check).1] at queued
      exact queued

/-- The next request is created and sent, or what fails to start will be started, or need not be. -/
def Sends (cfg : Config) (ice : IceSess) : Prop :=
  ice.isComplete = true ∨ ice.clistTimer = true ∨
    (cfg.tx ice.nextTdata).create = pjSuccess ∧ (cfg.tx ice.nextTdata).send = pjSuccess

instance (cfg : Config) (ice : IceSess) : Decidable (Sends cfg ice) :=
  inferInstanceAs (Decidable (_ ∨ _ ∨ _ ∧ _))

/-- A check that is performed is the only one that was queued. -/
theorem scheduled_performCheck {nominate : Bool} (sends : Sends cfg ice)
    (others : ice.isComplete = false → ice.clistTimer = false →
      ∀ (i : Nat) (check : Check), i ≠ ckid → ice.checks[i]? = some check → ¬IsQueued check)
    (done : performCheck cfg ice ckid nominate = some (ice', status)) : Scheduled ice' := by
  have success : ice.isComplete = false → ice.clistTimer = false → status = pjSuccess := by
    intro running stopped
    rcases sends with ended | scheduled | ⟨create, send⟩
    · rw [running] at ended
      cases ended
    · rw [stopped] at scheduled
      cases scheduled
    · unfold performCheck at done
      split at done
      · cases done
      · simp only [create, send, ne_eq, not_true_eq_false, if_false, Option.some.injEq,
          Prod.mk.injEq] at done
        exact done.2.symm
  have ⟨change, sent, performed⟩ := performCheck_performed done
  obtain rfl := performed.eq
  intro running stopped check' member queued
  have ⟨i, found⟩ := mem_iff_getElem?.mp member
  rw [getElem?_modify] at found
  have ⟨check, before, same⟩ := Option.map_eq_some_iff.mp found
  split at same
  · rw [← same, IsQueued, ((performed.started (success running stopped)).2 check).1] at queued
    rcases queued with state | state <;> cases state
  · next other =>
    rw [← same] at queued
    exact others running stopped i check (fun here => other here.symm) before queued

theorem doing_updateCompCheck (doing : Doing started ice) {compId slot : Nat}
    (done : updateCompCheck ice compId slot = some ice') : Doing started ice' := by
  unfold updateCompCheck at done
  split at done
  · cases done
  · cases done
    refine ⟨fun empty => doing.comps ?_, doing.ended, doing.scheduled⟩
    have length := congrArg List.length empty
    rw [length_set] at length
    exact length_eq_zero_iff.mp length

theorem doing_nominateValid (doing : Doing started ice) {slot : Nat}
    (done : nominateValid check ice slot = some ice') : Doing started ice' := by
  unfold nominateValid at done
  dsimp only at done
  split at done
  · refine doing_updateCompCheck ?_ done
    exact ⟨doing.comps, doing.ended, doing.scheduled⟩
  · cases done
    exact doing

theorem going_triggerCheck (waits : 0 ≤ cfg.controlledAgentWantNomTimeout) (paths : Paths ice)
    (going : Going started ice) (inside : ckid < ice.checks.length)
    (done : triggerCheck cfg ice rcheck ckid = some ice') : Going started ice' := by
  have ⟨flagged, same, outcome⟩ := triggerCheck_cases done
  have going' : Going started flagged := by
    rw [same]
    refine going.calm (calm_modify (fun _ pending => pending) fun _ queued => queued) id rfl rfl rfl
  rcases outcome with ⟨-, nominate, status, performed⟩ | ⟨-, nominated, complete, first, rest⟩ |
    ⟨-, rfl⟩
  · exact going_performCheck going' performed
  · have frame : flagged.frame = ice.frame := by
      rw [same, frame_updateCheck]
      exact fun _ => rfl
    have tsx : flagged.tsx = ice.tsx := by rw [same]; rfl
    have paths' : Paths flagged := paths.of_frame frame fun _ member => .inl (tsx ▸ member)
    have some' : flagged.checks ≠ [] := by
      apply ne_nil_of_length_pos
      rw [frame_length frame]
      exact Nat.zero_lt_of_lt inside
    have doing : Doing started flagged := going'.doing some'
    have nominated' : Paths nominated ∧ Doing started nominated := by
      rcases first with rfl | ⟨-, loop⟩
      · exact ⟨paths', doing⟩
      · refine (Run.foldlM_kept (fun other : IceSess => (Paths other ∧ Doing started other) ∧
          other.valid.length = flagged.valid.length) ?_ ⟨⟨paths', doing⟩, rfl⟩ loop).1
        intro slot member state state' kept found
        have inside : slot < state.valid.length := kept.2 ▸ mem_range.mp member
        refine ⟨⟨paths_nominateValid kept.1.1 inside found, doing_nominateValid kept.1.2 found⟩, ?_⟩
        exact (length_of_map_pair (congrArg Pairing.valid (pairing_nominateValid found))).trans kept.2
    exact going_onCheckComplete waits nominated'.1 nominated'.2 rest
  · exact going'

/-- An incoming check is of a pair that the checklist does not have and has room for. -/
def AddsCheck (ice : IceSess) (rcheck : RxCheck) : Prop :=
  (findRcand ice.rcands rcheck.srcAddr = none → ice.rcands.length < iceMaxCand) ∧
    ice.checks.length < iceMaxChecks ∧
    ∃ lcand ∈ findLcand ice rcheck.compId rcheck.transportId, ∀ check ∈ ice.checks,
      check.key ≠ (lcand, (findRcand ice.rcands rcheck.srcAddr).getD ice.rcands.length)

section
variable (waits : 0 ≤ cfg.controlledAgentWantNomTimeout) (paths : Paths ice)
  (going : Going started ice)
include waits paths going

theorem going_handleIncomingCheck (sends : started → AddsCheck ice rcheck → Sends cfg ice)
    (done : handleIncomingCheck cfg ice rcheck = some ice') : Going started ice' := by
  rcases handleIncomingCheck_cases done with rfl | ⟨known, rcand, learned, outcome⟩
  · exact going
  have known' : Paths known ∧ Going started known ∧ known.checks = ice.checks ∧
      known.isComplete = ice.isComplete ∧ known.clistTimer = ice.clistTimer ∧
      known.nextTdata = ice.nextTdata := by
    rcases learned with ⟨-, rfl⟩ | ⟨-, -, -, rfl⟩
    · exact ⟨paths, going, rfl, rfl, rfl, rfl⟩
    · refine ⟨?_, going.calm (Calm.refl _) id rfl rfl rfl, rfl, rfl, rfl, rfl⟩
      exact paths.congr rfl rfl rfl (fun _ member => .inl member) paths.pointed
  have ⟨paths', going', checks, complete, clistTimer, nextTdata⟩ := known'
  rcases outcome with rfl |
    ⟨lcand, found, ⟨ckid, -, inside, triggers⟩ | ⟨anew, rfl | ⟨room, nominate, status, performed⟩⟩⟩
  · exact going'
  · exact going_triggerCheck waits paths' going' (checks.symm ▸ inside) triggers
  · exact going'
  · have some' : ice.checks ≠ [] := by
      have ⟨check, member, _⟩ := findLcand_spec found
      exact ne_nil_of_mem member
    have adds : AddsCheck ice rcheck := by
      have remote : rcand = (findRcand ice.rcands rcheck.srcAddr).getD ice.rcands.length ∧
          (findRcand ice.rcands rcheck.srcAddr = none → ice.rcands.length < iceMaxCand) := by
        rcases learned with ⟨found', -⟩ | ⟨found', room', rfl, -⟩
        · rw [found']
          exact ⟨rfl, fun absent => absurd absent (Option.some_ne_none rcand)⟩
        · rw [found']
          exact ⟨rfl, fun _ => room'⟩
      exact ⟨remote.2, room, lcand, found, remote.1 ▸ anew⟩
    have last : ∀ (i : Nat) (check : Check), i ≠ ice.checks.length →
        (ice.checks ++ [triggered known rcheck lcand rcand])[i]? = some check →
          check ∈ ice.checks := by
      intro i check other at'
      have inside := (List.getElem?_eq_some_iff.mp at').1
      rw [length_append, length_singleton] at inside
      rw [getElem?_append_left (by omega)] at at'
      exact mem_of_getElem? at'
    -- The session with the new check, whose timers are not relied on.
    have added : Going False { known with checks := ice.checks ++ [triggered known rcheck lcand rcand] } :=
      { comps := fun _ => going'.comps (checks.symm ▸ some')
        alive := fun _ running none' => by
          have ⟨check, member, pending⟩ := going'.alive (checks.symm ▸ some') running none'
          exact ⟨check, mem_append_left _ (checks ▸ member), pending⟩
        ended := going'.ended
        scheduled := False.elim }
    refine (going_performCheck added performed).watch fun now => ?_
    refine scheduled_performCheck ?_ ?_ performed
    · have sends' := sends now adds
      rw [complete, clistTimer, nextTdata]
      exact sends'
    · intro running stopped i check other at'
      rw [complete] at running
      rw [clistTimer] at stopped
      exact going.scheduled now running stopped check (last i check other at')

theorem going_startPeriodicCheck (done : startPeriodicCheck cfg ice = some ice') :
    Going started ice' := by
  have stopped : Going False { ice with clistTimer := false } :=
    ⟨going.comps, going.alive, going.ended, False.elim⟩
  have paths' : Paths { ice with clistTimer := false } :=
    paths.of_frame rfl fun _ member => .inl member
  unfold startPeriodicCheck at done
  dsimp only at done
  split at done
  · next nothing =>
    cases done
    refine stopped.watch fun _ _ _ check member queued => ?_
    -- Neither search found a check.
    unfold nextCheck at nothing
    split at nothing
    · cases nothing
    · next idle =>
      have waits' := findIdx?_eq_none_iff.mp idle check member
      have frozen := findIdx?_eq_none_iff.mp nothing check member
      rcases queued with state | state
      · simp [state] at waits'
      · simp [state] at frozen
  · next ckid found =>
    have ⟨⟨performed, status⟩, first, rest⟩ := Option.bind_eq_some_iff.mp done
    obtain ⟨settled, rest', rfl⟩ := Option.map_eq_some_iff.mp rest
    have inside : ckid < ice.checks.length := by
      unfold nextCheck at found
      split at found
      · next waits =>
        cases found
        exact (checkAt_of_findIdx? waits).1
      · exact (checkAt_of_findIdx? found).1
    have going' : Going False performed := going_performCheck stopped first
    have some' : performed.checks ≠ [] := by
      apply ne_nil_of_length_pos
      rw [frame_length (frame_performCheck first)]
      exact Nat.zero_lt_of_lt inside
    have going'' : Going False settled := by
      split at rest'
      · exact going_failCheck waits (paths_performCheck paths' inside first) (going'.doing some') rest'
      · cases rest'
        exact going'
    have scheduled : Scheduled { settled with clistTimer := true } := by
      intro running now
      cases now
    exact Going.watch ⟨going''.comps, going''.alive, going''.ended, False.elim⟩ fun _ => scheduled

end

/-! ## The end of a request -/

variable {request : CheckRequest}

theorem going_endRequest (going : Going started ice) :
    Going started (endRequest ice request) := by
  refine going.calm (calm_modify (fun _ pending => pending) fun _ queued => queued) id rfl rfl rfl

theorem going_retryCheck (going : Going started ice) (inside : request.ckid < ice.checks.length)
    (sends : started → Sends cfg ice) (done : retryCheck cfg ice request = some ice') :
    Going started ice' := by
  obtain ⟨⟨performed, status⟩, found, rfl⟩ := Option.map_eq_some_iff.mp done
  have some' : ice.checks ≠ [] := by
    apply ne_nil_of_length_pos
    exact Nat.zero_lt_of_lt inside
  have waiting : Going False ({ ice with role := conflictRole request.controlling }.checkSetState
      request.ckid .waiting pjSuccess) :=
    { comps := fun _ => going.comps some'
      alive := fun _ _ _ => by
        have found : (ice.checks.modify request.ckid fun check =>
            { check with state := .waiting, errCode := pjSuccess })[request.ckid]? =
              some { ice.checks[request.ckid] with state := .waiting, errCode := pjSuccess } := by
          rw [getElem?_modify_eq, getElem?_eq_getElem inside]
          rfl
        exact ⟨_, mem_of_getElem? found, rfl⟩
      ended := going.ended
      scheduled := False.elim }
  refine (going_performCheck waiting found).watch fun now => ?_
  refine scheduled_performCheck ?_ ?_ found
  · exact sends now
  · intro running stopped i check other at'
    have before : ice.checks[i]? = some check :=
      (getElem?_modify_ne _ ice.checks (Ne.symm other)).symm.trans at'
    exact going.scheduled now running stopped check (mem_of_getElem? before)

section
variable (waits : 0 ≤ cfg.controlledAgentWantNomTimeout) (paths : Paths ice)
include waits paths

theorem going_succeedCheck (doing : Doing started ice) {lcand : Nat}
    (inside : ckid < ice.checks.length) (inside' : lcand < ice.lcands.length)
    (way : (ice.lcands.getD lcand Cand.zero).transportId = ice.transport (checkAt ice.checks ckid))
    (done : succeedCheck cfg ice ckid lcand = some ice') : Going started ice' := by
  have ⟨updated, complete, first, rest⟩ := succeedCheck_eq done
  have added := paths_addValid paths inside inside' way
  have paths' : Paths updated := paths_updateCompCheck added.1 added.2 first
  have doing' : Doing started updated := by
    refine doing_updateCompCheck ?_ first
    exact ⟨doing.comps, doing.ended, doing.scheduled⟩
  have sorted : Doing started (sortValid updated) := by
    refine ⟨fun empty => doing'.comps ?_, doing'.ended, doing'.scheduled⟩
    exact map_eq_nil_iff.mp empty
  exact going_onCheckComplete waits (paths_checkSetState (paths_sortValid paths')) (sorted.set rfl) rest

theorem going_onStunRequestComplete (going : Going started ice) (member : request ∈ ice.tsx)
    {mapped : Option Sockaddr} {srcAddr : Sockaddr}
    (sends : started → status = pjStatusFromStunCode stunScRoleConflict → Sends cfg ice)
    (stays : ∀ addr ∈ successAddr cfg ice request status mapped srcAddr, StaysOnTransport ice
    (checkAt ice.checks request.ckid) addr)
    (done : onStunRequestComplete cfg ice request status mapped srcAddr = some ice') :
    Going started ice' := by
  have inside : request.ckid < (endRequest ice request).checks.length :=
    length_endRequest.symm ▸ (paths.sent request member).1
  have ended : Going started (endRequest ice request) := going_endRequest going
  have some' : (endRequest ice request).checks ≠ [] :=
    ne_nil_of_length_pos (Nat.zero_lt_of_lt inside)
  rcases success_way paths member stays done with ⟨conflict, retried⟩ | ⟨failure, failed⟩ |
    ⟨known, lcand, paths', same, ⟨cands, known'⟩, inside', way, succeeded⟩
  · exact going_retryCheck ended inside
      (fun now => sends now conflict) retried
  · exact going_failCheck waits (paths_endRequest paths) (ended.doing some') failed
  · have doing : Doing started known := by
      rw [known']
      exact ⟨ended.comps some', ended.ended, ended.scheduled⟩
    exact going_succeedCheck waits paths' doing (same.symm ▸ inside) inside' way succeeded

end

/-! ## Steps -/

variable {event : Event}

/-- A session that has ended need not go on. -/
theorem Going.of_complete (complete : ice.isComplete = true) (comps : ice.checks ≠ [] → ice.comps ≠ []) :
    Going started ice :=
  { comps := comps
    alive := fun _ running => by
      rw [complete] at running
      cases running
    ended := fun _ => complete
    scheduled := fun _ running => by
      rw [complete] at running
      cases running }

theorem going_onTimer (paths : Paths ice) (going : Going started ice)
    (done : onTimer cfg ice = some ice') : Going started ice' := by
  have frame := frame_onTimer done
  have comps : ice'.checks ≠ [] → ice'.comps ≠ [] := by
    rw [frame_comps frame]
    intro some'
    apply going.comps
    intro empty
    have length := frame_length frame
    rw [empty] at length
    exact some' (length_eq_zero_iff.mp length)
  unfold onTimer at done
  dsimp only at done
  split at done
  · cases done
    apply Going.of_complete ?_ comps
    unfold onIceComplete
    split
    · next ended => exact ended
    · rfl
  · next timer =>
    have complete := going.ended (.inl timer)
    obtain ⟨kept, found, rfl⟩ := Option.map_eq_some_iff.mp done
    apply Going.of_complete ?_ comps
    split at found <;> cases found <;> exact complete
  · next timer =>
    have stopped : Paths { ice with timer := .none } := paths.of_frame rfl fun _ member => .inl member
    have pending : ice'.checks ≠ [] → HasPending ice'.checks := by
      intro some'
      refine pending_startNominatedCheck stopped ?_ done
      rw [← show ice'.comps = ice.comps from frame_comps frame]
      exact comps some'
    obtain ⟨checks, -, rfl⟩ := startNominatedCheck_eq done
    refine ⟨comps, fun some' _ _ => pending some', fun over' => ?_, fun _ _ stopped => ?_⟩
    · split at over' <;> rcases over' with over' | over' <;> cases over'
    · cases stopped
  · next timer =>
    have complete := going.ended (.inr timer)
    unfold iceKeepAlive at done
    simp only [if_true] at done
    split at done
    · cases done
    · cases done
    · cases done
      exact Going.of_complete complete comps
  · next timer =>
    cases done
    exact going.calm (Calm.refl _) id rfl timer.symm rfl

/-- A session that has a checklist keeps it. -/
theorem some_handleIncomingCheck (some' : ice.checks ≠ [])
    (done : handleIncomingCheck cfg ice rcheck = some ice') : ice'.checks ≠ [] := by
  have grows : ice.checks.length ≤ ice'.checks.length := by
    rcases handleIncomingCheck_cases done with rfl | ⟨known, rcand, learned, outcome⟩
    · exact le_rfl
    have same : known.checks = ice.checks := by
      rcases learned with ⟨-, rfl⟩ | ⟨-, -, -, rfl⟩ <;> rfl
    rcases outcome with rfl |
      ⟨lcand, -, ⟨ckid, -, -, triggers⟩ | ⟨-, rfl | ⟨-, nominate, status, performed⟩⟩⟩
    · rw [same]
    · have pairs := congrArg Pairing.pairs (pairing_triggerCheck triggers)
      rw [length_of_map_pair pairs, same]
    · rw [same]
    · rw [frame_length (frame_performCheck performed), length_append]
      exact Nat.le_add_right ..
  intro empty
  rw [empty] at grows
  exact some' (length_eq_zero_iff.mp (Nat.le_zero.mp grows))

theorem some_of_length (same : ice'.checks.length = ice.checks.length) (some' : ice.checks ≠ []) :
    ice'.checks ≠ [] := by
  intro empty
  rw [empty] at same
  exact some' (length_eq_zero_iff.mp same.symm)

theorem some_succeedCheck {lcand : Nat} (some' : ice.checks ≠ [])
    (done : succeedCheck cfg ice ckid lcand = some ice') : ice'.checks ≠ [] := by
  have ⟨updated, complete, first, rest⟩ := succeedCheck_eq done
  have same : updated.checks = ice.checks := (pairing_updateCompCheck first).2.2
  have frame := (frame_onCheckComplete rest).trans frame_checkSetState
  refine some_of_length ((frame_length frame).trans ?_) some'
  exact congrArg List.length same

theorem some_step (some' : ice.checks ≠ []) (done : step cfg ice event = some ice') :
    ice'.checks ≠ [] := by
  cases event with
  | addCand compId transportId type localPref foundation addr baseAddr =>
    cases done
    unfold pjIceSessAddCand
    split
    · exact some'
    · split <;> exact some'
  | changeRole role =>
    cases done
    exact some'
  | createCheckList remCand => exact absurd (createCheckList_step done).1 some'
  | startCheck =>
    obtain ⟨⟨started, status⟩, found, rfl⟩ := Option.map_eq_some_iff.mp done
    rcases startCheck_cases found with ⟨-, rfl | rfl⟩ | ⟨-, checked, early, rfl⟩
    · exact some'
    · exact some'
    · have woken : (wake cfg ice).checks ≠ [] := some_of_length (frame_length frame_wake) some'
      have checked' : checked.checks ≠ [] :=
        Run.foldlM_kept (fun other : IceSess => other.checks ≠ [])
          (fun _ _ _ _ kept handled => some_handleIncomingCheck kept handled) woken early
      exact checked'
  | periodicTimer =>
    rcases periodicTimer_step done with rfl | ⟨-, done⟩
    · exact some'
    · exact some_of_length (frame_length (frame_startPeriodicCheck done)) some'
  | sessionTimer => exact some_of_length (frame_length (frame_onTimer done)) some'
  | requestComplete id status mapped srcAddr =>
    rcases requestComplete_step done with rfl | ⟨request, member, -, done⟩
    · exact some'
    · have ended : (endRequest ice request).checks ≠ [] := some_of_length length_endRequest some'
      rcases onStunRequestComplete_cases done with ⟨-, retried⟩ | ⟨failure, -, failed⟩ |
        ⟨addr, -, ⟨found, -, succeeded⟩ | ⟨-, -, cand, -, -, -, succeeded⟩⟩
      · have frame : ice'.frame = _ := frame_retryCheck retried
        exact some_of_length (frame_length frame) ended
      · exact some_of_length (frame_length (frame_failCheck failed)) ended
      · exact some_succeedCheck ended succeeded
      · refine some_succeedCheck ?_ succeeded
        exact ended
  | rxRequest rx =>
    rcases onStunRxRequest_cases done with ⟨code, rfl⟩ | rfl |
      ⟨role, -, rfl | ⟨-, -, priority, -, ⟨-, rfl⟩ | handled⟩⟩
    · exact some'
    · exact some'
    · exact some'
    · exact some'
    · refine some_handleIncomingCheck ?_ handled
      exact some'

theorem going_createCheckList (going : Going started ice) (before : ¬started) {remCand : List Cand}
    (done : step cfg ice (.createCheckList remCand) = some ice') : Going started ice' := by
  have ⟨fresh, done⟩ := createCheckList_step done
  obtain ⟨created, pruned, highestComp, pairs, some', pruned', highest, rfl⟩ := createCheckList_eq done
  rw [fresh] at pairs
  have ⟨check, rest, same⟩ := exists_cons_of_ne_nil (created_length pairs some' pruned').2
  have member : check ∈ pruned := by
    rw [same]
    exact mem_cons_self
  obtain ⟨origin, ⟨i, j, -, right, joined, rfl⟩, image⟩ := created_origin pairs pruned' member
  have saved : (savedCands ice remCand).getD j Cand.zero ∈ savedCands ice remCand := by
    rw [getD_eq_getElem?_getD, getElem?_eq_getElem right]
    exact getElem_mem right
  refine ⟨fun _ empty => ?_, fun _ _ _ => ⟨check, member, ?_⟩, going.ended, fun now => absurd now before⟩
  · -- The remote candidate of the pair is of a component, which stays.
    have kept := of_mem_filter saved
    simp only [Bool.not_eq_true', Bool.or_eq_false_iff, decide_eq_false_iff_not] at kept
    have low := highest _ saved
    have length := congrArg List.length empty
    rw [length_take, length_nil] at length
    omega
  · rcases replaceSrflx_cases image with ⟨-, rfl⟩ | ⟨-, host, -, rfl⟩ <;> rfl

theorem going_wake (going : Going started ice) : Going False (wake cfg ice) := by
  have states : ∀ (i : Nat) (check' : Check), (wake cfg ice).checks[i]? = some check' →
      ice.checks[i]? = some check' ∨ check'.state = .waiting := by
    intro i check' found
    exact (wakeFirsts_states.2 i check' found).imp_right And.left
  have length : (wake cfg ice).checks.length = ice.checks.length := wakeFirsts_states.1
  have back : (wake cfg ice).checks ≠ [] → ice.checks ≠ [] := some_of_length length.symm
  refine ⟨fun some' => going.comps (back some'), fun some' running none' => ?_, going.ended, False.elim⟩
  have ⟨check, member, pending⟩ := going.alive (back some') running none'
  have ⟨i, found⟩ := mem_iff_getElem?.mp member
  have inside : i < (wake cfg ice).checks.length := by
    rw [length]
    exact (List.getElem?_eq_some_iff.mp found).1
  have found' := getElem?_eq_getElem inside
  refine ⟨_, getElem_mem inside, ?_⟩
  rcases states i _ found' with kept | waits
  · rw [found] at kept
    rw [← Option.some.inj kept]
    exact pending
  · rw [waits]
    rfl

/-- When the checks have started the timer of the checklist is scheduled. -/
theorem going_startCheck (waits : 0 ≤ cfg.controlledAgentWantNomTimeout) (paths : Paths ice)
    (going : Going started ice) (done : pjIceSessStartCheck cfg ice = some (ice', status)) :
    Going started ice' ∧ (status = pjSuccess → Going True ice' ∧ ice'.checks ≠ []) := by
  rcases startCheck_cases done with ⟨failed, rfl | rfl⟩ | ⟨⟨first, member, -⟩, checked, early, rfl⟩
  · exact ⟨going, fun success => absurd success failed⟩
  · exact ⟨going.calm (Calm.refl _) id rfl rfl rfl, fun success => absurd success failed⟩
  · have woken : Paths (wake cfg ice) := paths.of_frame frame_wake fun _ member => .inl member
    have some' : (wake cfg ice).checks ≠ [] :=
      some_of_length (frame_length frame_wake) (ne_nil_of_mem member)
    have checked' : (Paths checked ∧ Going False checked) ∧ checked.checks ≠ [] :=
      Run.foldlM_kept
        (fun other : IceSess => (Paths other ∧ Going False other) ∧ other.checks ≠ [])
        (fun _ _ _ _ kept handled =>
          ⟨⟨paths_handleIncomingCheck kept.1.1 handled,
            going_handleIncomingCheck waits kept.1.1 kept.1.2 False.elim handled⟩,
            some_handleIncomingCheck kept.2 handled⟩)
        ⟨⟨woken, going_wake going⟩, some'⟩ early
    have scheduled : Scheduled { checked with earlyCheck := [], clistTimer := true } := by
      intro running now
      cases now
    have now : ∀ later : Prop, Going later { checked with earlyCheck := [], clistTimer := true } :=
      fun later => ⟨checked'.1.2.comps, checked'.1.2.alive, checked'.1.2.ended, fun _ => scheduled⟩
    exact ⟨now started, fun _ => ⟨now True, checked'.2⟩⟩

/-- A request that is to start a check which met a role conflict, or one of a new pair, is sent when
nothing else would start the check, and the checks that succeed stay on their transports. -/
def StepGoesOn (cfg : Config) (ice : IceSess) : Event → Prop
  | .requestComplete id status mapped srcAddr =>
    ∀ request ∈ ice.tsx.find? fun request => request.id = id,
      (status = pjStatusFromStunCode stunScRoleConflict → Sends cfg ice) ∧
        ∀ addr ∈ successAddr cfg ice request status mapped srcAddr,
          StaysOnTransport ice (checkAt ice.checks request.ckid) addr
  | .rxRequest rx => ∀ rcheck ∈ handledCheck cfg ice rx, AddsCheck ice rcheck → Sends cfg ice
  | _ => True

instance (ice : IceSess) (rcheck : RxCheck) : Decidable (AddsCheck ice rcheck) :=
  inferInstanceAs (Decidable ((_ → _) ∧ _ ∧ ∃ lcand ∈ findLcand ice rcheck.compId rcheck.transportId,
    ∀ check ∈ ice.checks,
      check.key ≠ (lcand, (findRcand ice.rcands rcheck.srcAddr).getD ice.rcands.length)))

instance (cfg : Config) (ice : IceSess) : ∀ event, Decidable (StepGoesOn cfg ice event)
  | .requestComplete id status mapped srcAddr =>
    inferInstanceAs (Decidable (∀ request ∈ ice.tsx.find? fun request => request.id = id,
      (status = pjStatusFromStunCode stunScRoleConflict → Sends cfg ice) ∧
        ∀ addr ∈ successAddr cfg ice request status mapped srcAddr,
          StaysOnTransport ice (checkAt ice.checks request.ckid) addr))
  | .rxRequest rx =>
    inferInstanceAs (Decidable (∀ rcheck ∈ handledCheck cfg ice rx,
      AddsCheck ice rcheck → Sends cfg ice))
  | .addCand .. | .changeRole _ | .createCheckList _ | .startCheck | .periodicTimer
  | .sessionTimer => .isTrue trivial

theorem StepGoesOn.stays (goesOn : StepGoesOn cfg ice event) :
    StepStays cfg ice event := by
  cases event with
  | requestComplete id status mapped srcAddr => exact fun request found => (goesOn request found).2
  | _ => trivial

theorem going_step (waits : 0 ≤ cfg.controlledAgentWantNomTimeout) (paths : Paths ice)
    (going : Going started ice) (some' : started → ice.checks ≠ [])
    (stays : StepStays cfg ice event) (goesOn : started → StepGoesOn cfg ice event)
    (done : step cfg ice event = some ice') : Going started ice' := by
  cases event with
  | addCand compId transportId type localPref foundation addr baseAddr =>
    cases done
    unfold pjIceSessAddCand
    split
    · exact going
    · split
      · exact going
      · exact going.calm (Calm.refl _) id rfl rfl rfl
  | changeRole role =>
    cases done
    exact going.calm (Calm.refl _) id rfl rfl rfl
  | createCheckList remCand =>
    exact going_createCheckList going (fun now => some' now (createCheckList_step done).1) done
  | startCheck =>
    obtain ⟨⟨begun, status⟩, found, rfl⟩ := Option.map_eq_some_iff.mp done
    exact (going_startCheck waits paths going found).1
  | periodicTimer =>
    rcases periodicTimer_step done with rfl | ⟨-, done⟩
    · exact going
    · exact going_startPeriodicCheck waits paths going done
  | sessionTimer => exact going_onTimer paths going done
  | requestComplete id status mapped srcAddr =>
    rcases requestComplete_step done with rfl | ⟨request, member, found, done⟩
    · exact going
    · exact going_onStunRequestComplete waits paths going member
        (fun now => (goesOn now request found).1) (stays request found) done
  | rxRequest rx =>
    rcases onStunRxRequest_cases done with ⟨code, rfl⟩ | rfl |
      ⟨role, repaired, rfl | ⟨binding, created, priority, given, ⟨-, rfl⟩ | handled⟩⟩
    · exact going.calm (Calm.refl _) id rfl rfl rfl
    · exact going
    · exact going.calm (Calm.refl _) id rfl rfl rfl
    · exact going.calm (Calm.refl _) id rfl rfl rfl
    · have ready : Paths ({ ice with role := role }.emit (.response 0)) :=
        paths.congr rfl rfl rfl (fun _ member => .inl member) paths.pointed
      have going' : Going started ({ ice with role := role }.emit (.response 0)) :=
        going.calm (Calm.refl _) id rfl rfl rfl
      refine going_handleIncomingCheck waits ready going' (fun now adds => ?_) handled
      refine goesOn now _ ?_ adds
      have taken : rx.isBinding = true ∧ rx.createRes = pjSuccess ∧
          repairRole cfg ice.role rx.roleAttr ≠ none :=
        ⟨binding, created, repaired ▸ Option.some_ne_none role⟩
      rw [handledCheck, if_pos taken, given]
      rfl

/-! ## Runs -/

/-- What holds of a session before it starts and, for a session with checks, afterwards. -/
structure OnTheWay (started : Prop) (ice : IceSess) : Prop where
  live : Live ice none
  paths : Paths ice
  going : Going started ice
  some' : started → ice.checks ≠ []

theorem onTheWay_create (role : Role) (compCnt : Nat) :
    OnTheWay False (pjIceSessCreate role compCnt) where
  live := (inv_start role compCnt).live
  paths :=
    { checks_in := fun check member => absurd member not_mem_nil
      valid_in := fun vc member => absurd member not_mem_nil
      transports := fun cand member => absurd member not_mem_nil
      sent := fun request member => absurd member not_mem_nil
      known := fun vc member => absurd member not_mem_nil
      pointed := fun comp member slot points => by
        rw [eq_of_mem_replicate member] at points
        cases points }
  going :=
    { comps := fun some' => absurd rfl some'
      alive := fun some' => absurd rfl some'
      ended := fun over' => by rcases over' with over' | over' <;> cases over'
      scheduled := False.elim }
  some' := False.elim

theorem onTheWay_step (waits : 0 ≤ cfg.controlledAgentWantNomTimeout) (way : OnTheWay started ice)
    (stays : StepStays cfg ice event) (goesOn : started → StepGoesOn cfg ice event)
    (done : step cfg ice event = some ice') : OnTheWay started ice' where
  live := live_step way.live done
  paths := paths_step way.paths stays done
  going := going_step waits way.paths way.going way.some' stays goesOn done
  some' now := some_step (way.some' now) done

/-- A session that was started always has something pending until it has ended, in every run in which
the checks that succeed stay on their transports and, from the start on, the requests that start a
check which nothing else would start are sent. -/
theorem iceSess_busy (cfg : Config) (waits : 0 ≤ cfg.controlledAgentWantNomTimeout) (role : Role)
    (compCnt : Nat) (before after : List Event) (ready ice : IceSess)
    (stays : Run.Meets (next cfg) (fun state event => ∀ ice ∈ state, StepStays cfg ice event)
      (some (pjIceSessCreate role compCnt)) before)
    (prepared : before.foldl (next cfg) (some (pjIceSessCreate role compCnt)) = some ready)
    (starts : pjIceSessStartCheck cfg ready = some (ice, pjSuccess))
    (goesOn : Run.Meets (next cfg) (fun state event => ∀ ice ∈ state, StepGoesOn cfg ice event)
      (some ice) after) :
    Run.Always (next cfg) (fun state => ∀ ice ∈ state, Busy ice) (some ice) after := by
  have early : Run.Always (next cfg) (fun state => ∀ ice ∈ state, OnTheWay False ice)
      (some (pjIceSessCreate role compCnt)) before := by
    refine Run.always ?_ ?_ stays
    · intro state event way stays ice' done
      have ⟨ice, held, step'⟩ := Option.bind_eq_some_iff.mp done
      exact onTheWay_step waits (way ice held) (stays ice held) False.elim step'
    · intro ice same
      obtain rfl := Option.some.inj same
      exact onTheWay_create role compCnt
  have way : OnTheWay False ready := early.last ready prepared
  have going := (going_startCheck waits way.paths way.going starts).2 rfl
  have begun : OnTheWay True ice :=
    { live := live_startCheck way.live starts
      paths := paths_startCheck way.paths starts
      going := going.1
      some' := fun _ => going.2 }
  have late : Run.Always (next cfg) (fun state => ∀ ice ∈ state, OnTheWay True ice) (some ice) after := by
    refine Run.always ?_ ?_ goesOn
    · intro state event way goesOn ice' done
      have ⟨ice, held, step'⟩ := Option.bind_eq_some_iff.mp done
      exact onTheWay_step waits (way ice held) (goesOn ice held).stays (fun _ => goesOn ice held) step'
    · intro other same
      obtain rfl := Option.some.inj same
      exact begun
  exact late.imp fun state way ice held =>
    (way ice held).going.busy (way ice held).live ((way ice held).some' trivial)

/-- A session has one check to start with. -/
def preparedRun : List Event := [addHost 1 10, .createCheckList [remoteHost 1 1000 20]]

/-- The session before it starts, and after. -/
def readySess (cfg : Config) : IceSess :=
  (preparedRun.foldl (next cfg) (some (pjIceSessCreate .controlled 1))).getD (pjIceSessCreate .controlled 1)

def startedSess (cfg : Config) : IceSess :=
  ((pjIceSessStartCheck cfg (readySess cfg)).map Prod.fst).getD (readySess cfg)

/-- The check is started, the timer of the checklist stops, and the check meets a role conflict. -/
def conflictRun : List Event :=
  [.periodicTimer, .periodicTimer,
    .requestComplete 0 (pjStatusFromStunCode stunScRoleConflict) none (iceAddr 2 20)]

theorem iceSess_busy_conflict :
    Run.Always (next calmConfig) (fun state => ∀ ice ∈ state, Busy ice)
      (some (startedSess calmConfig)) conflictRun :=
  iceSess_busy calmConfig (by decide) .controlled 1 preparedRun conflictRun (readySess calmConfig)
    (startedSess calmConfig) (by decide) rfl rfl (by decide)

/-- Only the first request is sent: the network is unreachable for others. -/
def unreachableConfig : Config :=
  { calmConfig with tx := fun count => ⟨pjSuccess, if count = 0 then pjSuccess else 120101⟩ }

/-- The check waits to be performed again, and nothing performs it. -/
theorem iceSess_stuck :
    preparedRun.foldl (next unreachableConfig) (some (pjIceSessCreate .controlled 1)) =
      some (readySess unreachableConfig) ∧
    pjIceSessStartCheck unreachableConfig (readySess unreachableConfig) =
      some (startedSess unreachableConfig, pjSuccess) ∧
    ¬Run.Always (next unreachableConfig) (fun state => ∀ ice ∈ state, Busy ice)
      (some (startedSess unreachableConfig)) conflictRun := by
  refine ⟨rfl, rfl, fun always => ?_⟩
  have stuck : (conflictRun.foldl (next unreachableConfig) (some (startedSess unreachableConfig))).map
      (fun ice => (ice.isComplete, ice.checks.any fun check => check.state = .inProgress,
        ice.clistTimer, ice.timer)) = some (false, false, false, .none) := by decide
  have ⟨ice, reached, found⟩ := Option.map_eq_some_iff.mp stuck
  simp only [Prod.mk.injEq, any_eq_false, decide_eq_true_eq] at found
  rcases always.last ice reached with ended | ⟨check, member, state, -⟩ | scheduled | timer
  · rw [found.1] at ended
    cases ended
  · exact found.2.1 check member state
  · rw [found.2.2.1] at scheduled
    cases scheduled
  · exact timer found.2.2.2

end Pjnath.Ice
