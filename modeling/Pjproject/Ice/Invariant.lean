import Pjproject.Ice.Pointers

/-!
# The invariant of an ICE session

In every state of a session whose steps find candidates of the right component, have room and take
no nomination back, the lists are sound, the components point to checks of the valid list, and ICE
has ended at most once, with success only where every component has a nominated check. An address
that is a candidate of one component and sends a check for another is paired across components.
-/

namespace Pjnath.Ice
open Option List Pj Stun

variable {cfg : Config} {ice ice' : IceSess}

/-! ## The end of ICE -/

variable {ckid : Nat}

/-- The statuses with which ICE ended. -/
def completions (log : List Output) : List Int :=
  log.filterMap fun
    | .complete status => some status
    | _ => none

theorem completions_append (log more : List Output) :
    completions (log ++ more) = completions log ++ completions more :=
  filterMap_append ..

/-- ICE ends once: by the timer that the completion starts, with its status. -/
structure Signals (ice : IceSess) : Prop where
  silent : ice.isComplete = false → completions ice.log = [] ∧ ice.timer ≠ .completionCallback
  once : (completions ice.log).length + (if ice.timer = .completionCallback then 1 else 0) ≤ 1
  said : ∀ status ∈ completions ice.log, status = ice.iceStatus
  success : ice.isComplete = true → ice.iceStatus = pjSuccess →
    ∀ comp ∈ ice.comps, comp.nominatedCheck ≠ none

/-- Nothing is signalled, and no component loses its nominated check. -/
theorem Signals.quiet (signals : Signals ice) (complete : ice'.isComplete = ice.isComplete)
    (status : ice'.iceStatus = ice.iceStatus) (timer : ice'.timer = ice.timer)
    (log : completions ice'.log = completions ice.log)
    (comps : ∀ comp' ∈ ice'.comps, comp'.nominatedCheck = none →
      ∃ comp ∈ ice.comps, comp.nominatedCheck = none) : Signals ice' :=
  { silent := by
      rw [complete, log, timer]
      exact signals.silent
    once := by
      rw [log, timer]
      exact signals.once
    said := by
      rw [log, status]
      exact signals.said
    success := by
      rw [complete, status]
      intro ended succeeded comp' member unset
      have ⟨comp, member', unset'⟩ := comps comp' member unset
      exact signals.success ended succeeded comp member' unset' }

/-- What the signals are about. -/
def IceSess.vitals (ice : IceSess) : Bool × Int × TimerType × List Int × List Comp :=
  (ice.isComplete, ice.iceStatus, ice.timer, completions ice.log, ice.comps)

section
variable (signals : Signals ice)
include signals

theorem Signals.congr (same : ice'.vitals = ice.vitals) : Signals ice' := by
  simp only [IceSess.vitals, Prod.mk.injEq] at same
  have ⟨complete, status, timer, log, comps⟩ := same
  apply signals.quiet complete status timer log
  rw [comps]
  exact fun comp member unset => ⟨comp, member, unset⟩

/-- Another timer than that of the completion is started or stopped. -/
theorem Signals.timer {timer : TimerType} (before : ice.timer ≠ .completionCallback)
    (after : timer ≠ .completionCallback) :
    Signals { ice with timer := timer } :=
  { silent := fun running => ⟨(signals.silent running).1, after⟩
    once := by
      have once := signals.once
      rw [if_neg before] at once
      rw [if_neg after]
      exact once
    said := signals.said
    success := signals.success }

theorem signals_onIceComplete {status : Int}
    (nominated : status = pjSuccess → ∀ comp ∈ ice.comps, comp.nominatedCheck ≠ none) :
    Signals (onIceComplete cfg ice status) := by
  unfold onIceComplete
  by_cases ended : ice.isComplete = true
  · rw [if_pos ended]
    exact signals
  · rw [if_neg ended]
    have silent := signals.silent (Bool.eq_false_iff.mpr ended)
    exact
      { silent := fun running => by cases running
        once := by
          dsimp only
          rw [silent.1]
          split <;> decide
        said := by
          rw [silent.1]
          exact fun _ member => absurd member not_mem_nil
        success := fun _ => nominated }

theorem signals_startNominatedCheck (done : startNominatedCheck ice = some ice') :
    Signals ice' := by
  obtain ⟨checks, -, rfl⟩ := startNominatedCheck_eq done
  by_cases started : ice.timer = .startNominatedCheck
  · have before : ice.timer ≠ .completionCallback := fun same => by
      rw [started] at same
      cases same
    have stopped : Signals { ice with timer := .none } := signals.timer before TimerType.noConfusion
    apply stopped.congr
    simp [IceSess.vitals, started]
  · apply signals.congr
    simp [IceSess.vitals, started]

variable {complete : Bool}

theorem signals_onAllChecksDone (done : onAllChecksDone cfg ice = some (ice', complete)) :
    Signals ice' := by
  have fails : Signals (onIceComplete cfg ice pjnathEicefailed) :=
    signals_onIceComplete signals fun success => absurd success (by decide)
  unfold onAllChecksDone at done
  split at done
  · split at done
    · cases done
      exact fails
    · split at done
      · next idle =>
        cases done
        refine signals.timer ?_ TimerType.noConfusion
        rw [idle.1]
        exact TimerType.noConfusion
      · cases done
        exact signals
  · split at done
    · cases done
      exact fails
    · split at done
      · cases done
        exact fails
      · have ⟨started, found, same⟩ := map_eq_some_iff.mp done
        cases same
        exact signals_startNominatedCheck signals found

theorem signals_onPairStates {check : Check}
    (done : onPairStates cfg ice check = some (ice', complete)) : Signals ice' := by
  unfold onPairStates at done
  split at done
  · next all =>
    cases done
    refine signals_onIceComplete signals fun _ comp member unset => ?_
    have given := all_eq_true.mp all comp member
    rw [unset] at given
    cases given
  · split at done
    · exact signals_onAllChecksDone signals done
    · split at done
      · next ready =>
        cases done
        refine signals.timer ?_ TimerType.noConfusion
        rw [ready.2.2.2.1]
        exact TimerType.noConfusion
      · cases done
        exact signals

theorem signals_onCheckComplete (done : onCheckComplete cfg ice ckid = some (ice', complete)) :
    Signals ice' := by
  have ⟨unfrozen, settled, first, second, rest⟩ := onCheckComplete_cases done
  have signals' : Signals unfrozen := by
    rcases first with rfl | ⟨-, rfl⟩
    · exact signals
    · exact signals.congr rfl
  refine signals_onPairStates ?_ rest
  rcases second with rfl | cancelled
  · exact signals'
  · unfold cancelOthers at cancelled
    simp only [ite_none_left_eq_some, Option.some.injEq] at cancelled
    obtain ⟨-, rfl⟩ := cancelled
    exact signals'.congr rfl

theorem signals_failCheck {status : Int} (done : failCheck cfg ice ckid status = some ice') :
    Signals ice' := by
  obtain ⟨⟨completed, complete⟩, found, rfl⟩ := map_eq_some_iff.mp done
  refine signals_onCheckComplete ?_ found
  exact signals.congr rfl

end

theorem vitals_performCheck {nominate : Bool} {status : Int}
    (done : performCheck cfg ice ckid nominate = some (ice', status)) :
    ice'.vitals = ice.vitals := by
  have ⟨change, sent, performed⟩ := performCheck_performed done
  have silent : completions (sent.map Output.request) = [] := by
    rcases performed.one with rfl | rfl <;> rfl
  rw [performed.eq]
  simp [IceSess.vitals, completions_append, silent]

section
variable (signals : Signals ice)
include signals

theorem signals_startPeriodicCheck (done : startPeriodicCheck cfg ice = some ice') :
    Signals ice' := by
  unfold startPeriodicCheck at done
  dsimp only at done
  split at done
  · cases done
    exact signals.congr rfl
  · have ⟨⟨performed, status⟩, first, rest⟩ := bind_eq_some_iff.mp done
    obtain ⟨settled, rest', rfl⟩ := map_eq_some_iff.mp rest
    have signals' : Signals performed := signals.congr ((vitals_performCheck first).trans rfl)
    have signals'' : Signals settled := by
      split at rest'
      · exact signals_failCheck signals' rest'
      · cases rest'
        exact signals'
    exact signals''.congr rfl

theorem signals_updateCompCheck {compId slot : Nat}
    (done : updateCompCheck ice compId slot = some ice') : Signals ice' := by
  unfold updateCompCheck at done
  split at done
  · cases done
  · next comp found =>
    cases done
    refine signals.quiet rfl rfl rfl rfl fun other member unset => ?_
    rcases mem_or_eq_of_mem_set member with member | rfl
    · exact ⟨other, member, unset⟩
    · unfold IceSess.findComp at found
      split at found
      · cases found
      · refine ⟨comp, mem_of_getElem? found, ?_⟩
        -- A check that is nominated takes over, or the nominated one stays.
        split at unset
        · rcases takesOver_cases ice.valid comp.nominatedCheck slot with ⟨taken, -⟩ | ⟨held, -, kept, -⟩
          · rw [taken] at unset
            cases unset
          · rw [kept] at unset
            cases unset
        · exact unset

theorem signals_nominateValid {check : Check} {slot : Nat}
    (done : nominateValid check ice slot = some ice') : Signals ice' := by
  unfold nominateValid at done
  dsimp only at done
  split at done
  · refine signals_updateCompCheck ?_ done
    exact signals.congr rfl
  · cases done
    exact signals

theorem signals_triggerCheck {rcheck : RxCheck}
    (done : triggerCheck cfg ice rcheck ckid = some ice') : Signals ice' := by
  obtain ⟨flagged, rfl, outcome⟩ := triggerCheck_cases done
  have signals' : Signals (ice.updateCheck ckid fun check =>
      { check with nominated := rcheck.useCandidate || check.nominated }) := signals.congr rfl
  rcases outcome with ⟨-, nominate, status, performed⟩ | ⟨-, nominated, complete, first, rest⟩ |
    ⟨-, rfl⟩
  · exact signals'.congr (vitals_performCheck performed)
  · refine signals_onCheckComplete ?_ rest
    rcases first with rfl | ⟨-, loop⟩
    · exact signals'
    · exact Run.foldlM_kept Signals (fun _ _ _ _ kept found => signals_nominateValid kept found)
        signals' loop
  · exact signals'

theorem signals_handleIncomingCheck {rcheck : RxCheck}
    (done : handleIncomingCheck cfg ice rcheck = some ice') : Signals ice' := by
  rcases handleIncomingCheck_cases done with rfl | ⟨known, rcand, learned, outcome⟩
  · exact signals
  have signals' : Signals known := by
    rcases learned with ⟨-, rfl⟩ | ⟨-, -, -, rfl⟩
    · exact signals
    · exact signals.congr rfl
  rcases outcome with rfl | ⟨lcand, -, ⟨ckid, -, -, triggers⟩ | ⟨-, rfl | ⟨-, nominate, status, performed⟩⟩⟩
  · exact signals'
  · exact signals_triggerCheck signals' triggers
  · exact signals'
  · exact signals'.congr ((vitals_performCheck performed).trans rfl)

theorem signals_succeedCheck {lcand : Nat} (done : succeedCheck cfg ice ckid lcand = some ice') :
    Signals ice' := by
  have ⟨updated, complete, first, rest⟩ := succeedCheck_eq done
  have added : Signals { ice with valid := (addValid ice (checkAt ice.checks ckid) lcand).1 } :=
    signals.congr rfl
  have updated' : Signals updated := signals_updateCompCheck added first
  refine signals_onCheckComplete ?_ rest
  refine updated'.quiet rfl rfl rfl rfl fun comp' member unset => ?_
  obtain ⟨comp, member', rfl⟩ := mem_map.mp member
  exact ⟨comp, member', map_eq_none_iff.mp unset⟩

theorem signals_onStunRequestComplete {request : CheckRequest} {status : Int}
    {mapped : Option Sockaddr} {srcAddr : Sockaddr}
    (done : onStunRequestComplete cfg ice request status mapped srcAddr = some ice') :
    Signals ice' := by
  have ended : Signals (endRequest ice request) := signals.congr rfl
  rcases onStunRequestComplete_cases done with ⟨-, retried⟩ | ⟨failure, -, failed⟩ |
    ⟨addr, -, ⟨found, -, succeeded⟩ | ⟨-, -, cand, -, -, -, succeeded⟩⟩
  · obtain ⟨⟨performed, status⟩, found, rfl⟩ := map_eq_some_iff.mp retried
    exact ended.congr ((vitals_performCheck found).trans rfl)
  · exact signals_failCheck ended failed
  · exact signals_succeedCheck ended succeeded
  · refine signals_succeedCheck ?_ succeeded
    exact ended.congr rfl

theorem signals_onTimer (done : onTimer cfg ice = some ice') : Signals ice' := by
  unfold onTimer at done
  dsimp only at done
  by_cases signalling : ice.timer = .completionCallback
  · simp only [signalling] at done
    obtain ⟨kept, found, rfl⟩ := map_eq_some_iff.mp done
    have ended : ice.isComplete = true := by
      by_contra running
      exact (signals.silent (Bool.eq_false_iff.mpr running)).2 signalling
    have silent : completions ice.log = [] := by
      have once := signals.once
      rw [if_pos signalling] at once
      exact length_eq_zero_iff.mp (by omega)
    have kept' : ∃ timer, timer ≠ TimerType.completionCallback ∧ kept = { ice with timer := timer } := by
      split at found
      · cases found
        exact ⟨.keepAlive, TimerType.noConfusion, rfl⟩
      · cases found
        exact ⟨.none, TimerType.noConfusion, rfl⟩
    obtain ⟨timer, other, rfl⟩ := kept'
    have log : completions (ice.log ++ [.complete ice.iceStatus]) = [ice.iceStatus] := by
      rw [completions_append, silent]
      rfl
    exact
      { silent := fun running => by
          rw [show ice.isComplete = false from running] at ended
          cases ended
        once := by
          change (completions (ice.log ++ [.complete ice.iceStatus])).length +
            (if timer = .completionCallback then 1 else 0) ≤ 1
          rw [log, if_neg other]
          exact Nat.le_refl 1
        said := by
          simp only [IceSess.emit]
          rw [log]
          exact fun status member => mem_singleton.mp member
        success := signals.success }
  · have stopped : Signals { ice with timer := .none } := signals.timer signalling TimerType.noConfusion
    split at done
    · cases done
      exact signals_onIceComplete stopped fun success => absurd success (by decide)
    · next same => exact absurd same signalling
    · exact signals_startNominatedCheck stopped done
    · unfold iceKeepAlive at done
      simp only [if_true] at done
      split at done
      · cases done
      · cases done
      · cases done
        have started : Signals { ice with timer := .keepAlive } :=
          signals.timer signalling TimerType.noConfusion
        exact started.congr rfl
    · cases done
      exact stopped

/-- Every step keeps the signals. -/
theorem signals_step {event : Event} (done : step cfg ice event = some ice') : Signals ice' := by
  cases event with
  | addCand compId transportId type localPref foundation addr baseAddr =>
    cases done
    unfold pjIceSessAddCand
    split
    · exact signals
    · split
      · exact signals
      · exact signals.congr rfl
  | changeRole role =>
    cases done
    exact signals.congr rfl
  | createCheckList remCand =>
    have ⟨fresh, done⟩ := createCheckList_step done
    obtain ⟨created, pruned, highestComp, -, -, -, -, rfl⟩ := createCheckList_eq done
    refine signals.quiet rfl rfl rfl rfl fun comp member unset => ?_
    exact ⟨comp, mem_of_mem_take member, unset⟩
  | startCheck =>
    obtain ⟨⟨started, status⟩, found, rfl⟩ := map_eq_some_iff.mp done
    rcases startCheck_cases found with ⟨-, rfl | rfl⟩ | ⟨-, checked, early, rfl⟩
    · exact signals
    · exact signals.congr rfl
    · have signals' : Signals checked := by
        refine Run.foldlM_kept Signals
          (fun _ _ _ _ kept handled => signals_handleIncomingCheck kept handled) ?_ early
        exact signals.congr rfl
      exact signals'.congr rfl
  | periodicTimer =>
    rcases periodicTimer_step done with rfl | ⟨-, done⟩
    · exact signals
    · exact signals_startPeriodicCheck signals done
  | sessionTimer => exact signals_onTimer signals done
  | requestComplete id status mapped srcAddr =>
    rcases requestComplete_step done with rfl | ⟨request, -, -, done⟩
    · exact signals
    · exact signals_onStunRequestComplete signals done
  | rxRequest rx =>
    have answered : ∀ (role : Role) (code : Int),
        Signals ({ ice with role := role }.emit (.response code)) := by
      intro role code
      apply signals.congr
      simp only [IceSess.vitals, IceSess.emit, completions_append]
      simp [completions]
    rcases onStunRxRequest_cases done with ⟨code, rfl⟩ | rfl |
      ⟨role, -, rfl | ⟨-, -, priority, -, ⟨-, rfl⟩ | handled⟩⟩
    · exact answered ice.role code
    · exact signals
    · exact signals.congr rfl
    · exact (answered role 0).congr rfl
    · exact signals_handleIncomingCheck (answered role 0) handled

end

/-! ## Runs -/

/-- The invariant of a session: the pairs of both lists join candidates of one component, none is
twice in the checklist, both lists have room, the checks of a component are entries of the valid
list for it, with the nominated one the highest of those that are nominated, and ICE ends at most
once, with success where every component has a nominated check. -/
structure Sound (ice : IceSess) : Prop where
  joined : ∀ check, check ∈ ice.checks ∨ check ∈ ice.valid → Joined ice check
  distinct : (ice.checks.map Check.key).Nodup
  room : ice.checks.length ≤ iceMaxChecks ∧ ice.valid.length ≤ iceMaxChecks
  valid_check : ∀ i comp slot, ice.comps[i]? = some comp → comp.validCheck = some slot →
    ∃ check, ice.valid[slot]? = some check ∧ (ice.lcand check).compId = i + 1
  nominated_check : ∀ i comp slot, ice.comps[i]? = some comp → comp.nominatedCheck = some slot →
    ∃ check, ice.valid[slot]? = some check ∧ (ice.lcand check).compId = i + 1 ∧
      check.nominated = true ∧ ∀ other ∈ ice.valid, (ice.lcand other).compId = i + 1 →
        other.nominated = true → other.prio ≤ check.prio
  once : (completions ice.log).length ≤ 1
  success : pjSuccess ∈ completions ice.log → ∀ comp ∈ ice.comps, comp.nominatedCheck ≠ none

/-- What a run keeps. -/
structure Inv (ice : IceSess) : Prop where
  live : Live ice none
  lists : Lists ice
  pointers : ice.Pointers
  signals : Signals ice

theorem inv_start (role : Role) (compCnt : Nat) : Inv (pjIceSessCreate role compCnt) where
  live :=
    { slots := fun request member => absurd member not_mem_nil
      ids := fun request member => absurd member not_mem_nil
      unique := fun request member => absurd member not_mem_nil
      live := fun i check _ found => by cases found }
  lists :=
    { checks_joined := fun check member => absurd member not_mem_nil
      valid_joined := fun check member => absurd member not_mem_nil
      distinct := nodup_nil
      checks_room := Nat.zero_le _
      valid_room := Nat.zero_le _
      compIds := fun cand member => absurd member not_mem_nil
      fresh := fun _ => rfl }
  pointers := by
    intro i comp found
    obtain rfl := eq_of_mem_replicate (mem_of_getElem? found)
    exact
      { valid_in := fun slot points => by cases points
        nominated_in := fun slot points => by cases points
        unnominated := fun _ other member => absurd member not_mem_nil }
  signals :=
    { silent := fun _ => ⟨rfl, TimerType.noConfusion⟩
      once := Nat.zero_le _
      said := fun status member => absurd member not_mem_nil
      success := fun ended => by cases ended }

theorem inv_step (inv : Inv ice) {event : Event} (sound : StepSound cfg ice event)
    (done : step cfg ice event = some ice') : Inv ice' where
  live := live_step inv.live done
  lists := lists_step inv.lists inv.live sound done
  pointers := pointers_step inv.pointers inv.lists sound done
  signals := signals_step inv.signals done

theorem Inv.sound (inv : Inv ice) : Sound ice where
  joined := fun check member => member.elim (inv.lists.checks_joined check) (inv.lists.valid_joined check)
  distinct := inv.lists.distinct
  room := ⟨inv.lists.checks_room, inv.lists.valid_room⟩
  valid_check := fun i comp slot found => (inv.pointers i comp found).valid_in slot
  nominated_check := fun i comp slot found => (inv.pointers i comp found).nominated_in slot
  once := (Nat.le_add_right _ _).trans inv.signals.once
  success := fun said => by
    have status := inv.signals.said _ said
    refine inv.signals.success ?_ status.symm
    by_contra running
    rw [(inv.signals.silent (Bool.eq_false_iff.mpr running)).1] at said
    exact not_mem_nil said

/-- In every run whose steps find candidates of the right component, have room and keep what is
nominated, every state has the invariant. -/
theorem iceSess_sound (cfg : Config) (role : Role) (compCnt : Nat) (events : List Event)
    (met : Run.Meets (next cfg) (fun state event => ∀ ice ∈ state, StepSound cfg ice event)
      (some (pjIceSessCreate role compCnt)) events) :
    Run.Always (next cfg) (fun state => ∀ ice ∈ state, Sound ice)
      (some (pjIceSessCreate role compCnt)) events := by
  have kept : Run.Always (next cfg) (fun state => ∀ ice ∈ state, Inv ice)
      (some (pjIceSessCreate role compCnt)) events := by
    refine Run.always ?_ ?_ met
    · intro ice event inv sound ice' done
      have ⟨before, held, step'⟩ := bind_eq_some_iff.mp done
      exact inv_step (inv before held) (sound before held) step'
    · intro ice same
      obtain rfl := some.inj same
      exact inv_start role compCnt
  exact kept.imp fun ice inv ice' same => (inv ice' same).sound

/-- A component is checked, nominated by the other agent, and ICE ends. -/
def nominatedRun : List Event :=
  [addHost 1 10, .createCheckList [remoteHost 1 1000 20], .startCheck, .periodicTimer,
    .requestComplete 0 pjSuccess (some (iceAddr 1 10)) (iceAddr 2 20),
    rxBinding 1 20 true .controlling, .sessionTimer]

theorem iceSess_sound_nominated :
    Run.Always (next calmConfig) (fun state => ∀ ice ∈ state, Sound ice)
        (some (pjIceSessCreate .controlled 1)) nominatedRun ∧
      ((nominatedRun.foldl (next calmConfig) (some (pjIceSessCreate .controlled 1))).map fun ice =>
        (completions ice.log, ice.comps)) = some ([pjSuccess], [⟨some 0, some 0⟩]) :=
  ⟨iceSess_sound calmConfig .controlled 1 nominatedRun (by decide), by decide⟩

/-- The other agent sends a check for component 2 from its address for component 1. -/
def crossedRun : List Event :=
  [addHost 1 10, addHost 2 11, .createCheckList [remoteHost 1 1000 20, remoteHost 2 999 21],
    .startCheck, rxBinding 2 20 false .controlling]

/-- The candidate with that address is paired with a local candidate of component 2. -/
theorem iceSess_unsound : ¬Run.Always (next calmConfig) (fun state => ∀ ice ∈ state, Sound ice)
    (some (pjIceSessCreate .controlled 2)) crossedRun := by
  intro always
  have crossed : ((crossedRun.foldl (next calmConfig) (some (pjIceSessCreate .controlled 2))).map
      fun ice => ice.checks.any fun check =>
        (ice.lcand check).compId = 2 && (ice.rcand check).compId = 1) = some true := by decide
  have ⟨ice, reached, found⟩ := map_eq_some_iff.mp crossed
  have ⟨check, member, components⟩ := any_eq_true.mp found
  simp only [Bool.and_eq_true, decide_eq_true_eq] at components
  have joined := (always.last ice reached).joined check (.inl member)
  rw [Joined, components.1, components.2] at joined
  exact absurd joined.2.2 (by decide)

end Pjnath.Ice
