import Pjproject.Ice.Steps

/-!
# The transactions of an ICE session

In every state of a session each check that is in progress has a transaction that goes on: the
transactions are of checks of the checklist, no two have one number, and a check that is in progress
has the number of one of its own.
-/

namespace Pjnath.Ice
open List Pj Stun

variable {cfg : Config} {ice ice' : IceSess} {but : Option Nat} {ckid : Nat}

/-- The transactions of a session, and those of its checks, but for one that is being dealt with. -/
structure Live (ice : IceSess) (but : Option Nat) : Prop where
  slots : ∀ request ∈ ice.tsx, request.ckid < ice.checks.length
  ids : ∀ request ∈ ice.tsx, request.id < ice.nextTdata
  unique : ∀ request ∈ ice.tsx, ∀ other ∈ ice.tsx, request.id = other.id → request = other
  live : ∀ i check, but ≠ some i → ice.checks[i]? = some check → check.state = .inProgress →
    ∃ request ∈ ice.tsx, request.ckid = i ∧ check.tdata = some request.id

section
variable (live : Live ice but)
include live

/-- Only the checks and the transactions matter. -/
theorem Live.congr (checks : ice'.checks = ice.checks) (tsx : ice'.tsx = ice.tsx)
    (next : ice'.nextTdata = ice.nextTdata) : Live ice' but :=
  { slots := checks ▸ tsx ▸ live.slots
    ids := tsx ▸ next ▸ live.ids
    unique := tsx ▸ live.unique
    live := checks ▸ tsx ▸ live.live }

/-- The checks change, each into one that is not in progress or that goes on as it was. -/
theorem Live.change {but' : Option Nat} (checks : ice'.checks.length = ice.checks.length)
    (tsx : ice'.tsx = ice.tsx) (next : ice'.nextTdata = ice.nextTdata)
    (each : ∀ i check', but' ≠ some i → ice'.checks[i]? = some check' → check'.state = .inProgress →
    but ≠ some i ∧ ∃ check, ice.checks[i]? = some check ∧ check.state = .inProgress ∧ check.tdata =
    check'.tdata) :
    Live ice' but' :=
  { slots := fun request member => by
      rw [checks]
      rw [tsx] at member
      exact live.slots request member
    ids := tsx ▸ next ▸ live.ids
    unique := tsx ▸ live.unique
    live := fun i check' other found state => by
      have ⟨apart, check, found', state', same⟩ := each i check' other found state
      rw [tsx, ← same]
      exact live.live i check apart found' state' }

/-- A check is changed in what does not matter. -/
theorem Live.flag {change : Check → Check}
    (keeps : ∀ check, (change check).state = check.state ∧ (change check).tdata = check.tdata) :
    Live (ice.updateCheck ckid change) but := by
  refine live.change (length_modify ..) rfl rfl ?_
  intro i check' other found state
  rw [IceSess.updateCheck, getElem?_modify] at found
  obtain ⟨check, found', same⟩ := Option.map_eq_some_iff.mp found
  refine ⟨other, check, found', ?_⟩
  by_cases here : ckid = i
  · simp only [here, if_true] at same
    rw [← same, (keeps check).1] at state
    rw [← same, (keeps check).2]
    exact ⟨state, rfl⟩
  · simp only [here, if_false] at same
    rw [← same] at state
    rw [← same]
    exact ⟨state, rfl⟩

/-- The check that was being dealt with is not in progress any more. -/
theorem Live.settle (only : but = none ∨ but = some ckid) {change : Check → Check}
    (settled : ∀ check, (change check).state ≠ .inProgress) :
    Live (ice.updateCheck ckid change) none := by
  refine live.change (length_modify ..) rfl rfl ?_
  intro i check' _ found state
  rw [IceSess.updateCheck, getElem?_modify] at found
  obtain ⟨check, found', same⟩ := Option.map_eq_some_iff.mp found
  by_cases here : ckid = i
  · simp only [here, if_true] at same
    exact absurd (same ▸ state) (settled check)
  · simp only [here, if_false] at same
    refine ⟨?_, check, found', same ▸ state, same ▸ rfl⟩
    rcases only with rfl | rfl
    · exact (Option.some_ne_none i).symm
    · exact fun equal => here (Option.some.inj equal)

theorem live_checkSetState (only : but = none ∨ but = some ckid) {state : CheckState}
    {errCode : Int} (settled : state ≠ .inProgress) :
    Live (ice.checkSetState ckid state errCode) none :=
  live.settle only fun _ => settled

end

variable {check : Check}

theorem live_unfreeze (live : Live ice but) : Live (unfreeze ice check) but := by
  refine live.change (length_map _) rfl rfl ?_
  intro i check' other found state
  rw [unfreeze, getElem?_map] at found
  obtain ⟨before, found', same⟩ := Option.map_eq_some_iff.mp found
  split at same
  · rw [← same] at state
    cases state
  · exact ⟨other, before, found', same ▸ state, same ▸ rfl⟩

/-- A transaction is cancelled with its own check. -/
theorem live_cancelOthers (live : Live ice none) (done : cancelOthers ice check = some ice') :
    Live ice' none := by
  unfold cancelOthers at done
  simp only [Option.ite_none_left_eq_some, Option.some.injEq] at done
  obtain ⟨-, rfl⟩ := done
  exact
    { slots := fun request member => by
        rw [length_map]
        exact live.slots request (mem_of_mem_filter member)
      ids := fun request member => live.ids request (mem_of_mem_filter member)
      unique := fun request member other member' =>
        live.unique request (mem_of_mem_filter member) other (mem_of_mem_filter member')
      live := fun i check' other found state => by
        rw [getElem?_map] at found
        have ⟨before, found', same⟩ := Option.map_eq_some_iff.mp found
        split at same
        · rw [← same] at state
          cases state
        · next kept =>
          split at same
          · rw [← same] at state
            cases state
          · subst same
            have ⟨request, member, slot, tdata⟩ := live.live i before other found' state
            refine ⟨request, mem_filter.mpr ⟨member, ?_⟩, slot, tdata⟩
            -- A cancelled check with this transaction would be this check.
            rw [Bool.not_eq_true', any_eq_false]
            intro cancelled among same'
            have ⟨j, found''⟩ := mem_iff_getElem?.mp (mem_of_mem_filter among)
            have is := of_mem_filter among
            simp only [isCancelled, Bool.and_eq_true, decide_eq_true_eq] at is
            have ⟨request', member', slot', tdata'⟩ :=
              live.live j cancelled (Option.some_ne_none j).symm found'' is.1.2
            rw [decide_eq_true_eq] at same'
            have equal := live.unique request member request' member'
              (Option.some.inj (same'.symm.trans tdata'))
            have here : j = i := by rw [← slot', ← equal, slot]
            rw [here, found'] at found''
            rw [Option.some.inj found''] at kept
            exact kept (of_mem_filter among) }

variable {status : Int}

theorem live_onIceComplete (live : Live ice but) :
    Live (onIceComplete cfg ice status) but := by
  unfold onIceComplete
  split
  · exact live
  · exact live.congr rfl rfl rfl

variable {checks : List Check}

/-- The checks that are nominated wait. -/
theorem renominateAll_states {comps : List Comp} {checks' : List Check}
    (done : renominateAll ice comps checks = some checks') {i : Nat} {check' : Check}
    (found : checks'[i]? = some check') :
    check'.state = .waiting ∨ checks[i]? = some check' := by
  induction comps generalizing checks with
  | nil =>
    cases done
    exact .inr found
  | cons comp rest ih =>
    unfold renominateAll at done
    split at done
    · cases done
    · next slot _ =>
      rcases ih done with waits | kept
      · exact .inl waits
      · unfold renominate at kept
        dsimp only at kept
        split at kept
        · exact .inr kept
        · next ckid _ =>
          rw [getElem?_modify] at kept
          have ⟨before, found', same⟩ := Option.map_eq_some_iff.mp kept
          split at same
          · exact .inl (same ▸ rfl)
          · exact .inr (same ▸ found')

theorem live_startNominatedCheck (live : Live ice but) (done : startNominatedCheck ice = some ice') :
    Live ice' but := by
  obtain ⟨checks, renominated, rfl⟩ := startNominatedCheck_eq done
  have length := length_of_map_pair (map_renominateAll renominated)
  refine live.change length rfl rfl ?_
  intro i check' other found state
  rcases renominateAll_states renominated found with waits | kept
  · rw [waits] at state
    cases state
  · exact ⟨other, check', kept, state, rfl⟩

theorem live_onPairStates (live : Live ice but) {complete : Bool}
    (done : onPairStates cfg ice check = some (ice', complete)) : Live ice' but := by
  unfold onPairStates at done
  split at done
  · cases done
    exact live_onIceComplete live
  · split at done
    · unfold onAllChecksDone at done
      split at done
      · split at done
        · cases done
          exact live_onIceComplete live
        · split at done <;> cases done <;> exact live.congr rfl rfl rfl
      · split at done
        · cases done
          exact live_onIceComplete live
        · split at done
          · cases done
            exact live_onIceComplete live
          · have ⟨started, found, same⟩ := Option.map_eq_some_iff.mp done
            cases same
            exact live_startNominatedCheck live found
    · split at done <;> cases done <;> exact live.congr rfl rfl rfl

theorem live_onCheckComplete (live : Live ice none) {complete : Bool}
    (done : onCheckComplete cfg ice ckid = some (ice', complete)) : Live ice' none := by
  have ⟨unfrozen, settled, first, second, rest⟩ := onCheckComplete_cases done
  have live' : Live unfrozen none := by
    rcases first with rfl | ⟨-, rfl⟩
    · exact live
    · exact live_unfreeze live
  have live'' : Live settled none := by
    rcases second with rfl | cancelled
    · exact live'
    · exact live_cancelOthers live' cancelled
  exact live_onPairStates live'' rest

theorem live_failCheck (live : Live ice but) (only : but = none ∨ but = some ckid)
    (done : failCheck cfg ice ckid status = some ice') : Live ice' none := by
  obtain ⟨⟨completed, complete⟩, found, rfl⟩ := Option.map_eq_some_iff.mp done
  exact live_onCheckComplete (live_checkSetState live only CheckState.noConfusion) found

/-- A check that is not in progress is performed. -/
theorem live_performCheck (live : Live ice none) (inside : ckid < ice.checks.length)
    (idle : (checkAt ice.checks ckid).state ≠ .inProgress) {nominate : Bool}
    (done : performCheck cfg ice ckid nominate = some (ice', status)) : Live ice' none := by
  obtain ⟨change, sent, performed⟩ := performCheck_performed done
  obtain rfl := performed.eq
  have own : ∀ request ∈ sent, request.id = ice.nextTdata ∧ request.ckid = ckid := by
    intro request member
    rcases performed.one with rfl | rfl
    · exact absurd member not_mem_nil
    · obtain rfl := mem_singleton.mp member
      exact ⟨rfl, rfl⟩
  have one : ∀ request ∈ sent, ∀ other ∈ sent, request = other := by
    intro request member other member'
    rcases performed.one with rfl | rfl
    · exact absurd member not_mem_nil
    · exact (mem_singleton.mp member).trans (mem_singleton.mp member').symm
  have slots : ∀ request ∈ ice.tsx ++ sent, request.ckid < (ice.checks.modify ckid change).length := by
    intro request member
    rw [length_modify]
    rcases mem_append.mp member with member | member
    · exact live.slots request member
    · rw [(own request member).2]
      exact inside
  have ids : ∀ request ∈ ice.tsx ++ sent, request.id < ice.nextTdata + 1 := by
    intro request member
    rcases mem_append.mp member with member | member
    · exact Nat.lt_succ_of_lt (live.ids request member)
    · rw [(own request member).1]
      exact Nat.lt_succ_self _
  have unique : ∀ request ∈ ice.tsx ++ sent, ∀ other ∈ ice.tsx ++ sent,
      request.id = other.id → request = other := by
    intro request member other member' same
    rcases mem_append.mp member with member | member <;>
      rcases mem_append.mp member' with member' | member'
    · exact live.unique request member other member' same
    · have small := live.ids request member
      rw [same, (own other member').1] at small
      exact absurd small (Nat.lt_irrefl _)
    · have small := live.ids other member'
      rw [← same, (own request member).1] at small
      exact absurd small (Nat.lt_irrefl _)
    · exact one request member other member'
  refine ⟨slots, ids, unique, fun i check' other found state => ?_⟩
  rw [getElem?_modify] at found
  obtain ⟨check, found', same⟩ := Option.map_eq_some_iff.mp found
  by_cases here : ckid = i
  · subst here
    simp only [if_true] at same
    subst same
    by_cases success : status = pjSuccess
    · have started := performed.started success
      rw [started.1]
      exact ⟨_, mem_append_right _ mem_cons_self, rfl, (started.2 check).2⟩
    · -- The check is what it was, which is not in progress.
      rw [(performed.failed success check).1] at state
      have at' : checkAt ice.checks ckid = check := by
        rw [checkAt, getD_eq_getElem?_getD, found', Option.getD_some]
      exact absurd state (at' ▸ idle)
  · simp only [here, if_false] at same
    subst same
    obtain ⟨request, member, slot, tdata⟩ := live.live i check other found' state
    exact ⟨request, mem_append_left _ member, slot, tdata⟩

theorem live_startPeriodicCheck (live : Live ice none)
    (done : startPeriodicCheck cfg ice = some ice') : Live ice' none := by
  unfold startPeriodicCheck at done
  dsimp only at done
  split at done
  · cases done
    exact live.congr rfl rfl rfl
  · next ckid found =>
    have ⟨⟨performed, status⟩, first, rest⟩ := Option.bind_eq_some_iff.mp done
    obtain ⟨settled, rest', rfl⟩ := Option.map_eq_some_iff.mp rest
    have spec : ckid < ice.checks.length ∧ (checkAt ice.checks ckid).state ≠ .inProgress := by
      unfold nextCheck at found
      split at found
      · next waits =>
        cases found
        have spec := checkAt_of_findIdx? waits
        refine ⟨spec.1, fun state => ?_⟩
        simp [state] at spec
      · have spec := checkAt_of_findIdx? found
        refine ⟨spec.1, fun state => ?_⟩
        simp [state] at spec
    have live' : Live performed none :=
      live_performCheck (live.congr rfl rfl rfl : Live { ice with clistTimer := false } none)
        spec.1 spec.2 first
    have live'' : Live settled none := by
      split at rest'
      · exact live_failCheck live' (.inl rfl) rest'
      · cases rest'
        exact live'
    exact live''.congr rfl rfl rfl

theorem live_updateCompCheck (live : Live ice but) {compId slot : Nat}
    (done : updateCompCheck ice compId slot = some ice') : Live ice' but := by
  unfold updateCompCheck at done
  split at done
  · cases done
  · cases done
    exact live.congr rfl rfl rfl

theorem live_nominateValid (live : Live ice but) {slot : Nat}
    (done : nominateValid check ice slot = some ice') : Live ice' but := by
  unfold nominateValid at done
  dsimp only at done
  split at done
  · refine live_updateCompCheck ?_ done
    exact live.congr rfl rfl rfl
  · cases done
    exact live

theorem live_triggerCheck (live : Live ice none) (inside : ckid < ice.checks.length)
    {rcheck : RxCheck} (done : triggerCheck cfg ice rcheck ckid = some ice') : Live ice' none := by
  obtain ⟨flagged, rfl, outcome⟩ := triggerCheck_cases done
  have live' : Live (ice.updateCheck ckid fun check =>
      { check with nominated := rcheck.useCandidate || check.nominated }) none :=
    live.flag fun _ => ⟨rfl, rfl⟩
  rcases outcome with ⟨state, nominate, status, performed⟩ | ⟨-, nominated, complete, first, rest⟩ |
    ⟨-, rfl⟩
  · apply live_performCheck live' ?_ ?_ performed
    · exact (length_modify ..).symm ▸ inside
    · rcases state with state | state <;> rw [state] <;> exact CheckState.noConfusion
  · refine live_onCheckComplete ?_ rest
    rcases first with rfl | ⟨-, loop⟩
    · exact live'
    · exact Run.foldlM_kept (fun other => Live other none)
        (fun _ _ _ _ kept found => live_nominateValid kept found) live' loop
  · exact live'

theorem live_handleIncomingCheck (live : Live ice none) {rcheck : RxCheck}
    (done : handleIncomingCheck cfg ice rcheck = some ice') : Live ice' none := by
  rcases handleIncomingCheck_cases done with rfl | ⟨known, rcand, learned, outcome⟩
  · exact live
  have same : known.checks = ice.checks ∧ known.tsx = ice.tsx ∧ known.nextTdata = ice.nextTdata := by
    rcases learned with ⟨-, rfl⟩ | ⟨-, -, -, rfl⟩ <;> exact ⟨rfl, rfl, rfl⟩
  have live' : Live known none := live.congr same.1 same.2.1 same.2.2
  rcases outcome with rfl | ⟨lcand, -, ⟨ckid, -, inside, triggers⟩ | ⟨-, rfl | ⟨-, nominate, status, performed⟩⟩⟩
  · exact live'
  · exact live_triggerCheck live' (same.1.symm ▸ inside) triggers
  · exact live'
  · refine live_performCheck ?_ ?_ ?_ performed
    · exact
        { slots := fun request member => by
            rw [length_append]
            rw [same.2.1] at member
            exact Nat.lt_add_right _ (live.slots request member)
          ids := live'.ids
          unique := live'.unique
          live := fun i check other found state => by
            rw [getElem?_append] at found
            split at found
            · rw [show known.tsx = ice.tsx from same.2.1]
              exact live.live i check other found state
            · rw [getElem?_singleton] at found
              split at found
              · cases found
                cases state
              · cases found }
    · rw [length_append]
      exact Nat.lt_succ_self _
    · have last : checkAt (ice.checks ++ [triggered known rcheck lcand rcand]) ice.checks.length =
          triggered known rcheck lcand rcand := by
        simp [checkAt]
      rw [last]
      exact CheckState.noConfusion

variable {request : CheckRequest}

/-- The check of a request that ends is dealt with next. -/
theorem live_endRequest (live : Live ice none) (member : request ∈ ice.tsx) :
    Live (endRequest ice request) (some request.ckid) :=
  { slots := fun other member' => by
      refine (length_modify ..).symm ▸ live.slots other (mem_of_mem_filter member')
    ids := fun other member' => live.ids other (mem_of_mem_filter member')
    unique := fun other member' another member'' =>
      live.unique other (mem_of_mem_filter member') another (mem_of_mem_filter member'')
    live := fun i check' other found state => by
      rw [endRequest, IceSess.updateCheck, getElem?_modify] at found
      obtain ⟨check, found', same⟩ := Option.map_eq_some_iff.mp found
      have apart : request.ckid ≠ i := fun here => other (congrArg some here)
      simp only [apart, if_false] at same
      subst same
      obtain ⟨own, member', slot, tdata⟩ := live.live i check (Option.some_ne_none i).symm found' state
      refine ⟨own, mem_filter.mpr ⟨member', ?_⟩, slot, tdata⟩
      rw [decide_eq_true_eq]
      intro same
      exact apart (by rw [← live.unique own member' request member same, slot]) }

theorem length_endRequest :
    (endRequest ice request).checks.length = ice.checks.length :=
  length_modify ..

theorem live_retryCheck (live : Live ice (some request.ckid))
    (inside : request.ckid < ice.checks.length) (done : retryCheck cfg ice request = some ice') :
    Live ice' none := by
  obtain ⟨⟨performed, status⟩, found, rfl⟩ := Option.map_eq_some_iff.mp done
  have live' : Live ({ ice with role := conflictRole request.controlling }.checkSetState
      request.ckid .waiting pjSuccess) none := by
    have turned : Live { ice with role := conflictRole request.controlling } (some request.ckid) :=
      live.congr rfl rfl rfl
    exact live_checkSetState turned (.inr rfl) CheckState.noConfusion
  apply live_performCheck live' ?_ ?_ found
  · exact (length_modify ..).symm ▸ inside
  · have waits : (checkAt (({ ice with role := conflictRole request.controlling }.checkSetState
        request.ckid .waiting pjSuccess).checks) request.ckid).state = .waiting := by
      simp [checkAt, IceSess.checkSetState, IceSess.updateCheck, getElem?_eq_getElem inside]
    rw [waits]
    exact CheckState.noConfusion

/-- What `succeedCheck` goes through. -/
theorem succeedCheck_eq {lcand : Nat} (done : succeedCheck cfg ice ckid lcand = some ice') :
    ∃ updated : IceSess, ∃ complete,
      updateCompCheck { ice with valid := (addValid ice (checkAt ice.checks ckid) lcand).1 }
        (ice.lcand (checkAt (addValid ice (checkAt ice.checks ckid) lcand).1
          (addValid ice (checkAt ice.checks ckid) lcand).2)).compId
        (addValid ice (checkAt ice.checks ckid) lcand).2 = some updated ∧
      onCheckComplete cfg ((sortValid updated).checkSetState ckid .succeeded pjSuccess) ckid =
        some (ice', complete) := by
  have ⟨updated, first, rest⟩ := Option.bind_eq_some_iff.mp done
  obtain ⟨⟨completed, complete⟩, found, rfl⟩ := Option.map_eq_some_iff.mp rest
  exact ⟨updated, complete, first, found⟩

theorem live_succeedCheck (live : Live ice (some ckid)) {lcand : Nat}
    (done : succeedCheck cfg ice ckid lcand = some ice') : Live ice' none := by
  have ⟨updated, complete, first, rest⟩ := succeedCheck_eq done
  have live' : Live updated (some ckid) := by
    refine live_updateCompCheck ?_ first
    exact live.congr rfl rfl rfl
  have sorted : Live (sortValid updated) (some ckid) := live'.congr rfl rfl rfl
  exact live_onCheckComplete (live_checkSetState sorted (.inr rfl) CheckState.noConfusion) rest

theorem live_onStunRequestComplete (live : Live ice none) (member : request ∈ ice.tsx)
    {mapped : Option Sockaddr} {srcAddr : Sockaddr}
    (done : onStunRequestComplete cfg ice request status mapped srcAddr = some ice') :
    Live ice' none := by
  have ended := live_endRequest live member
  have inside : request.ckid < (endRequest ice request).checks.length :=
    length_endRequest.symm ▸ live.slots request member
  rcases onStunRequestComplete_cases done with ⟨-, retried⟩ | ⟨failure, -, failed⟩ |
    ⟨addr, -, ⟨found, -, succeeded⟩ | ⟨-, -, cand, -, -, -, succeeded⟩⟩
  · exact live_retryCheck ended inside retried
  · exact live_failCheck ended (.inr rfl) failed
  · exact live_succeedCheck ended succeeded
  · refine live_succeedCheck ?_ succeeded
    exact ended.congr rfl rfl rfl

theorem live_onStunRxRequest (live : Live ice none) {rx : RxRequest}
    (done : onStunRxRequest cfg ice rx = some ice') : Live ice' none := by
  rcases onStunRxRequest_cases done with ⟨code, rfl⟩ | rfl |
    ⟨role, -, rfl | ⟨-, -, priority, -, ⟨-, rfl⟩ | handled⟩⟩
  · exact live.congr rfl rfl rfl
  · exact live
  · exact live.congr rfl rfl rfl
  · exact live.congr rfl rfl rfl
  · refine live_handleIncomingCheck ?_ handled
    exact live.congr rfl rfl rfl

/-- The checks that start to wait. -/
theorem wakeFirsts_states {compId : Nat} {seen : List Str} :
    (wakeFirsts ice compId seen checks).length = checks.length ∧
      ∀ (i : Nat) (check' : Check), (wakeFirsts ice compId seen checks)[i]? = some check' →
        checks[i]? = some check' ∨ check'.state = .waiting ∧
          ∃ check, checks[i]? = some check ∧ check'.pair = check.pair := by
  induction checks generalizing seen with
  | nil => exact ⟨rfl, fun i check' found => .inl found⟩
  | cons check rest ih =>
    by_cases first : (ice.lcand check).compId = compId ∧ (ice.lcand check).foundation ∉ seen
    · rw [wakeFirsts, if_pos first]
      refine ⟨congrArg Nat.succ ih.1, fun i check' found => ?_⟩
      cases i with
      | zero =>
        split at found
        · cases found
          exact .inr ⟨rfl, check, rfl, rfl⟩
        · exact .inl found
      | succ i => exact ih.2 i check' found
    · rw [wakeFirsts, if_neg first]
      refine ⟨congrArg Nat.succ ih.1, fun i check' found => ?_⟩
      cases i with
      | zero => exact .inl found
      | succ i => exact ih.2 i check' found

section
variable (live : Live ice none)
include live

theorem live_wake : Live (wake cfg ice) none := by
  refine live.change wakeFirsts_states.1 rfl rfl ?_
  intro i check' other found state
  rcases wakeFirsts_states.2 i check' found with kept | ⟨waits, -⟩
  · exact ⟨other, check', kept, state, rfl⟩
  · rw [waits] at state
    cases state

theorem live_startCheck (done : pjIceSessStartCheck cfg ice = some (ice', status)) :
    Live ice' none := by
  rcases startCheck_cases done with ⟨-, rfl | rfl⟩ | ⟨-, checked, early, rfl⟩
  · exact live
  · exact live.congr rfl rfl rfl
  · have live' : Live checked none :=
      Run.foldlM_kept (fun other => Live other none)
        (fun _ _ _ _ kept found => live_handleIncomingCheck kept found) (live_wake live) early
    exact live'.congr rfl rfl rfl

theorem live_onTimer (done : onTimer cfg ice = some ice') : Live ice' none := by
  have stopped : Live { ice with timer := .none } none := live.congr rfl rfl rfl
  unfold onTimer at done
  dsimp only at done
  split at done
  · cases done
    exact live_onIceComplete stopped
  · obtain ⟨kept, found, rfl⟩ := Option.map_eq_some_iff.mp done
    have live' : Live kept none := by
      split at found
      · cases found
        exact stopped.congr rfl rfl rfl
      · cases found
        exact stopped
    exact live'.congr rfl rfl rfl
  · exact live_startNominatedCheck stopped done
  · unfold iceKeepAlive at done
    simp only [if_true] at done
    split at done
    · cases done
    · cases done
    · cases done
      exact stopped.congr rfl rfl rfl
  · cases done
    exact stopped

/-- Every step keeps the transactions of the checks that are in progress. -/
theorem live_step {event : Event} (done : step cfg ice event = some ice') : Live ice' none := by
  cases event with
  | addCand compId transportId type localPref foundation addr baseAddr =>
    cases done
    unfold pjIceSessAddCand
    split
    · exact live
    · split
      · exact live
      · exact live.congr rfl rfl rfl
  | changeRole role =>
    cases done
    exact live.congr rfl rfl rfl
  | createCheckList remCand =>
    have ⟨fresh, done⟩ := createCheckList_step done
    obtain ⟨created, pruned, highestComp, pairs, -, pruned', -, rfl⟩ := createCheckList_eq done
    rw [fresh] at pairs
    have idle : ice.tsx = [] := by
      apply eq_nil_iff_forall_not_mem.mpr
      intro request member
      have slot := live.slots request member
      rw [fresh] at slot
      exact absurd slot (Nat.not_lt_zero _)
    have none' : ∀ request, request ∉ ice.tsx := fun request => idle ▸ not_mem_nil
    refine ⟨fun request member => absurd member (none' request), live.ids, live.unique,
      fun i check other found state => ?_⟩
    obtain ⟨origin, ⟨m, n, -, -, -, rfl⟩, image⟩ :=
      created_origin pairs pruned' (mem_of_getElem? found)
    -- A pair that is created is frozen.
    rcases replaceSrflx_cases image with ⟨-, rfl⟩ | ⟨-, host, -, rfl⟩ <;> cases state
  | startCheck =>
    obtain ⟨⟨started, status⟩, found, rfl⟩ := Option.map_eq_some_iff.mp done
    exact live_startCheck live found
  | periodicTimer =>
    rcases periodicTimer_step done with rfl | ⟨-, done⟩
    · exact live
    · exact live_startPeriodicCheck live done
  | sessionTimer => exact live_onTimer live done
  | requestComplete id status mapped srcAddr =>
    rcases requestComplete_step done with rfl | ⟨request, member, -, done⟩
    · exact live
    · exact live_onStunRequestComplete live member done
  | rxRequest rx => exact live_onStunRxRequest live done

end

end Pjnath.Ice
