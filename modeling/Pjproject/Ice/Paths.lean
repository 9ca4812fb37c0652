import Pjproject.Ice.Pointers

/-!
# The ways of the checks of an ICE session

A request goes out by the transport of the local candidate of its check, and each pair of the valid
list has the transport and the remote candidate of a check. A step keeps this if a check that
succeeds with a local candidate that is known stays on its transport.
-/

namespace Pjnath.Ice
open Option List Pj Stun

variable {cfg : Config} {ice ice' : IceSess} {ckid : Nat}

/-- The transport of a check. -/
def IceSess.transport (ice : IceSess) (check : Check) : Nat := (ice.lcand check).transportId

/-- A request is sent by the transport of its check. -/
def OnItsWay (ice : IceSess) (request : CheckRequest) : Prop :=
  request.ckid < ice.checks.length ∧
    request.transportId = ice.transport (checkAt ice.checks request.ckid)

/-- The invariant of the candidates, the checks and the requests. -/
structure Paths (ice : IceSess) : Prop where
  checks_in : ∀ check ∈ ice.checks, check.lcand < ice.lcands.length
  valid_in : ∀ vc ∈ ice.valid, vc.lcand < ice.lcands.length
  transports : ∀ cand ∈ ice.lcands, cand.transportId < 256
  sent : ∀ request ∈ ice.tsx, OnItsWay ice request
  known : ∀ vc ∈ ice.valid, ∃ check ∈ ice.checks,
    ice.transport check = ice.transport vc ∧ check.rcand = vc.rcand
  pointed : ∀ comp ∈ ice.comps, ∀ slot, comp.validCheck = some slot → slot < ice.valid.length

/-! ## What leaves the pairs as they are -/

variable {checks : List Check}

variable {request : CheckRequest}

theorem checkAt_pair {checks' : List Check}
    (same : checks'.map Check.pair = checks.map Check.pair) (slot : Nat) :
    (checkAt checks' slot).pair = (checkAt checks slot).pair := by
  have there := congrArg (fun pairs : List (Nat × Nat × Nat) => pairs[slot]?) same
  simp only [getElem?_map] at there
  simp only [checkAt, getD_eq_getElem?_getD]
  cases found : checks[slot]? <;> cases found' : checks'[slot]? <;>
    simp_all

theorem OnItsWay.congr (way : OnItsWay ice request) (left : ice'.lcands = ice.lcands)
    (pairs : ice'.checks.map Check.pair = ice.checks.map Check.pair) : OnItsWay ice' request := by
  refine ⟨(length_of_map_pair pairs).symm ▸ way.1, way.2.trans ?_⟩
  have key := key_of_pair (checkAt_pair pairs request.ckid)
  simp only [IceSess.transport, IceSess.lcand, left, key.1]

/-- The pairs stay, and what is new among the requests is sent by the transport of its check. -/
theorem Paths.congr (paths : Paths ice) (left : ice'.lcands = ice.lcands)
    (pairs : ice'.checks.map Check.pair = ice.checks.map Check.pair)
    (valid : ice'.valid.map Check.pair = ice.valid.map Check.pair)
    (sent : ∀ request ∈ ice'.tsx, request ∈ ice.tsx ∨ OnItsWay ice request)
    (pointed : ∀ comp ∈ ice'.comps, ∀ slot, comp.validCheck = some slot → slot < ice.valid.length) :
    Paths ice' :=
  { checks_in := by
      rw [left]
      exact forall_of_map_pair pairs (fun _ _ same inside => (key_of_pair same).1.symm ▸ inside)
        paths.checks_in
    valid_in := by
      rw [left]
      exact forall_of_map_pair valid (fun _ _ same inside => (key_of_pair same).1.symm ▸ inside)
        paths.valid_in
    transports := left ▸ paths.transports
    sent := fun request member => by
      rcases sent request member with before | way
      · exact (paths.sent request before).congr left pairs
      · exact way.congr left pairs
    known := by
      intro vc' inside
      have mapped : vc'.pair ∈ ice.valid.map Check.pair := valid ▸ mem_map_of_mem inside
      have ⟨vc, among, same⟩ := mem_map.mp mapped
      have ⟨check, member, way, remote⟩ := paths.known vc among
      have mapped' : check.pair ∈ ice'.checks.map Check.pair := pairs ▸ mem_map_of_mem member
      have ⟨check', member', same'⟩ := mem_map.mp mapped'
      have key := key_of_pair same.symm
      have key' := key_of_pair same'
      refine ⟨check', member', ?_, ?_⟩
      · simp only [IceSess.transport, IceSess.lcand, left, key.1, key'.1]
        exact way
      · rw [key.2, key'.2, remote]
    pointed := fun comp member slot points => by
      rw [length_of_map_pair valid]
      exact pointed comp member slot points }

theorem Paths.of_frame (paths : Paths ice) (same : ice'.frame = ice.frame)
    (sent : ∀ request ∈ ice'.tsx, request ∈ ice.tsx ∨ OnItsWay ice request) : Paths ice' := by
  apply paths.congr (frame_lcands same) (frame_pairs same) ?_ sent
  · rw [frame_comps same]
    exact paths.pointed
  · rw [frame_valid same]

/-! ## The end of a check -/

variable {complete : Bool}

variable {status : Int}

/-- No request is pending that was not. -/
def Keeps (ice ice' : IceSess) : Prop := ∀ request ∈ ice'.tsx, request ∈ ice.tsx

theorem keeps_onIceComplete : Keeps ice (onIceComplete cfg ice status) := by
  unfold onIceComplete
  split <;> exact fun _ member => member

theorem keeps_onPairStates {check : Check}
    (done : onPairStates cfg ice check = some (ice', complete)) : Keeps ice ice' := by
  unfold onPairStates at done
  split at done
  · cases done
    exact keeps_onIceComplete
  · split at done
    · unfold onAllChecksDone at done
      split at done
      · split at done
        · cases done
          exact keeps_onIceComplete
        · split at done <;> cases done <;> exact fun _ member => member
      · split at done
        · cases done
          exact keeps_onIceComplete
        · split at done
          · cases done
            exact keeps_onIceComplete
          · have ⟨started, found, same⟩ := map_eq_some_iff.mp done
            cases same
            obtain ⟨checks, -, rfl⟩ := startNominatedCheck_eq found
            exact fun _ member => member
    · split at done <;> cases done <;> exact fun _ member => member

theorem keeps_cancelOthers {check : Check} (done : cancelOthers ice check = some ice') :
    Keeps ice ice' := by
  unfold cancelOthers at done
  dsimp only at done
  split at done
  · cases done
  · cases done
    exact fun _ member => mem_of_mem_filter member

theorem keeps_onCheckComplete (done : onCheckComplete cfg ice ckid = some (ice', complete)) :
    Keeps ice ice' := by
  have ⟨unfrozen, settled, first, second, rest⟩ := onCheckComplete_cases done
  have same : unfrozen.tsx = ice.tsx := by
    rcases first with rfl | ⟨-, rfl⟩ <;> rfl
  have fewer : Keeps unfrozen settled := by
    rcases second with rfl | cancelled
    · exact fun _ member => member
    · exact keeps_cancelOthers cancelled
  intro request member
  exact same ▸ fewer request (keeps_onPairStates rest request member)

section
variable (paths : Paths ice)
include paths

theorem paths_onCheckComplete (done : onCheckComplete cfg ice ckid = some (ice', complete)) :
    Paths ice' :=
  paths.of_frame (frame_onCheckComplete done)
    fun request member => .inl (keeps_onCheckComplete done request member)

theorem paths_checkSetState {state : CheckState} {errCode : Int} :
    Paths (ice.checkSetState ckid state errCode) :=
  paths.of_frame frame_checkSetState fun _ member => .inl member

theorem paths_failCheck (done : failCheck cfg ice ckid status = some ice') : Paths ice' := by
  obtain ⟨⟨settled, complete⟩, found, rfl⟩ := map_eq_some_iff.mp done
  exact paths_onCheckComplete (paths_checkSetState paths) found

/-! ## Checks -/

theorem paths_performCheck (inside : ckid < ice.checks.length) {nominate : Bool}
    (done : performCheck cfg ice ckid nominate = some (ice', status)) : Paths ice' := by
  have ⟨change, sent, performed⟩ := performCheck_performed done
  apply paths.of_frame (frame_performCheck done)
  intro request member
  rw [performed.eq] at member
  rcases mem_append.mp member with before | new
  · exact .inl before
  · rcases performed.one with nothing | one
    · rw [nothing] at new
      exact absurd new not_mem_nil
    · rw [one, mem_singleton] at new
      rw [new]
      exact .inr ⟨inside, rfl⟩

end

/-- A slot of a list that another one takes over is a slot. -/
theorem takesOver_lt {valid : List Check} {current : Option Nat} {slot count : Nat}
    (inside : slot < count) (before : ∀ held, current = some held → held < count) :
    ∀ held, takesOver valid current slot = some held → held < count := by
  intro held taken
  rcases takesOver_cases valid current slot with ⟨same, -⟩ | ⟨other, was, same, -⟩
  · rw [same] at taken
    exact some.inj taken ▸ inside
  · rw [same] at taken
    exact some.inj taken ▸ before other was

section
variable (paths : Paths ice)
include paths

theorem paths_updateCompCheck {compId slot : Nat} (inside : slot < ice.valid.length)
    (done : updateCompCheck ice compId slot = some ice') : Paths ice' := by
  unfold updateCompCheck at done
  cases found : ice.findComp compId with
  | none => simp [found] at done
  | some comp =>
    rw [found] at done
    obtain rfl := some.inj done
    refine paths.congr rfl rfl rfl (fun _ member => .inl member) ?_
    intro comp' member held points
    rcases mem_or_eq_of_mem_set member with before | same
    · exact paths.pointed comp' before held points
    · rw [same] at points
      have own : comp ∈ ice.comps := by
        unfold IceSess.findComp at found
        split at found
        · cases found
        · exact mem_of_getElem? found
      exact takesOver_lt inside (paths.pointed comp own) held points

theorem paths_nominateValid {check : Check} {slot : Nat} (inside : slot < ice.valid.length)
    (done : nominateValid check ice slot = some ice') : Paths ice' := by
  unfold nominateValid at done
  dsimp only at done
  split at done
  · have flagged : Paths { ice with
        valid := ice.valid.modify slot fun vc => { vc with nominated := true } } := by
      have same : (ice.valid.modify slot fun vc => { vc with nominated := true }).map Check.pair =
          ice.valid.map Check.pair := map_modify_pair fun _ => rfl
      exact paths.congr rfl rfl same (fun _ member => .inl member) paths.pointed
    refine paths_updateCompCheck flagged ?_ done
    rw [length_modify]
    exact inside
  · cases done
    exact paths

theorem paths_triggerCheck (inside : ckid < ice.checks.length) {rcheck : RxCheck}
    (done : triggerCheck cfg ice rcheck ckid = some ice') : Paths ice' := by
  have ⟨flagged, same, outcome⟩ := triggerCheck_cases done
  have frame : flagged.frame = ice.frame := by
    rw [same, frame_updateCheck]
    exact fun _ => rfl
  have tsx : flagged.tsx = ice.tsx := by rw [same]; rfl
  have paths' : Paths flagged := paths.of_frame frame fun _ member => .inl (tsx ▸ member)
  rcases outcome with ⟨-, nominate, status, performed⟩ | ⟨-, nominated, complete, first, rest⟩ |
    ⟨-, rfl⟩
  · exact paths_performCheck paths' ((frame_length frame).symm ▸ inside) performed
  · refine paths_onCheckComplete ?_ rest
    rcases first with rfl | ⟨-, loop⟩
    · exact paths'
    · refine (Run.foldlM_kept (fun other : IceSess =>
        Paths other ∧ other.valid.length = flagged.valid.length) ?_ ⟨paths', rfl⟩ loop).1
      intro slot member state state' kept found
      have inside : slot < state.valid.length := kept.2 ▸ mem_range.mp member
      refine ⟨paths_nominateValid kept.1 inside found, ?_⟩
      exact (length_of_map_pair (congrArg Pairing.valid (pairing_nominateValid found))).trans kept.2
  · exact paths'

/-- Candidates and checks that are added leave the others where they are. -/
theorem Paths.grow {lcands : List Cand} (left : ice'.lcands = ice.lcands ++ lcands)
    (transports : ∀ cand ∈ lcands, cand.transportId < 256)
    (more : ice'.checks = ice.checks ++ checks)
    (checks_in : ∀ check ∈ checks, check.lcand < ice'.lcands.length)
    (valid : ice'.valid = ice.valid) (comps : ice'.comps = ice.comps) (tsx : ice'.tsx = ice.tsx) :
    Paths ice' := by
  have same : ∀ check : Check, check.lcand < ice.lcands.length →
      ice'.transport check = ice.transport check := by
    intro check inside
    simp only [IceSess.transport, IceSess.lcand]
    rw [left, getD_append _ _ _ _ inside]
  have larger : ice.lcands.length ≤ ice'.lcands.length := by
    rw [left, length_append]
    exact Nat.le_add_right ..
  exact
    { checks_in := fun check member => by
        rw [more] at member
        rcases mem_append.mp member with before | new
        · exact (paths.checks_in check before).trans_le larger
        · exact checks_in check new
      valid_in := fun vc member => by
        rw [valid] at member
        exact (paths.valid_in vc member).trans_le larger
      transports := fun cand member => by
        rw [left] at member
        rcases mem_append.mp member with before | new
        · exact paths.transports cand before
        · exact transports cand new
      sent := fun request member => by
        rw [tsx] at member
        obtain ⟨inside, way⟩ := paths.sent request member
        have there : checkAt ice'.checks request.ckid = checkAt ice.checks request.ckid := by
          rw [more, checkAt, checkAt, getD_append _ _ _ _ inside]
        constructor
        · rw [more, length_append]
          exact Nat.lt_add_right _ inside
        · rw [there, same _ (paths.checks_in _ (checkAt_mem inside))]
          exact way
      known := fun vc member => by
        rw [valid] at member
        obtain ⟨check, inside, way, remote⟩ := paths.known vc member
        refine ⟨check, ?_, ?_, remote⟩
        · rw [more]
          exact mem_append_left _ inside
        · rw [same check (paths.checks_in check inside), same vc (paths.valid_in vc member), way]
      pointed := fun comp member slot points => by
        rw [comps] at member
        rw [valid]
        exact paths.pointed comp member slot points }

theorem Paths.findLcand_lt {compId transportId lcand : Nat}
    (found : findLcand ice compId transportId = some lcand) : lcand < ice.lcands.length := by
  obtain ⟨check, member, rfl, -, -⟩ := findLcand_spec found
  exact paths.checks_in check member

theorem paths_handleIncomingCheck {rcheck : RxCheck}
    (done : handleIncomingCheck cfg ice rcheck = some ice') : Paths ice' := by
  rcases handleIncomingCheck_cases done with rfl | ⟨known, rcand, learned, outcome⟩
  · exact paths
  have grown : ∀ checks : List Check, (∀ check ∈ checks, check.lcand < ice.lcands.length) →
      Paths { known with checks := ice.checks ++ checks } := by
    intro checks inside
    rcases learned with ⟨-, rfl⟩ | ⟨-, -, -, rfl⟩ <;>
      exact paths.grow (append_nil _).symm (fun _ member => absurd member not_mem_nil) rfl
        inside rfl rfl rfl
  have same : known.checks = ice.checks := by
    rcases learned with ⟨-, rfl⟩ | ⟨-, -, -, rfl⟩ <;> rfl
  have paths' : Paths known := by
    have plain := grown [] fun _ member => absurd member not_mem_nil
    rw [append_nil, ← same] at plain
    exact plain
  rcases outcome with rfl |
    ⟨lcand, found, ⟨ckid, -, inside, triggers⟩ | ⟨-, rfl | ⟨-, nominate, status, performed⟩⟩⟩
  · exact paths'
  · exact paths_triggerCheck paths' (same.symm ▸ inside) triggers
  · exact paths'
  · have added := grown [triggered known rcheck lcand rcand] fun check member => by
      rw [mem_singleton.mp member]
      exact paths.findLcand_lt found
    refine paths_performCheck added ?_ performed
    rw [length_append]
    exact Nat.lt_succ_self _

theorem paths_startPeriodicCheck (done : startPeriodicCheck cfg ice = some ice') : Paths ice' := by
  have stopped : Paths { ice with clistTimer := false } :=
    paths.of_frame rfl fun _ member => .inl member
  unfold startPeriodicCheck at done
  dsimp only at done
  split at done
  · cases done
    exact stopped
  · next ckid found =>
    have ⟨⟨performed, status⟩, first, rest⟩ := bind_eq_some_iff.mp done
    obtain ⟨settled, rest', rfl⟩ := map_eq_some_iff.mp rest
    have inside : ckid < ice.checks.length := by
      unfold nextCheck at found
      split at found
      · next waits =>
        cases found
        exact (checkAt_of_findIdx? waits).1
      · exact (checkAt_of_findIdx? found).1
    have paths' : Paths performed := paths_performCheck stopped inside first
    have paths'' : Paths settled := by
      split at rest'
      · exact paths_failCheck paths' rest'
      · cases rest'
        exact paths'
    exact paths''.of_frame rfl fun _ member => .inl member

/-! ## The end of a request -/

theorem paths_endRequest : Paths (endRequest ice request) :=
  paths.of_frame frame_endRequest fun _ member => .inl (mem_of_mem_filter member)

theorem Paths.of_role (role : Role) : Paths { ice with role := role } :=
  paths.congr rfl rfl rfl (fun _ member => .inl member) paths.pointed

theorem paths_retryCheck (inside : request.ckid < ice.checks.length)
    (done : retryCheck cfg ice request = some ice') : Paths ice' := by
  obtain ⟨⟨performed, status⟩, found, rfl⟩ := map_eq_some_iff.mp done
  have turned : Paths { ice with role := conflictRole request.controlling } := paths.of_role _
  refine paths_performCheck (paths_checkSetState turned) ?_ found
  exact (length_modify ..).symm ▸ inside

theorem paths_sortValid : Paths (sortValid ice) := by
  have tracks := SelectionSort.tracks_sort Check.prio Check.zero ice.valid
  have same : ∀ vc, vc ∈ (sortValid ice).valid → vc ∈ ice.valid :=
    fun vc member => tracks.perm.mem_iff.mp member
  exact
    { checks_in := paths.checks_in
      valid_in := fun vc member => paths.valid_in vc (same vc member)
      transports := paths.transports
      sent := paths.sent
      known := fun vc member => paths.known vc (same vc member)
      pointed := fun comp member slot points => by
        obtain ⟨before, inside, rfl⟩ := mem_map.mp member
        obtain ⟨slot', points', rfl⟩ := map_eq_some_iff.mp points
        have held := getElem?_eq_getElem (paths.pointed before inside slot' points')
        exact (List.getElem?_eq_some_iff.mp (tracks.slot slot' _ held)).1 }

end

section
variable {lcand : Nat} (paths : Paths ice) (inside : ckid < ice.checks.length)
  (inside' : lcand < ice.lcands.length)
  (way : (ice.lcands.getD lcand Cand.zero).transportId = ice.transport (checkAt ice.checks ckid))
include paths inside inside' way

/-- The pair of a check with a local candidate on its transport is put into the valid list. -/
theorem paths_addValid :
    Paths { ice with valid := (addValid ice (checkAt ice.checks ckid) lcand).1 } ∧
      (addValid ice (checkAt ice.checks ckid) lcand).2 <
        (addValid ice (checkAt ice.checks ckid) lcand).1.length := by
  rcases addValid_cases ice (checkAt ice.checks ckid) lcand with ⟨-, same⟩ | ⟨slot, found, same⟩
  · rw [same]
    constructor
    · exact
        { checks_in := paths.checks_in
          valid_in := fun vc member => by
            rcases mem_append.mp member with before | new
            · exact paths.valid_in vc before
            · rw [mem_singleton.mp new]
              exact inside'
          transports := paths.transports
          sent := paths.sent
          known := fun vc member => by
            rcases mem_append.mp member with before | new
            · exact paths.known vc before
            · rw [mem_singleton.mp new]
              exact ⟨_, checkAt_mem inside, way.symm, rfl⟩
          pointed := fun comp member slot points => by
            rw [length_append]
            exact Nat.lt_add_right _ (paths.pointed comp member slot points) }
    · rw [length_append]
      exact Nat.lt_succ_self _
  · rw [same]
    constructor
    · have pairs : (ice.valid.modify slot fun vc =>
          { vc with nominated := (checkAt ice.checks ckid).nominated }).map Check.pair =
            ice.valid.map Check.pair := map_modify_pair fun _ => rfl
      exact paths.congr rfl rfl pairs (fun _ member => .inl member) paths.pointed
    · rw [length_modify]
      exact (checkAt_of_findIdx? found).1

theorem paths_succeedCheck (done : succeedCheck cfg ice ckid lcand = some ice') : Paths ice' := by
  have ⟨updated, complete, first, rest⟩ := succeedCheck_eq done
  have added := paths_addValid paths inside inside' way
  have updated' : Paths updated := paths_updateCompCheck added.1 added.2 first
  exact paths_onCheckComplete (paths_checkSetState (paths_sortValid updated')) rest

end

/-- A check that succeeds with a local candidate that is known stays on its transport. -/
def StaysOnTransport (ice : IceSess) (check : Check) (addr : Sockaddr) : Prop :=
  ∀ lcand ∈ findMapped ice.lcands addr (ice.lcand check).baseAddr,
    (ice.lcands.getD lcand Cand.zero).transportId = ice.transport check

instance (ice : IceSess) (check : Check) (addr : Sockaddr) :
    Decidable (StaysOnTransport ice check addr) :=
  inferInstanceAs (Decidable (∀ lcand ∈ findMapped ice.lcands addr _, _ = _))

section
variable {mapped : Option Sockaddr} {srcAddr : Sockaddr} (paths : Paths ice)
  (member : request ∈ ice.tsx)
  (stays : ∀ addr ∈ successAddr cfg ice request status mapped srcAddr,
    StaysOnTransport ice (checkAt ice.checks request.ckid) addr)
  (done : onStunRequestComplete cfg ice request status mapped srcAddr = some ice')
include paths member stays done

/-- The local candidate with which a check succeeds is on its transport, also one that is made
known. -/
theorem success_way :
    status = pjStatusFromStunCode stunScRoleConflict ∧
      retryCheck cfg (endRequest ice request) request = some ice' ∨
    (∃ failure, failCheck cfg (endRequest ice request) request.ckid failure = some ice') ∨
    ∃ known : IceSess, ∃ lcand, Paths known ∧ known.checks = (endRequest ice request).checks ∧
      (∃ cands, known = { endRequest ice request with lcands := cands }) ∧
      lcand < known.lcands.length ∧
      (known.lcands.getD lcand Cand.zero).transportId =
        known.transport (checkAt known.checks request.ckid) ∧
      succeedCheck cfg known request.ckid lcand = some ice' := by
  have ⟨inside, way⟩ := paths.sent request member
  have ended : Paths (endRequest ice request) := paths_endRequest paths
  have own := paths.checks_in _ (checkAt_mem inside)
  rcases onStunRequestComplete_cases done with retried | ⟨failure, -, failed⟩ |
    ⟨addr, given, ⟨found, here, succeeded⟩ | ⟨nowhere, room, cand, -, transport, -, succeeded⟩⟩
  · exact .inl retried
  · exact .inr (.inl ⟨failure, failed⟩)
  · refine .inr (.inr ⟨_, found, ended, rfl, ⟨_, rfl⟩, findMapped_lt here, ?_, succeeded⟩)
    rw [checkAt_endRequest]
    exact stays addr given found here
  · have small : ice.transport (checkAt ice.checks request.ckid) < 256 := by
      rw [IceSess.transport, IceSess.lcand, getD_eq_getElem?_getD, getElem?_eq_getElem own]
      exact paths.transports _ (getElem_mem own)
    rw [way, Nat.mod_eq_of_lt small] at transport
    have grown : Paths { endRequest ice request with lcands := ice.lcands ++ [cand] } := by
      refine ended.grow rfl ?_ (append_nil _).symm
        (fun _ member => absurd member not_mem_nil) rfl rfl rfl
      intro other among
      rw [mem_singleton.mp among, transport]
      exact small
    refine .inr (.inr ⟨_, ice.lcands.length, grown, rfl, ⟨_, rfl⟩, ?_, ?_, succeeded⟩)
    · rw [length_append]
      exact Nat.lt_succ_self _
    · have last : (ice.lcands ++ [cand]).getD ice.lcands.length Cand.zero = cand := by simp
      have before : (ice.lcands ++ [cand]).getD (checkAt ice.checks request.ckid).lcand Cand.zero =
          ice.lcand (checkAt ice.checks request.ckid) := getD_append _ _ _ _ own
      rw [checkAt_endRequest]
      simp only [IceSess.transport, IceSess.lcand]
      rw [last, before, transport]
      rfl

theorem paths_onStunRequestComplete : Paths ice' := by
  have inside : request.ckid < (endRequest ice request).checks.length :=
    length_endRequest.symm ▸ (paths.sent request member).1
  rcases success_way paths member stays done with ⟨-, retried⟩ | ⟨failure, failed⟩ |
    ⟨known, lcand, paths', same, -, inside', way, succeeded⟩
  · exact paths_retryCheck (paths_endRequest paths) inside retried
  · exact paths_failCheck (paths_endRequest paths) failed
  · exact paths_succeedCheck paths' (same.symm ▸ inside) inside' way succeeded

end

/-! ## Steps -/

theorem paths_createCheckList (paths : Paths ice) {remCand : List Cand}
    (done : step cfg ice (.createCheckList remCand) = some ice') : Paths ice' := by
  have ⟨fresh, done⟩ := createCheckList_step done
  obtain ⟨created, pruned, highestComp, pairs, -, pruned', -, rfl⟩ := createCheckList_eq done
  rw [fresh] at pairs
  have valid : ∀ vc, vc ∉ ice.valid := by
    intro vc member
    have ⟨check, among, _⟩ := paths.known vc member
    rw [fresh] at among
    exact not_mem_nil among
  have idle : ∀ request, request ∉ ice.tsx := by
    intro request member
    have slot := (paths.sent request member).1
    rw [fresh] at slot
    exact absurd slot (Nat.not_lt_zero _)
  exact
    { checks_in := fun check member => by
        obtain ⟨origin, ⟨i, j, left, -, -, rfl⟩, image⟩ := created_origin pairs pruned' member
        rcases replaceSrflx_cases image with ⟨-, rfl⟩ | ⟨-, host, found, rfl⟩
        · exact left
        · exact findBase_lt found
      valid_in := fun vc member => absurd member (valid vc)
      transports := paths.transports
      sent := fun request member => absurd member (idle request)
      known := fun vc member => absurd member (valid vc)
      pointed := fun comp member slot points =>
        paths.pointed comp (mem_of_mem_take member) slot points }

theorem paths_onTimer (paths : Paths ice) (done : onTimer cfg ice = some ice') : Paths ice' := by
  apply paths.of_frame (frame_onTimer done)
  intro request member
  have kept : ice'.tsx = ice.tsx := by
    unfold onTimer at done
    dsimp only at done
    split at done
    · cases done
      unfold onIceComplete
      split <;> rfl
    · obtain ⟨kept, found, rfl⟩ := map_eq_some_iff.mp done
      split at found <;> cases found <;> rfl
    · obtain ⟨checks, -, rfl⟩ := startNominatedCheck_eq done
      rfl
    · unfold iceKeepAlive at done
      simp only [if_true] at done
      split at done
      · cases done
      · cases done
      · cases done
        rfl
    · cases done
      rfl
  exact .inl (kept ▸ member)

/-- The checks that succeed in a step stay on their transports. -/
def StepStays (cfg : Config) (ice : IceSess) : Event → Prop
  | .requestComplete id status mapped srcAddr =>
    ∀ request ∈ ice.tsx.find? fun request => request.id = id,
      ∀ addr ∈ successAddr cfg ice request status mapped srcAddr,
        StaysOnTransport ice (checkAt ice.checks request.ckid) addr
  | _ => True

instance (cfg : Config) (ice : IceSess) : ∀ event, Decidable (StepStays cfg ice event)
  | .requestComplete id status mapped srcAddr =>
    inferInstanceAs (Decidable (∀ request ∈ ice.tsx.find? fun request => request.id = id,
      ∀ addr ∈ successAddr cfg ice request status mapped srcAddr,
        StaysOnTransport ice (checkAt ice.checks request.ckid) addr))
  | .addCand .. | .changeRole _ | .createCheckList _ | .startCheck | .periodicTimer | .sessionTimer
  | .rxRequest _ => .isTrue trivial

theorem paths_startCheck (paths : Paths ice)
    (done : pjIceSessStartCheck cfg ice = some (ice', status)) : Paths ice' := by
  rcases startCheck_cases done with ⟨-, rfl | rfl⟩ | ⟨-, checked, early, rfl⟩
  · exact paths
  · exact paths.of_frame rfl fun _ member => .inl member
  · have woken : Paths (wake cfg ice) := paths.of_frame frame_wake fun _ member => .inl member
    have paths' : Paths checked := Run.foldlM_kept Paths
      (fun _ _ _ _ kept handled => paths_handleIncomingCheck kept handled) woken early
    exact paths'.of_frame rfl fun _ member => .inl member

/-- Every step keeps the ways of the checks, if the checks that succeed stay on their transports. -/
theorem paths_step (paths : Paths ice) {event : Event} (stays : StepStays cfg ice event)
    (done : step cfg ice event = some ice') : Paths ice' := by
  cases event with
  | addCand compId transportId type localPref foundation addr baseAddr =>
    cases done
    unfold pjIceSessAddCand
    split
    · exact paths
    · split
      · exact paths
      · refine paths.grow rfl ?_ (append_nil _).symm
          (fun _ member => absurd member not_mem_nil) rfl rfl rfl
        intro cand member
        rw [mem_singleton.mp member]
        exact Nat.mod_lt _ (by decide)
  | changeRole role =>
    cases done
    exact paths.of_role role
  | createCheckList remCand => exact paths_createCheckList paths done
  | startCheck =>
    obtain ⟨⟨started, status⟩, found, rfl⟩ := map_eq_some_iff.mp done
    exact paths_startCheck paths found
  | periodicTimer =>
    rcases periodicTimer_step done with rfl | ⟨-, done⟩
    · exact paths
    · exact paths_startPeriodicCheck paths done
  | sessionTimer => exact paths_onTimer paths done
  | requestComplete id status mapped srcAddr =>
    rcases requestComplete_step done with rfl | ⟨request, member, found, done⟩
    · exact paths
    · exact paths_onStunRequestComplete paths member (stays request found) done
  | rxRequest rx =>
    rcases onStunRxRequest_cases done with ⟨code, rfl⟩ | rfl |
      ⟨role, -, rfl | ⟨-, -, priority, -, ⟨-, rfl⟩ | handled⟩⟩
    · exact paths.of_frame rfl fun _ member => .inl member
    · exact paths
    · exact paths.of_role role
    · exact paths.congr rfl rfl rfl (fun _ member => .inl member) paths.pointed
    · refine paths_handleIncomingCheck ?_ handled
      exact paths.congr rfl rfl rfl (fun _ member => .inl member) paths.pointed

end Pjnath.Ice
