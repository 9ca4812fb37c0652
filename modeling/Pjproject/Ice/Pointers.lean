import Pjproject.Ice.Lists

/-!
# What the components of an ICE session point to

The checks that a component points to are in the valid list, and are for it; the nominated one is
nominated, and no other that is has a higher priority. A check that succeeds for a pair that was
nominated before takes the nomination back, which the component does not notice.
-/

namespace Pjnath.Ice
open Option List Pj Stun

variable {cfg : Config}

/-! ## What the components point to -/

variable {compOf : Nat → Nat}

variable {ice ice' : IceSess} {slot : Nat} {valid valid' : List Check} {vc : Check}

/-- What a component points to: checks of the valid list for it, the nominated one the highest of
those that are nominated. `compOf` is the component of a local candidate. -/
structure CompSound (compOf : Nat → Nat) (valid : List Check) (compId : Nat) (comp : Comp) : Prop where
  valid_in : ∀ slot, comp.validCheck = some slot →
    ∃ check, valid[slot]? = some check ∧ compOf check.lcand = compId
  nominated_in : ∀ slot, comp.nominatedCheck = some slot →
    ∃ check, valid[slot]? = some check ∧ compOf check.lcand = compId ∧ check.nominated = true ∧
      ∀ other ∈ valid, compOf other.lcand = compId → other.nominated = true → other.prio ≤ check.prio
  unnominated : comp.nominatedCheck = none →
    ∀ other ∈ valid, compOf other.lcand = compId → other.nominated = false

/-- Every component of a list points to what it should. -/
def Pointers (compOf : Nat → Nat) (valid : List Check) (comps : List Comp) : Prop :=
  ∀ i comp, comps[i]? = some comp → CompSound compOf valid (i + 1) comp

theorem checkAt_of_getElem? {checks : List Check} {check : Check}
    (found : checks[slot]? = some check) : checkAt checks slot = check := by
  rw [checkAt, getD_eq_getElem?_getD, found, getD_some]

/-- A slot of the valid list is filled or changed, and its component is updated. -/
structure Updated (valid valid' : List Check) (slot : Nat) (vc : Check) : Prop where
  others : ∀ k, k ≠ slot → valid'[k]? = valid[k]?
  entry : valid'[slot]? = some vc
  before : ∀ old, valid[slot]? = some old → old.lcand = vc.lcand ∧ old.prio = vc.prio

section
variable (updated : Updated valid valid' slot vc)
include updated

/-- An entry of the new list is the entry that was changed, or it was there. -/
theorem Updated.mem {other : Check} (member : other ∈ valid') : other = vc ∨ other ∈ valid := by
  have ⟨k, found⟩ := mem_iff_getElem?.mp member
  by_cases here : k = slot
  · rw [here, updated.entry] at found
    exact .inl (some.inj found).symm
  · rw [updated.others k here] at found
    exact .inr (mem_of_getElem? found)

/-- A check of the list that the change leaves. -/
theorem Updated.kept {k : Nat} {check : Check} (found : valid[k]? = some check) (other : k ≠ slot) :
    valid'[k]? = some check :=
  (updated.others k other).trans found

/-- Components other than that of the changed entry. -/
theorem CompSound.other {compId : Nat} {comp : Comp} (apart : compOf vc.lcand ≠ compId)
    (sound : CompSound compOf valid compId comp) :
    CompSound compOf valid' compId comp := by
  have elsewhere : ∀ k check, valid[k]? = some check → compOf check.lcand = compId → k ≠ slot := by
    rintro k check found own rfl
    rw [(updated.before check found).1] at own
    exact apart own
  have before : ∀ other ∈ valid', compOf other.lcand = compId → other ∈ valid := by
    intro other member own
    rcases updated.mem member with rfl | member
    · exact absurd own apart
    · exact member
  exact
    { valid_in := fun k held => by
        have ⟨check, found, own⟩ := sound.valid_in k held
        exact ⟨check, updated.kept found (elsewhere k check found own), own⟩
      nominated_in := fun k held => by
        have ⟨check, found, own, nominated, top⟩ := sound.nominated_in k held
        exact ⟨check, updated.kept found (elsewhere k check found own), own, nominated,
          fun other member own' => top other (before other member own') own'⟩
      unnominated := fun none' other member own =>
        sound.unnominated none' other (before other member own) own }

end

/-- The check that takes over is in the list, and no lower than the one it replaces. -/
theorem takesOver_cases (valid : List Check) (current : Option Nat) (slot : Nat) :
    (takesOver valid current slot = some slot ∧
        ∀ held, current = some held → (checkAt valid held).prio < (checkAt valid slot).prio) ∨
      ∃ held, current = some held ∧ takesOver valid current slot = some held ∧
        (checkAt valid slot).prio ≤ (checkAt valid held).prio := by
  unfold takesOver
  cases current with
  | none => exact .inl ⟨rfl, fun held same => absurd same (some_ne_none held).symm⟩
  | some held =>
    dsimp only
    split
    · next lower => exact .inl ⟨rfl, fun other same => some.inj same ▸ lower⟩
    · next higher => exact .inr ⟨held, rfl, rfl, Nat.le_of_not_lt higher⟩

/-- The component of the changed entry, once it is updated. -/
theorem CompSound.own {compId : Nat} {comp : Comp} (updated : Updated valid valid' slot vc)
    (own : compOf vc.lcand = compId) (sound : CompSound compOf valid compId comp)
    (held : comp.nominatedCheck = some slot → vc.nominated = true) :
    CompSound compOf valid' compId {
      validCheck := takesOver valid' comp.validCheck slot
      nominatedCheck :=
        if vc.nominated then takesOver valid' comp.nominatedCheck slot else comp.nominatedCheck } := by
  have at' := checkAt_of_getElem? updated.entry
  have pointed : ∀ k check, valid[k]? = some check → compOf check.lcand = compId →
      ∃ check', valid'[k]? = some check' ∧ compOf check'.lcand = compId ∧ check'.prio = check.prio ∧
        (k = slot ∨ check' = check) := by
    intro k check found own'
    by_cases here : k = slot
    · subst here
      have same := updated.before check found
      exact ⟨vc, updated.entry, own, same.2.symm, .inl rfl⟩
    · exact ⟨check, updated.kept found here, own', rfl, .inr rfl⟩
  have valid_in : ∀ k, takesOver valid' comp.validCheck slot = some k →
      ∃ check, valid'[k]? = some check ∧ compOf check.lcand = compId := by
    intro k points
    rcases takesOver_cases valid' comp.validCheck slot with ⟨taken, -⟩ | ⟨held', before, kept, -⟩
    · rw [taken] at points
      cases points
      exact ⟨vc, updated.entry, own⟩
    · rw [kept] at points
      cases points
      have ⟨check, found, own'⟩ := sound.valid_in k before
      have ⟨check', found', own'', _⟩ := pointed k check found own'
      exact ⟨check', found', own''⟩
  by_cases nominated : vc.nominated = true
  · simp only [nominated, if_true]
    refine ⟨valid_in, fun k points => ?_, fun none' => ?_⟩
    · rcases takesOver_cases valid' comp.nominatedCheck slot with ⟨taken, lower⟩ | ⟨held', before, kept, top⟩
      · rw [taken] at points
        cases points
        refine ⟨vc, updated.entry, own, nominated, fun other member own' flagged => ?_⟩
        rcases updated.mem member with rfl | member
        · exact le_rfl
        · -- What was nominated was no higher than what was held.
          cases held' : comp.nominatedCheck with
          | none =>
            rw [sound.unnominated held' other member own'] at flagged
            cases flagged
          | some k =>
            have ⟨check, found, own'', _, top⟩ := sound.nominated_in k held'
            have ⟨check', found', _, prio, _⟩ := pointed k check found own''
            have below := lower k held'
            rw [checkAt_of_getElem? found', at', prio] at below
            exact (top other member own' flagged).trans (Nat.le_of_lt below)
      · rw [kept] at points
        cases points
        have ⟨check, found, own', flagged, highest⟩ := sound.nominated_in k before
        have ⟨check', found', own'', prio, same⟩ := pointed k check found own'
        rw [checkAt_of_getElem? found', at'] at top
        have flagged' : check'.nominated = true := by
          rcases same with rfl | rfl
          · rw [updated.entry] at found'
            cases found'
            exact nominated
          · exact flagged
        refine ⟨check', found', own'', flagged', fun other member own' flagged => ?_⟩
        rcases updated.mem member with rfl | member
        · exact top
        · rw [prio]
          exact highest other member own' flagged
    · rcases takesOver_cases valid' comp.nominatedCheck slot with ⟨taken, -⟩ | ⟨held', -, kept, -⟩
      · rw [taken] at none'
        cases none'
      · rw [kept] at none'
        cases none'
  · simp only [nominated, Bool.false_eq_true, if_false]
    refine ⟨valid_in, fun k points => ?_, fun none' other member own' => ?_⟩
    · have ⟨check, found, own', flagged, top⟩ := sound.nominated_in k points
      have elsewhere : k ≠ slot := by
        rintro rfl
        exact nominated (held points)
      refine ⟨check, updated.kept found elsewhere, own', flagged, fun other member own'' flagged' => ?_⟩
      rcases updated.mem member with rfl | member
      · exact absurd flagged' nominated
      · exact top other member own'' flagged'
    · rcases updated.mem member with rfl | member
      · exact Bool.eq_false_iff.mpr nominated
      · exact sound.unnominated none' other member own'

/-- The pointers of a session. -/
def IceSess.Pointers (ice : IceSess) : Prop :=
  Ice.Pointers (fun lcand => (ice.lcands.getD lcand Cand.zero).compId) ice.valid ice.comps

theorem pointers_of_frame (pointers : ice.Pointers) (same : ice'.frame = ice.frame) :
    ice'.Pointers := by
  unfold IceSess.Pointers
  rw [frame_lcands same, frame_valid same, frame_comps same]
  exact pointers

/-- A component is updated for an entry of the valid list that is added or changed. -/
theorem pointers_updateCompCheck (pointers : ice.Pointers)
    (updated : Updated ice.valid valid slot vc)
    (held : ∀ comp ∈ ice.comps, comp.nominatedCheck = some slot → vc.nominated = true)
    (done : updateCompCheck { ice with valid := valid } (ice.lcand vc).compId slot = some ice') :
    ice'.Pointers := by
  unfold updateCompCheck at done
  cases found : IceSess.findComp { ice with valid := valid } (ice.lcand vc).compId with
  | none => simp [found] at done
  | some comp =>
    rw [found] at done
    obtain rfl := some.inj done
    unfold IceSess.findComp at found
    split at found
    · cases found
    · next positive =>
      intro i other found'
      simp only [getElem?_set] at found'
      rw [checkAt_of_getElem? updated.entry] at found'
      by_cases here : (ice.lcand vc).compId - 1 = i
      · have compId : (ice.lcand vc).compId = i + 1 := by omega
        simp only [here, if_true] at found'
        split at found'
        · cases found'
          have before : ice.comps[i]? = some comp := here ▸ found
          exact (pointers i comp before).own updated compId (held comp (mem_of_getElem? before))
        · cases found'
      · simp only [here, if_false] at found'
        refine (pointers i other found').other updated ?_
        intro same
        exact here (by
          have compId : (ice.lcand vc).compId = i + 1 := same
          omega)

/-- An entry of a list is changed, but for its pair. -/
theorem updated_modify (change : Check → Check) (inside : slot < valid.length)
    (keeps : ∀ check, (change check).pair = check.pair) :
    Updated valid (valid.modify slot change) slot (change (checkAt valid slot)) :=
  { others := fun k other => getElem?_modify_ne change valid (Ne.symm other)
    entry := by
      rw [getElem?_modify_eq, checkAt, getD_eq_getElem?_getD,
        getElem?_eq_getElem inside]
      rfl
    before := fun old found => by
      have pair := keeps old
      simp only [Check.pair, Prod.mk.injEq] at pair
      rw [checkAt_of_getElem? found]
      exact ⟨pair.1.symm, pair.2.2.symm⟩ }

section
variable (pointers : ice.Pointers)
include pointers

theorem pointers_nominateValid {check : Check} (inside : slot < ice.valid.length)
    (done : nominateValid check ice slot = some ice') : ice'.Pointers := by
  unfold nominateValid at done
  dsimp only at done
  split at done
  · refine pointers_updateCompCheck pointers
      (updated_modify (fun vc => { vc with nominated := true }) inside fun _ => rfl) ?_ done
    exact fun _ _ _ => rfl
  · cases done
    exact pointers

theorem pointers_triggerCheck {rcheck : RxCheck} {ckid : Nat}
    (done : triggerCheck cfg ice rcheck ckid = some ice') : ice'.Pointers := by
  obtain ⟨flagged, rfl, outcome⟩ := triggerCheck_cases done
  have pointers' : (ice.updateCheck ckid fun check =>
      { check with nominated := rcheck.useCandidate || check.nominated }).Pointers := pointers
  rcases outcome with ⟨-, nominate, status, performed⟩ | ⟨-, nominated, complete, first, rest⟩ |
    ⟨-, rfl⟩
  · exact pointers_of_frame pointers' (frame_performCheck performed)
  · refine pointers_of_frame ?_ (frame_onCheckComplete rest)
    rcases first with rfl | ⟨-, loop⟩
    · exact pointers'
    · refine (Run.foldlM_kept (fun other : IceSess =>
        other.Pointers ∧ other.valid.length = ice.valid.length) ?_ ⟨pointers', rfl⟩ loop).1
      intro slot member state state' kept found
      have inside : slot < state.valid.length := kept.2 ▸ mem_range.mp member
      refine ⟨pointers_nominateValid kept.1 inside found, ?_⟩
      exact (length_of_map_pair (congrArg Pairing.valid (pairing_nominateValid found))).trans kept.2
  · exact pointers'

theorem pointers_handleIncomingCheck {rcheck : RxCheck}
    (done : handleIncomingCheck cfg ice rcheck = some ice') : ice'.Pointers := by
  rcases handleIncomingCheck_cases done with rfl | ⟨known, rcand, learned, outcome⟩
  · exact pointers
  have pointers' : known.Pointers := by
    rcases learned with ⟨-, rfl⟩ | ⟨-, -, -, rfl⟩
    · exact pointers
    · exact pointers
  rcases outcome with rfl | ⟨lcand, -, ⟨ckid, -, -, triggers⟩ | ⟨-, rfl | ⟨-, nominate, status, performed⟩⟩⟩
  · exact pointers'
  · exact pointers_triggerCheck pointers' triggers
  · exact pointers'
  · refine pointers_of_frame ?_ (frame_performCheck performed)
    exact pointers'

/-- The pointers follow the checks that are sorted. -/
theorem pointers_sortValid : (sortValid ice).Pointers := by
  have tracks := SelectionSort.tracks_sort Check.prio Check.zero ice.valid
  intro i comp found
  simp only [sortValid, getElem?_map] at found
  obtain ⟨before, found', rfl⟩ := map_eq_some_iff.mp found
  have sound := pointers i before found'
  have same : ∀ other, other ∈ (sortValid ice).valid → other ∈ ice.valid :=
    fun other member => tracks.perm.mem_iff.mp member
  exact
    { valid_in := fun slot points => by
        obtain ⟨slot', points', rfl⟩ := map_eq_some_iff.mp points
        have ⟨check, held, own⟩ := sound.valid_in slot' points'
        exact ⟨check, tracks.slot slot' check held, own⟩
      nominated_in := fun slot points => by
        obtain ⟨slot', points', rfl⟩ := map_eq_some_iff.mp points
        have ⟨check, held, own, flagged, top⟩ := sound.nominated_in slot' points'
        exact ⟨check, tracks.slot slot' check held, own, flagged,
          fun other member => top other (same other member)⟩
      unnominated := fun none' other member =>
        sound.unnominated (map_eq_none_iff.mp none') other (same other member) }

end

/-- A pair that succeeds takes the nomination from no component. -/
def KeepsNominated (ice : IceSess) (check : Check) (lcand : Nat) : Prop :=
  ∀ slot, findValid ice.valid lcand check.rcand = some slot →
    (∃ comp ∈ ice.comps, comp.nominatedCheck = some slot) → check.nominated = true

theorem pointers_succeedCheck (pointers : ice.Pointers) {ckid lcand : Nat}
    (keeps : KeepsNominated ice (checkAt ice.checks ckid) lcand)
    (done : succeedCheck cfg ice ckid lcand = some ice') : ice'.Pointers := by
  have ⟨updated, complete, first, rest⟩ := succeedCheck_eq done
  have pointers' : updated.Pointers := by
    rcases addValid_cases ice (checkAt ice.checks ckid) lcand with ⟨-, same⟩ | ⟨slot, found, same⟩
    · rw [same] at first
      have entry : (ice.valid ++ [validPair ice (checkAt ice.checks ckid) lcand])[ice.valid.length]? =
          some (validPair ice (checkAt ice.checks ckid) lcand) := by simp
      rw [checkAt_of_getElem? entry] at first
      refine pointers_updateCompCheck pointers ⟨fun k other => ?_, entry, fun old found => ?_⟩ ?_ first
      · rcases Nat.lt_or_gt_of_ne other with before | behind
        · exact getElem?_append_left before
        · rw [getElem?_eq_none (Nat.le_of_lt behind), getElem?_eq_none]
          rw [length_append]
          exact behind
      · rw [getElem?_eq_none le_rfl] at found
        cases found
      · intro comp member held
        have ⟨i, at'⟩ := mem_iff_getElem?.mp member
        have ⟨check, found, _⟩ := (pointers i comp at').nominated_in _ held
        rw [getElem?_eq_none le_rfl] at found
        cases found
    · rw [same] at first
      have spec := checkAt_of_findIdx? found
      have changed := updated_modify
        (fun vc => { vc with nominated := (checkAt ice.checks ckid).nominated }) spec.1 fun _ => rfl
      rw [checkAt_of_getElem? changed.entry] at first
      refine pointers_updateCompCheck pointers changed ?_ first
      exact fun comp member held => keeps slot found ⟨comp, member, held⟩
  exact pointers_of_frame (pointers_sortValid pointers')
    ((frame_onCheckComplete rest).trans frame_checkSetState)

section
variable (pointers : ice.Pointers) (lists : Lists ice)
include pointers lists

/-- Candidates that are added do not matter to the pointers. -/
theorem pointers_grow {lcands : List Cand} (left : ice'.lcands = ice.lcands ++ lcands)
    (valid : ice'.valid = ice.valid) (comps : ice'.comps = ice.comps) : ice'.Pointers := by
  have same : ∀ check ∈ ice.valid, (ice'.lcands.getD check.lcand Cand.zero).compId =
      (ice.lcands.getD check.lcand Cand.zero).compId := by
    intro check member
    rw [left, getD_append _ _ _ _ (lists.valid_joined check member).1]
  unfold IceSess.Pointers
  rw [valid, comps]
  intro i comp found
  have sound := pointers i comp found
  exact
    { valid_in := fun slot points => by
        have ⟨check, held, own⟩ := sound.valid_in slot points
        exact ⟨check, held, (same check (mem_of_getElem? held)).trans own⟩
      nominated_in := fun slot points => by
        have ⟨check, held, own, flagged, top⟩ := sound.nominated_in slot points
        exact ⟨check, held, (same check (mem_of_getElem? held)).trans own, flagged,
          fun other member own' => top other member ((same other member).symm.trans own')⟩
      unnominated := fun none' other member own =>
        sound.unnominated none' other member ((same other member).symm.trans own) }

theorem pointers_onStunRequestComplete {request : CheckRequest} {status : Int}
    {mapped : Option Sockaddr} {srcAddr : Sockaddr}
    (sound : ∀ addr ∈ successAddr cfg ice request status mapped srcAddr, SoundSuccess ice
    (checkAt ice.checks request.ckid) addr)
    (done : onStunRequestComplete cfg ice request status mapped srcAddr = some ice') :
    ice'.Pointers := by
  have ended : (endRequest ice request).Pointers := pointers_of_frame pointers frame_endRequest
  rcases onStunRequestComplete_cases done with ⟨-, retried⟩ | ⟨failure, -, failed⟩ |
    ⟨addr, given, ⟨found, here, succeeded⟩ | ⟨nowhere, room, cand, -, -, -, succeeded⟩⟩
  · refine pointers_of_frame ?_ (frame_retryCheck retried)
    exact ended
  · exact pointers_of_frame ended (frame_failCheck failed)
  · refine pointers_succeedCheck ended ?_ succeeded
    have success := (sound addr given).2 found here
    rw [checkAt_endRequest]
    exact success.2.2
  · have grown : IceSess.Pointers { endRequest ice request with lcands := ice.lcands ++ [cand] } :=
      pointers_grow ended (lists.of_frame frame_endRequest) rfl rfl rfl
    refine pointers_succeedCheck grown ?_ succeeded
    -- The pair of a candidate that was just made known is not in the valid list.
    intro slot found
    have spec := checkAt_of_findIdx? found
    simp only [Bool.and_eq_true, decide_eq_true_eq] at spec
    have inside := (lists.valid_joined _ (checkAt_mem spec.1)).1
    have same : (checkAt ice.valid slot).lcand = ice.lcands.length := spec.2.1
    rw [same] at inside
    exact absurd inside (Nat.lt_irrefl _)

/-- Every step that is sound keeps the pointers. -/
theorem pointers_step {event : Event} (sound : StepSound cfg ice event)
    (done : step cfg ice event = some ice') : ice'.Pointers := by
  cases event with
  | addCand compId transportId type localPref foundation addr baseAddr =>
    cases done
    unfold pjIceSessAddCand
    split
    · exact pointers
    · split
      · exact pointers
      · exact pointers_grow pointers lists rfl rfl rfl
  | changeRole role =>
    cases done
    exact pointers
  | createCheckList remCand =>
    have ⟨fresh, done⟩ := createCheckList_step done
    obtain ⟨created, pruned, highestComp, -, -, -, -, rfl⟩ := createCheckList_eq done
    intro i comp found
    rw [getElem?_take] at found
    split at found
    · exact pointers i comp found
    · cases found
  | startCheck =>
    obtain ⟨⟨started, status⟩, found, rfl⟩ := map_eq_some_iff.mp done
    rcases startCheck_cases found with ⟨-, rfl | rfl⟩ | ⟨-, checked, early, rfl⟩
    · exact pointers
    · exact pointers
    · have pointers' : checked.Pointers := Run.foldlM_kept IceSess.Pointers
        (fun _ _ _ _ kept handled => pointers_handleIncomingCheck kept handled)
        (pointers_of_frame pointers frame_wake) early
      exact pointers'
  | periodicTimer =>
    rcases periodicTimer_step done with rfl | ⟨-, done⟩
    · exact pointers
    · exact pointers_of_frame pointers (frame_startPeriodicCheck done)
  | sessionTimer => exact pointers_of_frame pointers (frame_onTimer done)
  | requestComplete id status mapped srcAddr =>
    rcases requestComplete_step done with rfl | ⟨request, member, found, done⟩
    · exact pointers
    · exact pointers_onStunRequestComplete pointers lists (sound request found) done
  | rxRequest rx =>
    rcases onStunRxRequest_cases done with ⟨code, rfl⟩ | rfl |
      ⟨role, -, rfl | ⟨-, -, priority, -, ⟨-, rfl⟩ | handled⟩⟩
    · exact pointers
    · exact pointers
    · exact pointers
    · exact pointers
    · refine pointers_handleIncomingCheck ?_ handled
      exact pointers

end

end Pjnath.Ice
