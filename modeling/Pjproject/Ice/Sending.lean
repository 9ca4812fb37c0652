import Pjproject.Ice.Steps

/-!
# What an ICE session sends

Only `perform_check` sends requests, and a request tells the role that the session has then. The
role is left alone by all but the functions for role conflicts.
-/

namespace Pjnath.Ice
open Option Pj Stun

variable {cfg : Config} {ice ice' ice'' : IceSess} {ckid : Nat}

/-! ## Silence -/

variable {status : Int} {check : Check}

/-- The role of a session and all that it has shown. -/
def IceSess.voice (ice : IceSess) : Role × List Output := (ice.role, ice.log)

theorem voice_unfreeze : (unfreeze ice check).voice = ice.voice := rfl

theorem voice_cancelOthers (done : cancelOthers ice check = some ice') :
    ice'.voice = ice.voice := by
  unfold cancelOthers at done
  dsimp only at done
  split at done
  · cases done
  · cases done
    rfl

theorem voice_onIceComplete : (onIceComplete cfg ice status).voice = ice.voice := by
  unfold onIceComplete
  split <;> rfl

theorem voice_startNominatedCheck (done : startNominatedCheck ice = some ice') :
    ice'.voice = ice.voice := by
  obtain ⟨checks, -, rfl⟩ := startNominatedCheck_eq done
  rfl

theorem voice_onPairStates {complete : Bool}
    (done : onPairStates cfg ice check = some (ice', complete)) : ice'.voice = ice.voice := by
  unfold onPairStates at done
  split at done
  · cases done
    exact voice_onIceComplete
  · split at done
    · unfold onAllChecksDone at done
      split at done
      · split at done
        · cases done
          exact voice_onIceComplete
        · split at done <;> cases done <;> rfl
      · split at done
        · cases done
          exact voice_onIceComplete
        · split at done
          · cases done
            exact voice_onIceComplete
          · have ⟨started, found, same⟩ := map_eq_some_iff.mp done
            cases same
            exact voice_startNominatedCheck found
    · split at done <;> cases done <;> rfl

theorem voice_onCheckComplete {complete : Bool}
    (done : onCheckComplete cfg ice ckid = some (ice', complete)) : ice'.voice = ice.voice := by
  have ⟨unfrozen, settled, first, second, rest⟩ := onCheckComplete_cases done
  have same : unfrozen.voice = ice.voice := by
    rcases first with rfl | ⟨-, rfl⟩
    · rfl
    · exact voice_unfreeze
  have same' : settled.voice = unfrozen.voice := by
    rcases second with rfl | cancelled
    · rfl
    · exact voice_cancelOthers cancelled
  exact (voice_onPairStates rest).trans (same'.trans same)

theorem voice_failCheck (done : failCheck cfg ice ckid status = some ice') :
    ice'.voice = ice.voice := by
  obtain ⟨⟨settled, complete⟩, found, rfl⟩ := map_eq_some_iff.mp done
  exact (voice_onCheckComplete found).trans rfl

theorem voice_updateCompCheck {compId slot : Nat}
    (done : updateCompCheck ice compId slot = some ice') : ice'.voice = ice.voice := by
  unfold updateCompCheck at done
  split at done
  · cases done
  · cases done
    rfl

theorem voice_nominateValid {slot : Nat} (done : nominateValid check ice slot = some ice') :
    ice'.voice = ice.voice := by
  unfold nominateValid at done
  dsimp only at done
  split at done
  · exact (voice_updateCompCheck done).trans rfl
  · cases done
    rfl

theorem voice_succeedCheck {lcand : Nat} (done : succeedCheck cfg ice ckid lcand = some ice') :
    ice'.voice = ice.voice := by
  have ⟨updated, found, rest⟩ := bind_eq_some_iff.mp done
  obtain ⟨⟨settled, complete⟩, found', rfl⟩ := map_eq_some_iff.mp rest
  have same : updated.voice = ice.voice := (voice_updateCompCheck found).trans rfl
  have quiet : settled.voice = updated.voice := (voice_onCheckComplete found').trans rfl
  exact quiet.trans same

/-! ## Requests -/

/-- What a session in a role may show: the end of ICE, and requests that tell the role and the
tie-breaker. -/
def Tells (cfg : Config) (role : Role) : Output → Prop
  | .request request =>
    request.controlling = decide (role = .controlling) ∧ request.tieBreaker = cfg.tieBreaker
  | .response _ => False
  | .complete _ => True

/-- A session keeps its role, and all that it shows tells it. -/
structure Sent (cfg : Config) (ice ice' : IceSess) : Prop where
  role : ice'.role = ice.role
  log : ∃ more : List Output, ice'.log = ice.log ++ more ∧ ∀ output ∈ more, Tells cfg ice.role output

theorem Sent.of_voice (same : ice'.voice = ice.voice) : Sent cfg ice ice' := by
  simp only [IceSess.voice, Prod.mk.injEq] at same
  have nothing : ice'.log = ice.log ++ [] := by rw [same.2, List.append_nil]
  exact ⟨same.1, [], nothing, fun _ member => absurd member List.not_mem_nil⟩

theorem Sent.trans (first : Sent cfg ice ice') (second : Sent cfg ice' ice'') :
    Sent cfg ice ice'' := by
  have ⟨more, log, tells⟩ := first.log
  have ⟨more', log', tells'⟩ := second.log
  refine ⟨second.role.trans first.role, more ++ more', ?_, fun output member => ?_⟩
  · rw [log', log, List.append_assoc]
  · rcases List.mem_append.mp member with early | late
    · exact tells output early
    · have told := tells' output late
      rwa [first.role] at told

theorem sent_performCheck {nominate : Bool}
    (done : performCheck cfg ice ckid nominate = some (ice', status)) : Sent cfg ice ice' := by
  have ⟨change, sent, performed⟩ := performCheck_performed done
  rw [performed.eq]
  refine ⟨rfl, sent.map .request, rfl, fun output member => ?_⟩
  obtain ⟨request, taken, rfl⟩ := List.mem_map.mp member
  rcases performed.one with none' | one
  · rw [none'] at taken
    exact absurd taken List.not_mem_nil
  · rw [one, List.mem_singleton] at taken
    rw [taken]
    exact ⟨rfl, rfl⟩

theorem sent_startPeriodicCheck (done : startPeriodicCheck cfg ice = some ice') :
    Sent cfg ice ice' := by
  unfold startPeriodicCheck at done
  dsimp only at done
  split at done
  · cases done
    exact Sent.of_voice rfl
  · have ⟨⟨performed, status⟩, found, rest⟩ := bind_eq_some_iff.mp done
    obtain ⟨settled, rest', rfl⟩ := map_eq_some_iff.mp rest
    have stopped : Sent cfg ice { ice with clistTimer := false } := Sent.of_voice rfl
    have first : Sent cfg ice performed := stopped.trans (sent_performCheck found)
    have quiet : settled.voice = performed.voice := by
      split at rest'
      · exact voice_failCheck rest'
      · cases rest'
        rfl
    exact first.trans (Sent.of_voice quiet)

theorem sent_triggerCheck {rcheck : RxCheck} (done : triggerCheck cfg ice rcheck ckid = some ice') :
    Sent cfg ice ice' := by
  have ⟨flagged, same, outcome⟩ := triggerCheck_cases done
  have quiet : flagged.voice = ice.voice := by rw [same]; rfl
  have first : Sent cfg ice flagged := Sent.of_voice quiet
  rcases outcome with ⟨-, nominate, status, performed⟩ | ⟨-, nominated, complete, loop, rest⟩ |
    ⟨-, rfl⟩
  · exact first.trans (sent_performCheck performed)
  · have kept : nominated.voice = flagged.voice := by
      rcases loop with rfl | ⟨-, loop⟩
      · rfl
      · exact Run.foldlM_kept (fun other : IceSess => other.voice = flagged.voice)
          (fun _ _ _ _ kept found => (voice_nominateValid found).trans kept) rfl loop
    exact first.trans (Sent.of_voice ((voice_onCheckComplete rest).trans kept))
  · exact first

theorem sent_handleIncomingCheck {rcheck : RxCheck}
    (done : handleIncomingCheck cfg ice rcheck = some ice') : Sent cfg ice ice' := by
  rcases handleIncomingCheck_cases done with rfl | ⟨known, rcand, found, outcome⟩
  · exact Sent.of_voice rfl
  · have quiet : known.voice = ice.voice := by
      rcases found with ⟨-, rfl⟩ | ⟨-, -, -, rfl⟩ <;> rfl
    have first : Sent cfg ice known := Sent.of_voice quiet
    rcases outcome with rfl | ⟨lcand, -, ⟨ckid, -, -, triggers⟩ | ⟨-, rfl | ⟨-, nominate, status,
      performed⟩⟩⟩
    · exact first
    · exact first.trans (sent_triggerCheck triggers)
    · exact first
    · have second := sent_performCheck performed
      exact first.trans ⟨second.role, second.log⟩

theorem sent_onTimer (done : onTimer cfg ice = some ice') : Sent cfg ice ice' := by
  unfold onTimer at done
  dsimp only at done
  split at done
  · cases done
    exact Sent.of_voice voice_onIceComplete
  · obtain ⟨kept, found, rfl⟩ := map_eq_some_iff.mp done
    have quiet : kept.voice = ice.voice := by
      split at found <;> cases found <;> rfl
    have first : Sent cfg ice kept := Sent.of_voice quiet
    refine first.trans ⟨rfl, [.complete kept.iceStatus], rfl, fun output member => ?_⟩
    rw [List.mem_singleton.mp member]
    trivial
  · exact Sent.of_voice ((voice_startNominatedCheck done).trans rfl)
  · unfold iceKeepAlive at done
    simp only [if_true] at done
    split at done
    · cases done
    · cases done
    · cases done
      exact Sent.of_voice rfl
  · cases done
    exact Sent.of_voice rfl

theorem sent_startCheck (done : pjIceSessStartCheck cfg ice = some (ice', status)) :
    Sent cfg ice ice' := by
  rcases startCheck_cases done with ⟨-, rfl | rfl⟩ | ⟨-, checked, loop, rfl⟩
  · exact Sent.of_voice rfl
  · exact Sent.of_voice rfl
  · have woken : Sent cfg ice (wake cfg ice) := Sent.of_voice rfl
    have first : Sent cfg ice checked :=
      Run.foldlM_kept (fun other => Sent cfg ice other)
        (fun _ _ _ _ kept found => kept.trans (sent_handleIncomingCheck found)) woken loop
    exact first.trans (Sent.of_voice rfl)

/-! ## Roles -/

/-- A 487 response leaves the role that the request did not tell, and what is sent then tells the
new one. Any other completion leaves the role alone. -/
theorem sent_onStunRequestComplete {request : CheckRequest} {mapped : Option Sockaddr}
    {srcAddr : Sockaddr}
    (done : onStunRequestComplete cfg ice request status mapped srcAddr = some ice') :
    if status = pjStatusFromStunCode stunScRoleConflict then
      Sent cfg { ice with role := conflictRole request.controlling } ice'
    else Sent cfg ice ice' := by
  split
  · next conflict =>
    unfold onStunRequestComplete at done
    rw [if_pos conflict] at done
    obtain ⟨⟨performed, result⟩, found, rfl⟩ := map_eq_some_iff.mp done
    have sent := sent_performCheck found
    exact ⟨sent.role, sent.log⟩
  · next other =>
    have ended : Sent cfg ice (endRequest ice request) := Sent.of_voice rfl
    rcases onStunRequestComplete_cases done with ⟨conflict, -⟩ | ⟨failure, -, failed⟩ |
      ⟨addr, -, ⟨found, -, succeeded⟩ | ⟨-, -, cand, -, -, -, succeeded⟩⟩
    · exact absurd conflict other
    · exact ended.trans (Sent.of_voice (voice_failCheck failed))
    · exact ended.trans (Sent.of_voice (voice_succeedCheck succeeded))
    · exact ended.trans (Sent.of_voice ((voice_succeedCheck succeeded).trans rfl))

/-- A Binding request with a priority is answered by 487 when the conflict is for the other agent
to repair, and else by success, unless no response is created. -/
theorem sent_onStunRxRequest {rx : RxRequest} (binding : rx.isBinding = true)
    (weighed : rx.priority ≠ none) (done : onStunRxRequest cfg ice rx = some ice') :
    (repairRole cfg ice.role rx.roleAttr = none ∧ ice' = ice.emit (.response stunScRoleConflict)) ∨
    ∃ role, repairRole cfg ice.role rx.roleAttr = some role ∧
      (ice' = { ice with role := role } ∨
        Sent cfg ({ ice with role := role }.emit (.response 0)) ice') := by
  unfold onStunRxRequest at done
  simp only [binding, Bool.not_true, Bool.false_eq_true, if_false] at done
  split at done
  · next missing => exact absurd missing weighed
  · split at done
    · next conflict => exact .inl ⟨conflict, (some.inj done).symm⟩
    · next role repaired =>
      refine .inr ⟨role, repaired, ?_⟩
      split at done
      · exact .inl (some.inj done).symm
      · split at done
        · cases done
          exact .inr (Sent.of_voice rfl)
        · exact .inr (sent_handleIncomingCheck done)

/-- An event that neither the other agent nor the application changes the role by. -/
def Event.isOwn : Event → Bool
  | .changeRole _ | .rxRequest _ => false
  | .requestComplete _ status _ _ =>
    !(status = pjSuccess || status = pjStatusFromStunCode stunScRoleConflict)
  | _ => true

theorem sent_step {event : Event} (own : event.isOwn = true) (done : step cfg ice event = some ice') :
    Sent cfg ice ice' := by
  cases event with
  | addCand compId transportId type localPref foundation addr baseAddr =>
    cases done
    unfold pjIceSessAddCand
    split
    · exact Sent.of_voice rfl
    · split <;> exact Sent.of_voice rfl
  | changeRole role => cases own
  | createCheckList remCand =>
    have ⟨_, created⟩ := createCheckList_step done
    unfold pjIceSessCreateCheckList at created
    dsimp only at created
    repeat' split at created
    all_goals cases created
    exact Sent.of_voice rfl
  | startCheck =>
    obtain ⟨⟨started, status⟩, found, rfl⟩ := map_eq_some_iff.mp done
    exact sent_startCheck found
  | periodicTimer =>
    rcases periodicTimer_step done with rfl | ⟨-, performed⟩
    · exact Sent.of_voice rfl
    · exact sent_startPeriodicCheck performed
  | sessionTimer => exact sent_onTimer done
  | requestComplete id status mapped srcAddr =>
    have other : status ≠ pjStatusFromStunCode stunScRoleConflict := fun same => by
      simp only [Event.isOwn, same, decide_true, Bool.or_true, Bool.not_true] at own
      cases own
    rcases requestComplete_step done with rfl | ⟨request, -, -, completed⟩
    · exact Sent.of_voice rfl
    · have sent := sent_onStunRequestComplete completed
      rwa [if_neg other] at sent
  | rxRequest rx => cases own

end Pjnath.Ice
