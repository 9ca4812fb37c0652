import Pjproject.Ice.Lists

/-!
# The priorities of pairs

The priority of a pair is put together from two halves of 32 bits, when the pair is made. It is that
of the formula as long as neither candidate has a priority of 2^31 or more, the agent does not take
another role while it has a pair whose candidates differ in priority, and no server reflexive
candidate that its base stands in for ranks above the base.
-/

namespace Pjnath.Ice
open Option List Pj Stun

variable {cfg : Config} {ice ice' : IceSess}

/-! ## The formula -/

variable {role : Role}

/-- The priority of a pair, from those of the controlling and of the controlled side. -/
def pairPriority (controlling controlled : Nat) : Nat :=
  2 ^ 32 * min controlling controlled + 2 * max controlling controlled +
    if controlled < controlling then 1 else 0

/-- The priority of the candidate of the controlling side. -/
def controllingPrio (role : Role) (lcand rcand : Cand) : Nat :=
  if role = .controlling then lcand.prio.toNat else rcand.prio.toNat

/-- The priority of the candidate of the controlled side. -/
def controlledPrio (role : Role) (lcand rcand : Cand) : Nat :=
  if role = .controlling then rcand.prio.toNat else lcand.prio.toNat

/-- The lower half of a priority has room for twice the priority of the candidate. -/
def Small (prio : UInt32) : Prop := prio.toNat < 2 ^ 31

instance (prio : UInt32) : Decidable (Small prio) := inferInstanceAs (Decidable (_ < _))

/-- The halves, in numbers. -/
theorem halves_eq (offerer answerer : UInt32) :
    (if offerer < answerer then offerer else answerer).toNat * 2 ^ 32 +
        ((if offerer > answerer then offerer else answerer) <<< 1 +
          if offerer > answerer then 1 else 0).toNat =
      2 ^ 32 * min offerer.toNat answerer.toNat +
        (2 * max offerer.toNat answerer.toNat +
          if answerer.toNat < offerer.toNat then 1 else 0) % 2 ^ 32 := by
  have order : ∀ left right : UInt32, left < right ↔ left.toNat < right.toNat := fun _ _ => UInt32.lt_iff_toNat_lt
  have shift : ∀ value : UInt32, (value <<< 1).toNat = 2 * value.toNat % 2 ^ 32 := by
    intro value
    rw [UInt32.toNat_shiftLeft, Nat.shiftLeft_eq]
    simp [Nat.mul_comm]
  by_cases higher : answerer < offerer
  · have higher' := (order _ _).mp higher
    have lower : ¬offerer < answerer := fun lower => by
      have lower' := (order _ _).mp lower
      omega
    simp only [gt_iff_lt, higher, lower, if_true, if_false, UInt32.toNat_add, shift, higher',
      UInt32.toNat_one]
    omega
  · have higher' := mt (order _ _).mpr higher
    simp only [gt_iff_lt, higher, higher', if_false, UInt32.toNat_add, shift, UInt32.toNat_zero]
    by_cases lower : offerer < answerer
    · have lower' := (order _ _).mp lower
      simp only [lower, if_true]
      omega
    · have lower' := mt (order _ _).mpr lower
      simp only [lower, if_false]
      omega

/-- `CALC_CHECK_PRIO` computes the formula exactly when both priorities are small. -/
theorem calcCheckPrio_eq_iff {lcand rcand : Cand} :
    calcCheckPrio role lcand rcand =
        pairPriority (controllingPrio role lcand rcand) (controlledPrio role lcand rcand) ↔
      Small lcand.prio ∧ Small rcand.prio := by
  have bound := lcand.prio.toNat_lt
  have bound' := rcand.prio.toNat_lt
  unfold calcCheckPrio
  rw [halves_eq]
  unfold pairPriority controllingPrio controlledPrio Small
  by_cases controlling : role = .controlling
  · split_ifs <;> omega
  · split_ifs <;> omega

/-- A higher local candidate makes a higher pair. -/
theorem calcCheckPrio_lt {lower higher rcand : Cand} (small : Small higher.prio)
    (small' : Small rcand.prio) (below : lower.prio.toNat < higher.prio.toNat) :
    calcCheckPrio role lower rcand < calcCheckPrio role higher rcand := by
  have small'' : Small lower.prio := Nat.lt_trans below small
  rw [calcCheckPrio_eq_iff.mpr ⟨small'', small'⟩, calcCheckPrio_eq_iff.mpr ⟨small, small'⟩]
  unfold pairPriority controllingPrio controlledPrio
  split_ifs <;> omega

/-- Only the priorities of the candidates matter. -/
theorem calcCheckPrio_congr {lcand lcand' rcand rcand' : Cand} (left : lcand'.prio = lcand.prio)
    (right : rcand'.prio = rcand.prio) :
    calcCheckPrio role lcand' rcand' = calcCheckPrio role lcand rcand := by
  unfold calcCheckPrio
  rw [left, right]

/-- Whether the agent controls is what matters of its role, and only where the candidates differ. -/
theorem calcCheckPrio_role {role' : Role} {lcand rcand : Cand}
    (same : (role = .controlling ↔ role' = .controlling) ∨ lcand.prio = rcand.prio) :
    calcCheckPrio role lcand rcand = calcCheckPrio role' lcand rcand := by
  rcases same with same | level
  · unfold calcCheckPrio
    by_cases controlling : role' = .controlling
    · simp only [controlling, same.mpr controlling]
    · simp [controlling, mt same.mp controlling]
  · have alike : ∀ role, calcCheckPrio role lcand rcand = calcCheckPrio role rcand rcand :=
      fun _ => calcCheckPrio_congr level rfl
    rw [alike role, alike role']
    unfold calcCheckPrio
    simp

/-! ## Ranks -/

variable {rcands : List Cand}

variable {lcands : List Cand} {check : Check}

/-- The candidates of a pair are there, and its priority is the one for the role of the agent. -/
def Ranked (ice : IceSess) (check : Check) : Prop :=
  check.lcand < ice.lcands.length ∧ check.rcand < ice.rcands.length ∧
    check.prio = calcCheckPrio ice.role (ice.lcand check) (ice.rcand check) ∧
    Small (ice.lcand check).prio ∧ Small (ice.rcand check).prio

/-- The invariant of the priorities. -/
structure Ranks (ice : IceSess) : Prop where
  checks : ∀ check ∈ ice.checks, Ranked ice check
  valid : ∀ check ∈ ice.valid, Ranked ice check
  fresh : ice.checks = [] → ice.valid = []

theorem Ranked.grow {check' : Check} (ranked : Ranked ice check) (same : check'.pair = check.pair)
    (role : ice'.role = ice.role) (left : ice'.lcands = ice.lcands ++ lcands)
    (right : ice'.rcands = ice.rcands ++ rcands) :
    Ranked ice' check' := by
  have ⟨inside, inside', prio, small, small'⟩ := ranked
  simp only [Check.pair, Prod.mk.injEq] at same
  have lcand : ice'.lcand check' = ice.lcand check := by
    rw [IceSess.lcand, left, same.1, getD_append _ _ _ _ inside]
    rfl
  have rcand : ice'.rcand check' = ice.rcand check := by
    rw [IceSess.rcand, right, same.2.1, getD_append _ _ _ _ inside']
    rfl
  refine ⟨?_, ?_, ?_, ?_, ?_⟩
  · rw [same.1, left, length_append]
    omega
  · rw [same.2.1, right, length_append]
    omega
  · rw [same.2.2, role, lcand, rcand, prio]
  · exact lcand ▸ small
  · exact rcand ▸ small'

theorem Ranks.congr (ranks : Ranks ice) (same : ice'.pairing = ice.pairing) : Ranks ice' := by
  have role : ice'.role = ice.role := congrArg Pairing.role same
  have left : ice'.lcands = ice.lcands := congrArg Pairing.lcands same
  have right : ice'.rcands = ice.rcands := congrArg Pairing.rcands same
  have pairs : ice'.checks.map Check.pair = ice.checks.map Check.pair := congrArg Pairing.pairs same
  have valid : ice'.valid.map Check.pair = ice.valid.map Check.pair := congrArg Pairing.valid same
  have each : ∀ check check' : Check, check'.pair = check.pair → Ranked ice check → Ranked ice' check' :=
    fun _ _ same' ranked => ranked.grow same' role (left.trans (append_nil _).symm)
      (right.trans (append_nil _).symm)
  exact
    { checks := forall_of_map_pair pairs each ranks.checks
      valid := forall_of_map_pair valid each ranks.valid
      fresh := fun empty => by
        rw [empty] at pairs
        rw [ranks.fresh (map_eq_nil_iff.mp pairs.symm)] at valid
        exact map_eq_nil_iff.mp valid }

theorem Ranks.of_frame (ranks : Ranks ice) (same : ice'.frame = ice.frame) : Ranks ice' :=
  ranks.congr (pairing_of_frame same)

theorem Ranks.grow (ranks : Ranks ice) (role : ice'.role = ice.role)
    (left : ice'.lcands = ice.lcands ++ lcands) (right : ice'.rcands = ice.rcands ++ rcands)
    (checks : ice'.checks = ice.checks) (valid : ice'.valid = ice.valid) : Ranks ice' :=
  { checks := by
      rw [checks]
      exact fun check member => (ranks.checks check member).grow rfl role left right
    valid := by
      rw [valid]
      exact fun check member => (ranks.valid check member).grow rfl role left right
    fresh := checks ▸ valid ▸ ranks.fresh }

/-- An agent that turns to or from the controlling role has only pairs of candidates that are
alike in priority. -/
def TurnsLevel (ice : IceSess) (role : Role) : Prop :=
  (role = .controlling ↔ ice.role = .controlling) ∨
    ∀ check ∈ ice.checks ++ ice.valid, (ice.lcand check).prio = (ice.rcand check).prio

instance (ice : IceSess) (role : Role) : Decidable (TurnsLevel ice role) :=
  inferInstanceAs (Decidable (_ ∨ ∀ check ∈ ice.checks ++ ice.valid, _))

theorem Ranks.turn (ranks : Ranks ice) (level : TurnsLevel ice role) :
    Ranks { ice with role := role } := by
  have each : ∀ check ∈ ice.checks ++ ice.valid, Ranked ice check →
      Ranked { ice with role := role } check := by
    intro check member ranked
    have ⟨inside, inside', prio, small, small'⟩ := ranked
    refine ⟨inside, inside', ?_, small, small'⟩
    rw [prio]
    apply calcCheckPrio_role
    rcases level with same | equal
    · exact .inl same.symm
    · exact .inr (equal check member)
  exact
    { checks := fun check member =>
        each check (mem_append_left _ member) (ranks.checks check member)
      valid := fun check member =>
        each check (mem_append_right _ member) (ranks.valid check member)
      fresh := ranks.fresh }

/-! ## Incoming checks -/

/-- A pair that an incoming check adds to the checklist has small priorities. -/
def AddsSmall (ice : IceSess) (rcheck : RxCheck) : Prop :=
  ∀ lcand ∈ findLcand ice rcheck.compId rcheck.transportId, ice.checks.length < iceMaxChecks →
    (findRcand ice.rcands rcheck.srcAddr = none → ice.rcands.length < iceMaxCand →
      Small (ice.lcands.getD lcand Cand.zero).prio ∧ Small rcheck.priority) ∧
    ∀ rcand ∈ findRcand ice.rcands rcheck.srcAddr,
      (∀ check ∈ ice.checks, check.key ≠ (lcand, rcand)) →
        Small (ice.lcands.getD lcand Cand.zero).prio ∧ Small (ice.rcands.getD rcand Cand.zero).prio

instance (ice : IceSess) (rcheck : RxCheck) : Decidable (AddsSmall ice rcheck) :=
  inferInstanceAs (Decidable (∀ lcand ∈ findLcand ice rcheck.compId rcheck.transportId, _ →
    (_ → _ → _ ∧ _) ∧ ∀ rcand ∈ findRcand ice.rcands rcheck.srcAddr,
      (∀ check ∈ ice.checks, check.key ≠ (lcand, rcand)) → _ ∧ _))

theorem ranks_handleIncomingCheck (ranks : Ranks ice) {rcheck : RxCheck} (adds : AddsSmall ice rcheck)
    (done : handleIncomingCheck cfg ice rcheck = some ice') : Ranks ice' := by
  rcases handleIncomingCheck_cases done with rfl | ⟨known, rcand, learned, outcome⟩
  · exact ranks
  have known' : Ranks known ∧ known.checks = ice.checks ∧ known.lcands = ice.lcands := by
    rcases learned with ⟨-, rfl⟩ | ⟨-, -, -, rfl⟩
    · exact ⟨ranks, rfl, rfl⟩
    · exact ⟨ranks.grow rfl (append_nil _).symm rfl rfl rfl, rfl, rfl⟩
  rcases outcome with rfl |
    ⟨lcand, found, ⟨ckid, -, -, triggers⟩ | ⟨anew, rfl | ⟨room, nominate, status, performed⟩⟩⟩
  · exact known'.1
  · exact known'.1.congr (pairing_triggerCheck triggers)
  · exact known'.1
  · refine Ranks.of_frame ?_ (frame_performCheck performed)
    obtain ⟨check, member, rfl, -⟩ := findLcand_spec found
    have inside := (ranks.checks check member).1
    have remote : rcand < known.rcands.length ∧ Small (ice.lcand check).prio ∧
        Small (known.rcands.getD rcand Cand.zero).prio := by
      have small := adds _ found room
      rcases learned with ⟨found', rfl⟩ | ⟨nowhere, room', rfl, rfl⟩
      · have spec := findIdx?_eq_some_iff_findIdx_eq.mp found'
        exact ⟨spec.1, small.2 rcand found' anew⟩
      · have small' := small.1 nowhere room'
        have last : (ice.rcands ++ [prflxRcand rcheck]).getD ice.rcands.length Cand.zero =
            prflxRcand rcheck := by simp
        refine ⟨?_, small'.1, ?_⟩
        · rw [length_append]
          exact Nat.lt_succ_self _
        · rw [last]
          exact small'.2
    have ranked : Ranked known (triggered known rcheck check.lcand rcand) := by
      refine ⟨known'.2.2.symm ▸ inside, remote.1, rfl, ?_, remote.2.2⟩
      simp only [IceSess.lcand, triggered, known'.2.2]
      exact remote.2.1
    exact
      { checks := fun check member => by
          rcases mem_append.mp member with member | member
          · exact known'.1.checks check (known'.2.1.symm ▸ member)
          · rw [mem_singleton.mp member]
            exact ranked
        valid := known'.1.valid
        fresh := fun empty =>
          absurd empty (append_ne_nil_of_right_ne_nil _ (cons_ne_nil _ _)) }

/-! ## Success -/

theorem ranks_succeedCheck (ranks : Ranks ice) {ckid lcand : Nat} (inside : ckid < ice.checks.length)
    (inside' : lcand < ice.lcands.length)
    (small : findValid ice.valid lcand (checkAt ice.checks ckid).rcand = none →
      Small (ice.lcands.getD lcand Cand.zero).prio)
    (done : succeedCheck cfg ice ckid lcand = some ice') : Ranks ice' := by
  have ⟨updated, complete, first, rest⟩ := succeedCheck_eq done
  have own := ranks.checks _ (checkAt_mem inside)
  have some' : ice.checks ≠ [] := fun empty => absurd inside (empty ▸ Nat.not_lt_zero _)
  have added : Ranks { ice with valid := (addValid ice (checkAt ice.checks ckid) lcand).1 } := by
    rcases addValid_cases ice (checkAt ice.checks ckid) lcand with ⟨absent, same⟩ | ⟨slot, -, same⟩
    · rw [same]
      have ranked : Ranked ice (validPair ice (checkAt ice.checks ckid) lcand) :=
        ⟨inside', own.2.1, rfl, small absent, own.2.2.2.2⟩
      exact
        { ranks with
          valid := fun check member => by
            rcases mem_append.mp member with member | member
            · exact ranks.valid check member
            · rw [mem_singleton.mp member]
              exact ranked
          fresh := fun empty => absurd empty some' }
    · rw [same]
      apply ranks.congr
      exact congrArg (Pairing.mk _ _ _ _) (map_modify_pair fun _ => rfl)
  have updated' : Ranks updated := added.congr (pairing_updateCompCheck first).1
  have sorted := sortChecklist_perm updated.valid
  have sorted' : Ranks (sortValid updated) :=
    { updated' with
      valid := fun check member => updated'.valid check (sorted.mem_iff.mp member)
      fresh := fun empty => by
        have nothing := updated'.fresh empty
        have length := sorted.length_eq
        rw [nothing, length_nil] at length
        rw [← nothing] at length
        exact length_eq_zero_iff.mp length }
  exact sorted'.of_frame ((frame_onCheckComplete rest).trans frame_checkSetState)

/-- A pair that a success adds to the valid list has a local candidate of small priority. -/
def SuccessSmall (cfg : Config) (ice : IceSess) (check : Check) (addr : Sockaddr) : Prop :=
  (findMapped ice.lcands addr (ice.lcand check).baseAddr = none → ice.lcands.length < iceMaxCand →
    Small (calcCandPrio cfg .prflx 65535 ((ice.lcand check).compId % 256))) ∧
  ∀ lcand ∈ findMapped ice.lcands addr (ice.lcand check).baseAddr,
    findValid ice.valid lcand check.rcand = none → Small (ice.lcands.getD lcand Cand.zero).prio

instance (cfg : Config) (ice : IceSess) (check : Check) (addr : Sockaddr) :
    Decidable (SuccessSmall cfg ice check addr) :=
  inferInstanceAs (Decidable ((_ → _ → _) ∧ ∀ lcand ∈ findMapped ice.lcands addr _, _ → _))

theorem ranks_onStunRequestComplete (ranks : Ranks ice) (live : Live ice none)
    {request : CheckRequest} (member : request ∈ ice.tsx) {status : Int} {mapped : Option Sockaddr}
    {srcAddr : Sockaddr}
    (turns : status = pjStatusFromStunCode stunScRoleConflict →
      TurnsLevel ice (conflictRole request.controlling))
    (small : ∀ addr ∈ successAddr cfg ice request status mapped srcAddr,
      SuccessSmall cfg ice (checkAt ice.checks request.ckid) addr)
    (done : onStunRequestComplete cfg ice request status mapped srcAddr = some ice') : Ranks ice' := by
  have ended : Ranks (endRequest ice request) := ranks.of_frame frame_endRequest
  have inside : request.ckid < (endRequest ice request).checks.length :=
    length_endRequest.symm ▸ live.slots request member
  have own := ranks.checks _ (checkAt_mem (live.slots request member))
  rcases onStunRequestComplete_cases done with ⟨conflict, retried⟩ | ⟨failure, -, failed⟩ |
    ⟨addr, given, ⟨found, here, succeeded⟩ | ⟨nowhere, room, cand, compId, -, prio, succeeded⟩⟩
  · refine (ranks.turn (turns conflict)).of_frame ((frame_retryCheck retried).trans ?_)
    have pairs := frame_pairs (frame_endRequest : (endRequest ice request).frame = ice.frame)
    exact congrArg (Frame.mk _ _ _ _ _) pairs
  · exact ended.of_frame (frame_failCheck failed)
  · refine ranks_succeedCheck ended inside (findMapped_lt here) ?_ succeeded
    rw [checkAt_endRequest]
    exact (small addr given).2 found here
  · have grown : Ranks { endRequest ice request with lcands := ice.lcands ++ [cand] } :=
      ended.grow rfl rfl (append_nil _).symm rfl rfl
    refine ranks_succeedCheck grown inside ?_ (fun _ => ?_) succeeded
    · rw [length_append]
      exact Nat.lt_succ_self _
    · have last : (ice.lcands ++ [cand]).getD ice.lcands.length Cand.zero = cand := by simp
      rw [last, prio, compId]
      exact (small addr given).1 nowhere room

/-! ## Creation -/

variable {checks replaced : List Check}

/-- The pairs of a checklist that is created have small priorities, and a server reflexive
candidate is no higher than the base that stands in for it, which is paired with the same remote
candidate if it is higher. -/
def PairsSmall (ice : IceSess) (remCand : List Cand) : Prop :=
  ∀ lcand ∈ ice.lcands, ∀ rcand ∈ savedCands ice remCand, paired lcand rcand →
    (Small lcand.prio ∧ Small rcand.prio) ∧
    (lcand.type = .srflx → ∀ host ∈ findBase ice.lcands lcand,
      (ice.lcands.getD host Cand.zero).prio = lcand.prio ∨
        paired (ice.lcands.getD host Cand.zero) rcand ∧
          lcand.prio.toNat < (ice.lcands.getD host Cand.zero).prio.toNat)

instance (ice : IceSess) (remCand : List Cand) : Decidable (PairsSmall ice remCand) :=
  inferInstanceAs (Decidable (∀ lcand ∈ ice.lcands, ∀ rcand ∈ savedCands ice remCand, _ →
    (_ ∧ _) ∧ (_ → ∀ host ∈ findBase ice.lcands lcand, _ ∨ _ ∧ _)))

/-- A check that is left is the first of its candidates. -/
theorem find?_of_mem_pruneFrom {count : Nat} (enough : checks.length ≤ count)
    (member : check ∈ pruneFrom lcands count checks) :
    (checks.find? fun upper => upper.key = check.key) = some check := by
  induction count generalizing checks with
  | zero =>
    rw [length_eq_zero_iff.mp (Nat.le_zero.mp enough)] at member
    exact absurd member not_mem_nil
  | succ count ih =>
    cases checks with
    | nil => exact absurd member not_mem_nil
    | cons head rest =>
      rcases mem_cons.mp member with rfl | member
      · exact find?_cons_of_pos (decide_eq_true rfl)
      · have kept := of_mem_filter (pruneFrom_sublist.mem member)
        have alone : ∀ upper : Check, upper.key = check.key →
            (!redundant lcands head upper) = true := by
          intro upper same
          simp only [Check.key, Prod.mk.injEq] at same
          simp only [redundant, same.1, same.2] at kept ⊢
          exact kept
        have other : ¬decide (head.key = check.key) = true := by
          intro same
          have alone' := alone head (of_decide_eq_true same)
          simp [redundant] at alone'
        have small : (rest.filter fun lower => !redundant lcands head lower).length ≤ count :=
          (length_filter_le ..).trans (Nat.le_of_succ_le_succ enough)
        have first := ih small member
        rw [find?_filter] at first
        rw [find?_cons_of_neg (p := fun upper : Check => decide (upper.key = check.key)) other,
          ← first]
        congr 1
        funext upper
        by_cases same : upper.key = check.key
        · simp [same, alone upper same]
        · simp [same]

/-- The checks that are replaced keep their priorities. -/
theorem map_prio_replaced
    (images : List.Forall₂ (fun check image => replaceSrflx lcands check = .ok image) checks replaced) :
    replaced.map Check.prio = checks.map Check.prio := by
  induction images with
  | nil => rfl
  | cons head _ ih =>
    rw [map_cons, map_cons, ih]
    rcases replaceSrflx_cases head with ⟨-, rfl⟩ | ⟨-, host, -, rfl⟩ <;> rfl

theorem pairwise_replaced {created : List Check}
    (images : List.Forall₂ (fun check image => replaceSrflx lcands check = .ok image)
      (sortChecklist created).1 replaced) :
    replaced.Pairwise fun upper lower => lower.prio ≤ upper.prio := by
  have descends : ((sortChecklist created).1.map Check.prio).Pairwise fun upper lower => lower ≤ upper :=
    pairwise_map.mpr SelectionSort.sort_pairwise
  rw [← map_prio_replaced images] at descends
  exact pairwise_map.mp descends

/-- The image of a check is among those of all. -/
theorem mem_replaced
    (images : List.Forall₂ (fun check image => replaceSrflx lcands check = .ok image) checks replaced)
    {image : Check} (member : check ∈ checks) (same : replaceSrflx lcands check = .ok image) :
    image ∈ replaced := by
  induction images with
  | nil => exact absurd member not_mem_nil
  | cons head _ ih =>
    rcases mem_cons.mp member with rfl | member
    · rw [head] at same
      rw [Except.ok.inj same]
      exact mem_cons_self
    · exact mem_cons_of_mem _ (ih member)

/-- A check below another of its candidates is not left. -/
theorem not_mem_pruneFrom (descends : checks.Pairwise fun upper lower => lower.prio ≤ upper.prio)
    {upper : Check} (member : upper ∈ checks) (same : upper.key = check.key)
    (below : check.prio < upper.prio) :
    check ∉ pruneFrom lcands checks.length checks := by
  intro left
  obtain ⟨-, before, behind, rfl, earlier⟩ :=
    find?_eq_some_iff_append.mp (find?_of_mem_pruneFrom le_rfl left)
  rcases mem_append.mp member with member | member
  · have other := earlier upper member
    simp [same] at other
  · rcases mem_cons.mp member with rfl | member
    · exact Nat.lt_irrefl _ below
    · have ordered := (pairwise_cons.mp (pairwise_append.mp descends).2.1).1 upper member
      exact absurd below (Nat.not_lt.mpr ordered)

/-- A host candidate is not replaced. -/
theorem replaceSrflx_base {srflx : Cand} {host j : Nat}
    (found : findBase lcands srflx = some host) :
    replaceSrflx lcands (newCheck role lcands rcands host j) =
      .ok (newCheck role lcands rcands host j) := by
  have ⟨inside, matched, _⟩ := findIdx?_eq_some_iff_getElem.mp found
  simp only [Bool.and_eq_true, decide_eq_true_eq] at matched
  have type : (lcands.getD host Cand.zero).type = .host := by
    rw [getD_eq_getElem?_getD, getElem?_eq_getElem inside, getD_some]
    exact matched.1
  unfold replaceSrflx
  simp only [newCheck, type, reduceCtorEq, if_false]

theorem ranks_createCheckList (ranks : Ranks ice) {remCand : List Cand}
    (small : PairsSmall ice remCand)
    (done : step cfg ice (.createCheckList remCand) = some ice') : Ranks ice' := by
  have ⟨fresh, done⟩ := createCheckList_step done
  obtain ⟨created, pruned, highestComp, pairs, some', pruned', -, rfl⟩ := createCheckList_eq done
  rw [fresh] at pairs
  have entry : ∀ (cands : List Cand) (i : Nat), i < cands.length → cands.getD i Cand.zero ∈ cands := by
    intro cands i inside
    rw [getD_eq_getElem?_getD, getElem?_eq_getElem inside]
    exact getElem_mem inside
  refine ⟨fun check member => ?_, fun check member => ?_, fun empty => ?_⟩
  · have length := (created_length pairs some' pruned').2
    obtain ⟨replaced, images, rfl⟩ := pruneChecklist_eq pruned'
    have ⟨origin, inside, image⟩ := exists_of_forall₂ images (pruneFrom_sublist.mem member)
    have sorted := SelectionSort.tracks_sort Check.prio Check.zero created
    obtain ⟨i, j, left, right, joined, rfl⟩ :=
      (mem_pairCands pairs).mp (sorted.perm.mem_iff.mp inside)
    have both := small _ (entry _ i left) _ (entry _ j right) joined
    rcases replaceSrflx_cases image with ⟨-, rfl⟩ | ⟨reflexive, host, found, rfl⟩
    · exact ⟨left, right, rfl, both.1⟩
    · have inside' := findBase_lt found
      rcases both.2 reflexive host found with level | ⟨joined', below⟩
      · refine ⟨inside', right, ?_, ?_, both.1.2⟩
        · exact calcCheckPrio_congr level.symm rfl
        · exact (show (ice.lcands.getD host Cand.zero).prio = _ from level) ▸ both.1.1
      · -- The pair of the base comes first, so that of the candidate is not left.
        have small' := (small _ (entry _ host inside') _ (entry _ j right) joined').1
        have upper : newCheck ice.role ice.lcands (savedCands ice remCand) host j ∈
            (sortChecklist created).1 :=
          sorted.perm.mem_iff.mpr ((mem_pairCands pairs).mpr ⟨host, j, inside', right, joined', rfl⟩)
        have upper' := mem_replaced images upper (replaceSrflx_base found)
        refine absurd member (not_mem_pruneFrom (pairwise_replaced images) upper' ?_ ?_)
        · simp only [Check.key, newCheck]
        · exact calcCheckPrio_lt small'.1 small'.2 below
  · rw [show ice.valid = [] from ranks.fresh fresh] at member
    exact absurd member not_mem_nil
  · exact absurd empty (created_length pairs some' pruned').2

/-! ## Runs -/

/-- What a step pairs has small priorities, and an agent that turns has level pairs. -/
def StepSmall (cfg : Config) (ice : IceSess) : Event → Prop
  | .changeRole role => TurnsLevel ice role
  | .createCheckList remCand => PairsSmall ice remCand
  | .startCheck => Starts ice → EachEarly cfg AddsSmall (wake cfg ice) ice.earlyCheck
  | .requestComplete id status mapped srcAddr =>
    ∀ request ∈ ice.tsx.find? fun request => request.id = id,
      (status = pjStatusFromStunCode stunScRoleConflict →
        TurnsLevel ice (conflictRole request.controlling)) ∧
      ∀ addr ∈ successAddr cfg ice request status mapped srcAddr,
        SuccessSmall cfg ice (checkAt ice.checks request.ckid) addr
  | .rxRequest rx => rx.isBinding = true → rx.priority.isSome = true →
    (∀ role ∈ repairRole cfg ice.role rx.roleAttr, TurnsLevel ice role) ∧
      ∀ rcheck ∈ handledCheck cfg ice rx, AddsSmall ice rcheck
  | _ => True

instance (cfg : Config) (ice : IceSess) : ∀ event, Decidable (StepSmall cfg ice event)
  | .changeRole role => inferInstanceAs (Decidable (TurnsLevel ice role))
  | .createCheckList remCand => inferInstanceAs (Decidable (PairsSmall ice remCand))
  | .startCheck =>
    inferInstanceAs (Decidable (Starts ice → EachEarly cfg AddsSmall (wake cfg ice) ice.earlyCheck))
  | .requestComplete id status mapped srcAddr =>
    inferInstanceAs (Decidable (∀ request ∈ ice.tsx.find? fun request => request.id = id,
      (status = pjStatusFromStunCode stunScRoleConflict →
        TurnsLevel ice (conflictRole request.controlling)) ∧
      ∀ addr ∈ successAddr cfg ice request status mapped srcAddr,
        SuccessSmall cfg ice (checkAt ice.checks request.ckid) addr))
  | .rxRequest rx =>
    inferInstanceAs (Decidable (rx.isBinding = true → rx.priority.isSome = true →
      (∀ role ∈ repairRole cfg ice.role rx.roleAttr, TurnsLevel ice role) ∧
        ∀ rcheck ∈ handledCheck cfg ice rx, AddsSmall ice rcheck))
  | .addCand .. | .periodicTimer | .sessionTimer => .isTrue trivial

theorem ranks_onStunRxRequest (ranks : Ranks ice) {rx : RxRequest}
    (small : StepSmall cfg ice (.rxRequest rx)) (done : onStunRxRequest cfg ice rx = some ice') :
    Ranks ice' := by
  unfold onStunRxRequest at done
  split at done
  · cases done
    exact ranks.of_frame rfl
  · next binding =>
    have binding' : rx.isBinding = true := by simpa using binding
    split at done
    · cases done
      exact ranks
    · next priority given =>
      have small' := small binding' (given ▸ rfl)
      split at done
      · cases done
        exact ranks.of_frame rfl
      · next role repaired =>
        have turned := ranks.turn (small'.1 role repaired)
        dsimp only at done
        split at done
        · cases done
          exact turned
        · next created =>
          split at done
          · cases done
            exact turned.of_frame rfl
          · have taken : rx.isBinding = true ∧ rx.createRes = pjSuccess ∧
                repairRole cfg ice.role rx.roleAttr ≠ none :=
              ⟨binding', not_not.mp created, repaired ▸ some_ne_none role⟩
            have handled : rxCheck cfg ice rx priority ∈ handledCheck cfg ice rx := by
              rw [handledCheck, if_pos taken, given]
              rfl
            have adds := small'.2 _ handled
            have ready : Ranks ({ ice with role := role }.emit (.response 0)) := turned.of_frame rfl
            exact ranks_handleIncomingCheck ready adds done

/-- Every step that is small keeps the priorities. -/
theorem ranks_step (ranks : Ranks ice) (live : Live ice none) {event : Event}
    (small : StepSmall cfg ice event) (done : step cfg ice event = some ice') : Ranks ice' := by
  cases event with
  | addCand compId transportId type localPref foundation addr baseAddr =>
    cases done
    unfold pjIceSessAddCand
    split
    · exact ranks
    · split
      · exact ranks
      · exact ranks.grow rfl rfl (append_nil _).symm rfl rfl
  | changeRole role =>
    cases done
    exact ranks.turn small
  | createCheckList remCand => exact ranks_createCheckList ranks small done
  | startCheck =>
    obtain ⟨⟨started, status⟩, found, rfl⟩ := map_eq_some_iff.mp done
    rcases startCheck_cases found with ⟨-, rfl | rfl⟩ | ⟨starts, checked, early, rfl⟩
    · exact ranks
    · exact ranks.of_frame rfl
    · have ranks' : Ranks checked := (small starts).kept
        (fun _ _ _ kept met handled => ranks_handleIncomingCheck kept met handled)
        (ranks.of_frame frame_wake) early
      exact ranks'.of_frame rfl
  | periodicTimer =>
    rcases periodicTimer_step done with rfl | ⟨-, done⟩
    · exact ranks
    · exact ranks.of_frame (frame_startPeriodicCheck done)
  | sessionTimer => exact ranks.of_frame (frame_onTimer done)
  | requestComplete id status mapped srcAddr =>
    rcases requestComplete_step done with rfl | ⟨request, member, found, done⟩
    · exact ranks
    · have small' := small request found
      exact ranks_onStunRequestComplete ranks live member small'.1 small'.2 done
  | rxRequest rx => exact ranks_onStunRxRequest ranks small done

/-- Every pair of the checklist and of the valid list has the priority of the formula, from the
priorities of its candidates on the side that controls now and on the side that is controlled. -/
def Ordered (ice : IceSess) : Prop :=
  ∀ check ∈ ice.checks ++ ice.valid, check.prio =
    pairPriority (controllingPrio ice.role (ice.lcand check) (ice.rcand check))
      (controlledPrio ice.role (ice.lcand check) (ice.rcand check))

theorem Ranks.ordered (ranks : Ranks ice) : Ordered ice := by
  intro check member
  have ⟨_, _, prio, small⟩ := (mem_append.mp member).elim (ranks.checks check) (ranks.valid check)
  rw [prio]
  exact calcCheckPrio_eq_iff.mpr small

theorem always_ordered {compCnt : Nat} {events : List Event}
    (met : Run.Meets (next cfg) (fun state event => ∀ ice ∈ state, StepSmall cfg ice event)
      (some (pjIceSessCreate role compCnt)) events) :
    Run.Always (next cfg) (fun state => ∀ ice ∈ state, Ordered ice)
      (some (pjIceSessCreate role compCnt)) events := by
  have kept : Run.Always (next cfg) (fun state => ∀ ice ∈ state, Live ice none ∧ Ranks ice)
      (some (pjIceSessCreate role compCnt)) events := by
    refine Run.always ?_ ?_ met
    · intro state event inv small ice' done
      have ⟨ice, held, step'⟩ := bind_eq_some_iff.mp done
      have before := inv ice held
      exact ⟨live_step before.1 step', ranks_step before.2 before.1 (small ice held) step'⟩
    · intro ice same
      obtain rfl := some.inj same
      refine ⟨⟨?_, ?_, ?_, ?_⟩, ?_, ?_, fun _ => rfl⟩
      · exact fun request member => absurd member not_mem_nil
      · exact fun request member => absurd member not_mem_nil
      · exact fun request member => absurd member not_mem_nil
      · exact fun i check _ found => by cases found
      · exact fun check member => absurd member not_mem_nil
      · exact fun check member => absurd member not_mem_nil
  exact kept.imp fun state inv ice held => (inv ice held).2.ordered

/-- In the runs of two agents whose steps are all small, every pair has the priority of the formula
in every state, and where the roles are opposite, pairs for which the agents have the same priorities
recorded have the same priority. -/
theorem pairs_ordered (cfg cfg' : Config) (role role' : Role) (compCnt compCnt' : Nat)
    (events events' : List Event)
    (met : Run.Meets (next cfg) (fun state event => ∀ ice ∈ state, StepSmall cfg ice event)
      (some (pjIceSessCreate role compCnt)) events)
    (met' : Run.Meets (next cfg') (fun state event => ∀ ice ∈ state, StepSmall cfg' ice event)
      (some (pjIceSessCreate role' compCnt')) events') :
    Run.Always (next cfg) (fun state => ∀ ice ∈ state, Ordered ice)
      (some (pjIceSessCreate role compCnt)) events ∧
    Run.Always (next cfg') (fun state => ∀ ice ∈ state, Ordered ice)
      (some (pjIceSessCreate role' compCnt')) events' ∧
    ∀ ice ∈ events.foldl (next cfg) (some (pjIceSessCreate role compCnt)),
      ∀ ice' ∈ events'.foldl (next cfg') (some (pjIceSessCreate role' compCnt')),
        ice.role = .controlling → ice'.role = .controlled →
        ∀ check ∈ ice.checks ++ ice.valid, ∀ check' ∈ ice'.checks ++ ice'.valid,
          (ice.lcand check).prio = (ice'.rcand check').prio →
          (ice.rcand check).prio = (ice'.lcand check').prio → check.prio = check'.prio := by
  have first := always_ordered met
  have second := always_ordered met'
  refine ⟨first, second, ?_⟩
  intro ice reached ice' reached' controlling controlled check member check' member' same same'
  rw [first.last ice reached check member, second.last ice' reached' check' member']
  simp [controllingPrio, controlledPrio, controlling, controlled, same, same']

/-- Each agent pairs its candidate with that of the other. -/
def levelRun (prio : UInt32) : List Event :=
  [addHost 1 10, .createCheckList [remoteHost 1 prio 20], .startCheck, .periodicTimer,
    .requestComplete 0 pjSuccess (some (iceAddr 1 10)) (iceAddr 2 20)]

theorem pairs_ordered_level :
    Run.Always (next calmConfig) (fun state => ∀ ice ∈ state, Ordered ice)
        (some (pjIceSessCreate .controlling 1)) (levelRun 2130706431) ∧
      Run.Always (next calmConfig) (fun state => ∀ ice ∈ state, Ordered ice)
        (some (pjIceSessCreate .controlled 1)) (levelRun 2130706431) ∧
      ((levelRun 2130706431).foldl (next calmConfig) (some (pjIceSessCreate .controlling 1))).map
          (fun ice => ice.valid.map Check.prio) =
        ((levelRun 2130706431).foldl (next calmConfig) (some (pjIceSessCreate .controlled 1))).map
          fun ice => ice.valid.map Check.prio :=
  have ordered := pairs_ordered calmConfig calmConfig .controlling .controlled 1 1
    (levelRun 2130706431) (levelRun 2130706431) (by decide) (by decide)
  ⟨ordered.1, ordered.2.1, by decide⟩

/-- The priority of the remote candidate does not fit into the lower half; or the controlling agent
turns, with a pair whose candidates differ. -/
theorem pairs_unordered :
    (¬Run.Always (next calmConfig) (fun state => ∀ ice ∈ state, Ordered ice)
      (some (pjIceSessCreate .controlling 1)) (levelRun 2147483648)) ∧
    ¬Run.Always (next calmConfig) (fun state => ∀ ice ∈ state, Ordered ice)
      (some (pjIceSessCreate .controlling 1)) (levelRun 1000 ++ [rxBinding 1 20 false .controlling]) := by
  refine ⟨fun always => ?_, fun always => ?_⟩
  · have wrong : (((levelRun 2147483648).foldl (next calmConfig)
        (some (pjIceSessCreate .controlling 1))).map fun ice =>
          ice.checks.any fun check => check.prio ≠
            pairPriority (controllingPrio ice.role (ice.lcand check) (ice.rcand check))
              (controlledPrio ice.role (ice.lcand check) (ice.rcand check))) = some true := by decide
    have ⟨ice, reached, found⟩ := map_eq_some_iff.mp wrong
    have ⟨check, member, other⟩ := any_eq_true.mp found
    exact of_decide_eq_true other (always.last ice reached check (mem_append_left _ member))
  · have wrong : (((levelRun 1000 ++ [rxBinding 1 20 false .controlling]).foldl (next calmConfig)
        (some (pjIceSessCreate .controlling 1))).map fun ice =>
          ice.checks.any fun check => check.prio ≠
            pairPriority (controllingPrio ice.role (ice.lcand check) (ice.rcand check))
              (controlledPrio ice.role (ice.lcand check) (ice.rcand check))) = some true := by decide
    have ⟨ice, reached, found⟩ := map_eq_some_iff.mp wrong
    have ⟨check, member, other⟩ := any_eq_true.mp found
    exact of_decide_eq_true other (always.last ice reached check (mem_append_left _ member))

end Pjnath.Ice
