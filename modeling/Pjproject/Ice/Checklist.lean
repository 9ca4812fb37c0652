import Pjproject.Ice.Frame

/-!
# The checklist of an ICE session

What `pj_ice_sess_create_check_list` makes of the candidates: pairs of one component and family, at
most as many as there are slots, sorted by priority, with the bases of the server reflexive
candidates, and without a pair that one above makes redundant.
-/

namespace Pjnath.Ice
open List Pj Stun

variable {cfg : Config}

/-! ## Pairing -/

variable {lcands rcands : List Cand} {checks : List Check}

/-- A pair of candidates that the checklist is made of. -/
def IsPair (role : Role) (lcands rcands : List Cand) (check : Check) : Prop :=
  ∃ i j, i < lcands.length ∧ j < rcands.length ∧
    paired (lcands.getD i Cand.zero) (rcands.getD j Cand.zero) = true ∧
    check = newCheck role lcands rcands i j

theorem mem_indexPairs {m n i j : Nat} : (i, j) ∈ indexPairs m n ↔ i < m ∧ j < n := by
  simp [indexPairs]

/-- The loops that pair the candidates add pairs, as long as there is room, and leave none out. -/
theorem pairCands_spec {role : Role} {indices : List (Nat × Nat)} {before : List Check}
    (done : pairCands role lcands rcands indices before = .ok checks) :
    checks.length ≤ max before.length iceMaxChecks ∧
      ∀ check, check ∈ checks ↔ check ∈ before ∨ ∃ index ∈ indices,
        paired (lcands.getD index.1 Cand.zero) (rcands.getD index.2 Cand.zero) = true ∧
          check = newCheck role lcands rcands index.1 index.2 := by
  induction indices generalizing before with
  | nil =>
    cases done
    refine ⟨Nat.le_max_left .., fun check => ?_⟩
    simp
  | cons index rest ih =>
    simp only [pairCands] at done
    split at done
    · cases done
    · next room =>
      have small := Nat.lt_of_not_le room
      split at done
      · next joined =>
        have added := ih done
        rw [length_append, length_singleton] at added
        refine ⟨by omega, fun check => ?_⟩
        rw [added.2, mem_append, mem_singleton, or_assoc]
        refine or_congr Iff.rfl ⟨?_, ?_⟩
        · rintro (rfl | ⟨other, member, found⟩)
          · exact ⟨index, mem_cons_self, joined, rfl⟩
          · exact ⟨other, mem_cons_of_mem index member, found⟩
        · rintro ⟨other, member, found⟩
          rcases mem_cons.mp member with rfl | member
          · exact .inl found.2
          · exact .inr ⟨other, member, found⟩
      · next apart =>
        have same := ih done
        refine ⟨same.1, fun check => ?_⟩
        rw [same.2]
        refine or_congr Iff.rfl ⟨?_, ?_⟩
        · rintro ⟨other, member, found⟩
          exact ⟨other, mem_cons_of_mem index member, found⟩
        · rintro ⟨other, member, found⟩
          rcases mem_cons.mp member with rfl | member
          · exact absurd found.1 apart
          · exact ⟨other, member, found⟩

/-- The checks before they are sorted and pruned are the pairs. -/
theorem mem_pairCands {role : Role}
    (done : pairCands role lcands rcands (indexPairs lcands.length rcands.length) [] = .ok checks)
    {check : Check} : check ∈ checks ↔ IsPair role lcands rcands check := by
  rw [(pairCands_spec done).2]
  constructor
  · rintro (outside | ⟨⟨i, j⟩, member, found⟩)
    · exact absurd outside not_mem_nil
    · have inside := mem_indexPairs.mp member
      exact ⟨i, j, inside.1, inside.2, found⟩
  · rintro ⟨i, j, inside, inside', found⟩
    exact .inr ⟨(i, j), mem_indexPairs.mpr ⟨inside, inside'⟩, found⟩

/-! ## Pruning -/

/-- A list that is mapped without an error. -/
theorem forall₂_of_mapM {α β ε : Type*} {f : α → Except ε β} {entries : List α} {images : List β}
    (done : entries.mapM f = .ok images) :
    List.Forall₂ (fun entry image => f entry = .ok image) entries images := by
  induction entries generalizing images with
  | nil =>
    cases done
    exact .nil
  | cons entry rest ih =>
    rw [mapM_cons] at done
    cases head : f entry with
    | error status => simp [head, bind, Except.bind] at done
    | ok image =>
      cases tail : rest.mapM f with
      | error status => simp [head, tail, bind, Except.bind] at done
      | ok images' =>
        simp only [head, tail, bind, Except.bind, pure, Except.pure, Except.ok.injEq] at done
        subst done
        exact .cons head (ih tail)

/-- An image of such a list has an origin. -/
theorem exists_of_forall₂ {α β : Type*} {related : α → β → Prop} {entries : List α}
    {images : List β} (all : List.Forall₂ related entries images) {image : β}
    (member : image ∈ images) : ∃ entry ∈ entries, related entry image := by
  induction all with
  | nil => exact absurd member not_mem_nil
  | cons head _ ih =>
    rcases mem_cons.mp member with rfl | member
    · exact ⟨_, mem_cons_self, head⟩
    · have ⟨entry, inside, found⟩ := ih member
      exact ⟨entry, mem_cons_of_mem _ inside, found⟩

/-- What the first loop of `prune_checklist` does to a check. -/
theorem replaceSrflx_cases {check replaced : Check}
    (done : replaceSrflx lcands check = .ok replaced) :
    (lcands.getD check.lcand Cand.zero).type ≠ .srflx ∧ replaced = check ∨
    (lcands.getD check.lcand Cand.zero).type = .srflx ∧
      ∃ host, findBase lcands (lcands.getD check.lcand Cand.zero) = some host ∧
        replaced = { check with lcand := host } := by
  unfold replaceSrflx at done
  dsimp only at done
  split at done
  · next reflexive =>
    split at done
    · next host found => exact .inr ⟨reflexive, host, found, (Except.ok.inj done).symm⟩
    · cases done
  · next plain => exact .inl ⟨plain, (Except.ok.inj done).symm⟩

theorem findBase_lt {srflx : Cand} {host : Nat} (found : findBase lcands srflx = some host) :
    host < lcands.length :=
  (findIdx?_eq_some_iff_findIdx_eq.mp found).1

theorem pruneFrom_sublist {count : Nat} :
    (pruneFrom lcands count checks).Sublist checks := by
  induction count generalizing checks with
  | zero => exact List.Sublist.refl checks
  | succ count ih =>
    cases checks with
    | nil => exact List.Sublist.refl []
    | cons check rest => exact (ih.trans filter_sublist).cons_cons check

/-- No check that is left makes a later one redundant. -/
theorem pruneFrom_pairwise {count : Nat} (enough : checks.length ≤ count) :
    (pruneFrom lcands count checks).Pairwise fun upper lower =>
      redundant lcands upper lower = false := by
  induction count generalizing checks with
  | zero =>
    rw [length_eq_zero_iff.mp (Nat.le_zero.mp enough)]
    exact List.Pairwise.nil
  | succ count ih =>
    cases checks with
    | nil => exact List.Pairwise.nil
    | cons check rest =>
      refine List.Pairwise.cons (fun lower member => ?_) (ih ?_)
      · have kept := of_mem_filter (pruneFrom_sublist.mem member)
        simpa using kept
      · exact (length_filter_le ..).trans (Nat.le_of_succ_le_succ enough)

theorem pruneFrom_ne_nil {count : Nat} (some' : checks ≠ []) :
    pruneFrom lcands count checks ≠ [] := by
  cases count with
  | zero => exact some'
  | succ count =>
    cases checks with
    | nil => exact absurd rfl some'
    | cons check rest => exact cons_ne_nil _ _

/-- What `prune_checklist` does. -/
theorem pruneChecklist_eq {pruned : List Check} (done : pruneChecklist lcands checks = .ok pruned) :
    ∃ replaced, List.Forall₂ (fun check image => replaceSrflx lcands check = .ok image) checks replaced ∧
      pruned = pruneFrom lcands replaced.length replaced := by
  unfold pruneChecklist at done
  cases found : checks.mapM (replaceSrflx lcands) with
  | error status => simp [found, bind, Except.bind] at done
  | ok replaced =>
    simp only [found, bind, Except.bind, pure, Except.pure, Except.ok.injEq] at done
    exact ⟨replaced, forall₂_of_mapM found, done.symm⟩

/-! ## Creation -/

/-- The remote candidates that a session saves. -/
def savedCands (ice : IceSess) (remCand : List Cand) : List Cand :=
  remCand.filter fun cand => !(cand.compId = 0 || ice.comps.length < cand.compId)

/-- What the creation of a checklist goes through. -/
theorem createCheckList_eq {ice ice' : IceSess} {remCand : List Cand}
    (done : pjIceSessCreateCheckList ice remCand = .ok ice') :
    ∃ created pruned highestComp,
      pairCands ice.role ice.lcands (savedCands ice remCand)
        (indexPairs ice.lcands.length (savedCands ice remCand).length) ice.checks = .ok created ∧
      created ≠ [] ∧ pruneChecklist ice.lcands (sortChecklist created).1 = .ok pruned ∧
      (∀ cand ∈ savedCands ice remCand, cand.compId ≤ highestComp) ∧
      ice' = { ice with
        rcands := savedCands ice remCand
        checks := pruned
        comps := ice.comps.take highestComp
        clistTimer := false } := by
  have highest : ∀ (cands : List Cand) (start : Nat),
      start ≤ cands.foldl (fun highest cand => max highest cand.compId) start ∧
        ∀ cand ∈ cands, cand.compId ≤ cands.foldl (fun highest cand => max highest cand.compId) start := by
    intro cands
    induction cands with
    | nil => exact fun start => ⟨Nat.le_refl start, fun cand member => absurd member not_mem_nil⟩
    | cons head rest ih =>
      intro start
      have later := ih (max start head.compId)
      refine ⟨(Nat.le_max_left ..).trans later.1, fun cand member => ?_⟩
      rcases mem_cons.mp member with rfl | member
      · exact (Nat.le_max_right ..).trans later.1
      · exact later.2 cand member
  unfold pjIceSessCreateCheckList at done
  dsimp only at done
  split at done
  · cases done
  · split at done
    · cases done
    · split at done
      · cases done
      · next created paired =>
        split at done
        · cases done
        · next some' =>
          split at done
          · cases done
          · next pruned found =>
            exact ⟨created, pruned, _, paired, some', found, (highest _ 0).2,
              (Except.ok.inj done).symm⟩

section
variable {role : Role} {created pruned : List Check}
  (paired : pairCands role lcands rcands (indexPairs lcands.length rcands.length) [] = .ok created)
include paired

/-- Where the checks of a checklist that is created come from. -/
theorem created_origin (done : pruneChecklist lcands (sortChecklist created).1 = .ok pruned)
    {check : Check} (member : check ∈ pruned) :
    ∃ origin, IsPair role lcands rcands origin ∧ replaceSrflx lcands origin = .ok check := by
  obtain ⟨replaced, images, rfl⟩ := pruneChecklist_eq done
  have ⟨origin, inside, image⟩ := exists_of_forall₂ images (pruneFrom_sublist.mem member)
  have sorted := SelectionSort.tracks_sort Check.prio Check.zero created
  exact ⟨origin, (mem_pairCands paired).mp (sorted.perm.mem_iff.mp inside), image⟩

/-- A checklist that is created has no more checks than it has room for, and it has one. -/
theorem created_length (some' : created ≠ [])
    (done : pruneChecklist lcands (sortChecklist created).1 = .ok pruned) :
    pruned.length ≤ iceMaxChecks ∧ pruned ≠ [] := by
  obtain ⟨replaced, images, rfl⟩ := pruneChecklist_eq done
  have sorted := SelectionSort.tracks_sort Check.prio Check.zero created
  have length : replaced.length = created.length :=
    images.length_eq.symm.trans sorted.perm.length_eq
  have room := (pairCands_spec paired).1
  refine ⟨pruneFrom_sublist.length_le.trans (length.trans_le room), pruneFrom_ne_nil fun empty => ?_⟩
  rw [empty] at length
  exact some' (length_eq_zero_iff.mp length.symm)

end

end Pjnath.Ice
