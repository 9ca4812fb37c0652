import Mathlib.Data.List.ReduceOption
import Mathlib.Data.List.Sort
import Pjproject.SdpNeg.Agreement
import Pjproject.SdpNeg.Alignment

/-!
# The formats of an answered line

Without asymmetric media `process_m_answer` reduces the formats of an offered line to those that
the answer has, in the order of the answer, and the answer to those that were found. A format of
the offer looks for the first format of the answer that it matches. The two lists correspond if no
two formats of the offer find the same one.
-/

namespace Pjmedia.SdpNeg
open List Pj Sdp

/-- A format of the offer, which has the attributes `offerAttr`, matches one of the answer, in
`process_m_answer`. -/
def formatAnswers (answer : SdpMedia) (offerAttr : List SdpAttr) (fmt answered : Str) : Bool :=
  if payloadType fmt < 96 then answered = fmt
  else (pjmediaSdpAttrFind offerAttr rtpmap fmt).any fun a =>
    (pjmediaSdpMediaFindAttr2 answer rtpmap answered).any fun a' =>
      rtpmapAnswers (pjmediaSdpAttrGetRtpmap a) (pjmediaSdpAttrGetRtpmap a')

/-- The formats of the offer that match none of the answer. Each takes its attributes along. -/
def unanswered (answer : SdpMedia) : List Str → List SdpAttr → List Str
  | [], _ => []
  | fmt :: rest, attr =>
    match answer.fmt.findIdx? (formatAnswers answer attr fmt) with
    | none => fmt :: unanswered answer rest (removeFormatAttrs attr fmt)
    | some _ => unanswered answer rest attr

/-- The formats of the offer that match one of the answer, with the index of the first one. -/
def answeredFormats (answer : SdpMedia) : List Str → List SdpAttr → List (Str × Nat)
  | [], _ => []
  | fmt :: rest, attr =>
    match answer.fmt.findIdx? (formatAnswers answer attr fmt) with
    | none => answeredFormats answer rest (removeFormatAttrs attr fmt)
    | some prior => (fmt, prior) :: answeredFormats answer rest attr

/-- The formats of the answer at the indices that satisfy `chosen`, in their order. -/
def formatsAt (chosen : Nat → Bool) (fmts : List Str) : List Str :=
  (fmts.zipIdx.filter fun fmt => chosen fmt.2).map Prod.fst

/-- The attributes of a payload type: its rtpmaps, or its `fmtp`s. -/
def attrsOf (attrs : List SdpAttr) (name fmt : Str) : List SdpAttr :=
  attrs.filter (attrMatches name fmt)

/-- The number of formats with a payload type. -/
def countFormats (fmts : List Str) (fmt : Str) : Nat :=
  fmts.countP fun other => payloadType other = payloadType fmt

/-! ## Removing the attributes of formats -/

variable {name fmt : Str}

theorem find_eq_head (attrs : List SdpAttr) (name fmt : Str) :
    pjmediaSdpAttrFind attrs name fmt = (attrsOf attrs name fmt).head? :=
  (head?_filter ..).symm

theorem attrMatches_congr {other : Str} (same : payloadType other = payloadType fmt) :
    attrMatches name other = attrMatches name fmt := by
  funext a
  simp only [attrMatches, same]

/-- The removal of a found attribute takes the first one of its kind. -/
theorem attrsOf_removeFoundAttr (attrs : List SdpAttr) (name fmt : Str) :
    attrsOf (removeFoundAttr attrs name fmt) name fmt = (attrsOf attrs name fmt).tail := by
  unfold attrsOf removeFoundAttr
  induction attrs with
  | nil => rfl
  | cons a rest ih =>
    by_cases matched : attrMatches name fmt a = true
    · rw [eraseP_cons_of_pos matched, filter_cons_of_pos matched]
      rfl
    · rw [eraseP_cons_of_neg matched, filter_cons_of_neg matched,
        filter_cons_of_neg matched]
      exact ih

/-- The removal of an attribute leaves those of other names and payload types. -/
theorem attrsOf_removeFoundAttr_of_ne (attrs : List SdpAttr) {name' fmt' : Str}
    (other : name ≠ name' ∨ payloadType fmt ≠ payloadType fmt') :
    attrsOf (removeFoundAttr attrs name' fmt') name fmt = attrsOf attrs name fmt := by
  have apart : ∀ a, attrMatches name' fmt' a = true → ¬attrMatches name fmt a = true := by
    intro a matched matched'
    have ⟨named, payload⟩ := attrMatches_iff.mp matched
    have ⟨named', payload'⟩ := attrMatches_iff.mp matched'
    rcases other with differ | differ
    · exact differ (named'.symm.trans named)
    · exact differ (payload'.symm.trans payload)
  unfold attrsOf removeFoundAttr
  induction attrs with
  | nil => rfl
  | cons a rest ih =>
    by_cases matched : attrMatches name' fmt' a = true
    · rw [eraseP_cons_of_pos matched, filter_cons_of_neg (apart a matched)]
    · rw [eraseP_cons_of_neg matched]
      by_cases kept : attrMatches name fmt a = true
      · rw [filter_cons_of_pos kept, filter_cons_of_pos kept, ih]
      · rw [filter_cons_of_neg kept, filter_cons_of_neg kept, ih]

/-- A name of the attributes that go with a format. -/
def FormatName (name : Str) : Prop := name = rtpmap ∨ name = fmtp

/-- A format takes the first of its attributes along. -/
theorem attrsOf_removeFormatAttrs (attrs : List SdpAttr) (named : FormatName name)
    (fmt other : Str) :
    attrsOf (removeFormatAttrs attrs other) name fmt =
      (attrsOf attrs name fmt).drop (countFormats [other] fmt) := by
  have differ : rtpmap ≠ fmtp := by decide
  unfold removeFormatAttrs
  by_cases same : payloadType other = payloadType fmt
  · have one : countFormats [other] fmt = 1 := by simp [countFormats, same]
    have like : ∀ attrs name, removeFoundAttr attrs name other = removeFoundAttr attrs name fmt := by
      intro attrs name
      rw [removeFoundAttr, attrMatches_congr same, removeFoundAttr]
    rw [one, drop_one, like, like]
    rcases named with rfl | rfl
    · rw [attrsOf_removeFoundAttr_of_ne _ (.inl differ), attrsOf_removeFoundAttr]
    · rw [attrsOf_removeFoundAttr, attrsOf_removeFoundAttr_of_ne _ (.inl differ.symm)]
  · have zero : countFormats [other] fmt = 0 := by simp [countFormats, same]
    have apart : payloadType fmt ≠ payloadType other := fun equal => same equal.symm
    rw [zero, drop_zero, attrsOf_removeFoundAttr_of_ne _ (.inr apart),
      attrsOf_removeFoundAttr_of_ne _ (.inr apart)]

/-- Formats take as many of their attributes along as there are formats of the payload type. -/
theorem attrsOf_removeFormats (named : FormatName name) (fmt : Str) (fmts : List Str) :
    ∀ attrs : List SdpAttr,
    attrsOf (fmts.foldl removeFormatAttrs attrs) name fmt =
      (attrsOf attrs name fmt).drop (countFormats fmts fmt) := by
  induction fmts with
  | nil => exact fun attrs => rfl
  | cons other rest ih =>
    intro attrs
    have count : countFormats (other :: rest) fmt =
        countFormats [other] fmt + countFormats rest fmt := by
      rw [countFormats, ← singleton_append, countP_append]
      rfl
    rw [foldl_cons, ih, attrsOf_removeFormatAttrs attrs named, drop_drop, count]

/-! ## The formats of the offer -/

/-- The matching of formats looks at their attributes only. -/
theorem formatAnswers_congr (answer : SdpMedia) {attr attr' : List SdpAttr}
    (same : attrsOf attr rtpmap fmt = attrsOf attr' rtpmap fmt) :
    formatAnswers answer attr fmt = formatAnswers answer attr' fmt := by
  funext answered
  rw [formatAnswers, formatAnswers, find_eq_head, find_eq_head, same]

theorem offered_congr (answer : SdpMedia) (fmts : List Str) :
    ∀ {attr attr' : List SdpAttr},
      (∀ name fmt, FormatName name → attrsOf attr name fmt = attrsOf attr' name fmt) →
      answeredFormats answer fmts attr = answeredFormats answer fmts attr' ∧
        unanswered answer fmts attr = unanswered answer fmts attr' := by
  induction fmts with
  | nil => exact fun _ => ⟨rfl, rfl⟩
  | cons fmt rest ih =>
    intro attr attr' same
    have removed : ∀ name other, FormatName name →
        attrsOf (removeFormatAttrs attr fmt) name other =
          attrsOf (removeFormatAttrs attr' fmt) name other := by
      intro name other named
      rw [attrsOf_removeFormatAttrs attr named, attrsOf_removeFormatAttrs attr' named,
        same name other named]
    unfold answeredFormats unanswered
    rw [formatAnswers_congr answer (same rtpmap fmt (.inl rfl))]
    split
    · exact ⟨(ih removed).1, congrArg (fmt :: ·) (ih removed).2⟩
    · exact ⟨congrArg (_ :: ·) (ih same).1, (ih same).2⟩

/-- The search of the loop finds the first match, if any. -/
theorem findAnswered_some {answer : SdpMedia} {attr : List SdpAttr} {prior : Nat}
    (found : findAnswered answer attr fmt = some prior) :
    prior = answer.fmt.findIdx (formatAnswers answer attr fmt) := by
  unfold findAnswered at found
  split at found
  · next static =>
    have same : formatAnswers answer attr fmt = fun answered => decide (answered = fmt) := by
      funext answered
      rw [formatAnswers, if_pos static]
    rw [same]
    exact (Option.some.inj found).symm
  · next dynamic =>
    have ⟨a, listed, found⟩ := Option.bind_eq_some_iff.mp found
    have same : formatAnswers answer attr fmt = fun answered =>
        (pjmediaSdpMediaFindAttr2 answer rtpmap answered).any fun a' =>
          rtpmapAnswers (pjmediaSdpAttrGetRtpmap a) (pjmediaSdpAttrGetRtpmap a') := by
      funext answered
      rw [formatAnswers, if_neg dynamic, listed]
      rfl
    rw [same]
    exact (Option.some.inj found).symm

/-- The loop over the formats of the offer keeps those that are answered. -/
theorem removeUnanswered_spec {answer : SdpMedia} {fmts : List Str} :
    ∀ {kept kept' : List (Str × Nat)} {attr attr' : List SdpAttr},
      removeUnanswered answer kept fmts attr = (.success, kept', attr') →
      kept' = kept ++ answeredFormats answer fmts attr ∧
        attr' = (unanswered answer fmts attr).foldl removeFormatAttrs attr := by
  induction fmts with
  | nil =>
    intro kept kept' attr attr' ends
    cases ends
    exact ⟨(append_nil _).symm, rfl⟩
  | cons fmt rest ih =>
    intro kept kept' attr attr' ends
    unfold removeUnanswered at ends
    split at ends
    · cases ends
    · next prior found =>
      have first := findAnswered_some found
      unfold answeredFormats unanswered
      split at ends
      · next missing =>
        rw [findIdx?_eq_none_iff_findIdx_eq.mpr (first.symm.trans missing)]
        exact ih ends
      · next there =>
        have bound : answer.fmt.findIdx (formatAnswers answer attr fmt) < answer.fmt.length :=
          Nat.lt_of_le_of_ne findIdx_le_length fun equal => there (first.trans equal)
        rw [findIdx?_eq_some_iff_findIdx_eq.mpr ⟨bound, rfl⟩, ← first]
        have ⟨keeps, removes⟩ := ih ends
        refine ⟨?_, removes⟩
        rw [keeps, append_assoc, singleton_append]

/-! ## Sorting the formats -/

/-- The inner loop of the sort brings a format of the least priority to the front. -/
theorem sortFirst_spec (rest : List (Str × Nat)) : ∀ first : Str × Nat,
    ((sortFirst first rest).1 :: (sortFirst first rest).2).Perm (first :: rest) ∧
      ∀ other ∈ first :: rest, (sortFirst first rest).1.2 ≤ other.2 := by
  induction rest with
  | nil =>
    intro first
    refine ⟨.refl _, ?_⟩
    rintro other (_ | ⟨_, ⟨⟩⟩)
    exact le_rfl
  | cons next rest ih =>
    intro first
    unfold sortFirst
    split
    · next less =>
      obtain ⟨perm, least⟩ := ih next
      refine ⟨(List.Perm.swap ..).trans (perm.cons first), ?_⟩
      intro other among
      rcases mem_cons.mp among with rfl | among
      · exact Nat.le_trans (least next mem_cons_self) (Nat.le_of_lt less)
      · exact least other among
    · next notLess =>
      obtain ⟨perm, least⟩ := ih first
      refine ⟨(List.Perm.swap ..).trans ((perm.cons next).trans (.swap ..)), ?_⟩
      intro other among
      rcases mem_cons.mp among with rfl | among
      · exact least other mem_cons_self
      rcases mem_cons.mp among with rfl | among
      · exact Nat.le_trans (least first mem_cons_self) (Nat.le_of_not_lt notLess)
      · exact least other (mem_cons_of_mem _ among)

/-- The loop that sorts the formats of the offer sorts them. -/
theorem sortFormats_spec (count : Nat) : ∀ formats : List (Str × Nat), formats.length ≤ count →
    (sortFormats count formats).Perm formats ∧
      (sortFormats count formats).Pairwise fun left right => left.2 ≤ right.2 := by
  induction count with
  | zero =>
    intro formats bound
    rw [length_eq_zero_iff.mp (Nat.le_zero.mp bound)]
    exact ⟨.refl _, .nil⟩
  | succ count ih =>
    intro formats bound
    cases formats with
    | nil => exact ⟨.refl _, .nil⟩
    | cons first rest =>
      have ⟨perm, least⟩ := sortFirst_spec rest first
      have size : (sortFirst first rest).2.length ≤ count := by
        have same := perm.length_eq
        simp only [length_cons] at same bound
        omega
      have ⟨perm', sorted⟩ := ih _ size
      have all := (perm'.cons (sortFirst first rest).1).trans perm
      refine ⟨all, pairwise_cons.mpr ⟨fun other among => ?_, sorted⟩⟩
      exact least other (all.mem_iff.mp (mem_cons_of_mem _ among))

/-! ## The formats of the answer -/

/-- The formats that stay are at increasing indices, which begin the priorities. -/
theorem removeUnoffered_prefix (prior : List Nat) (fmts : List Str) :
    ∀ (kept : List Str) (delCnt : Nat) (attr : List SdpAttr), ∃ indices : List Nat,
      (removeUnoffered prior kept delCnt fmts attr).1.length = kept.length + indices.length ∧
        indices <+: prior.drop kept.length ∧ indices.Pairwise (· < ·) ∧
        ∀ index ∈ indices, kept.length + delCnt ≤ index := by
  induction fmts with
  | nil => exact fun kept delCnt attr => ⟨[], rfl, nil_prefix, .nil, nofun⟩
  | cons fmt rest ih =>
    intro kept delCnt attr
    unfold removeUnoffered
    split
    · next here =>
      have ⟨indices, count, begins, increasing, bound⟩ := ih (kept ++ [fmt]) delCnt attr
      rw [length_append, length_singleton] at count begins bound
      have ⟨inside, value⟩ := List.getElem?_eq_some_iff.mp here
      refine ⟨(kept.length + delCnt) :: indices, ?_, ?_, ?_, ?_⟩
      · rw [count, length_cons, Nat.add_assoc, Nat.add_comm 1]
      · rw [drop_eq_getElem_cons inside, value]
        exact cons_prefix_cons.mpr ⟨rfl, begins⟩
      · refine pairwise_cons.mpr ⟨fun index among => ?_, increasing⟩
        have later := bound index among
        omega
      · intro index among
        rcases mem_cons.mp among with rfl | among
        · exact le_rfl
        · have later := bound index among
          omega
    · have ⟨indices, count, begins, increasing, bound⟩ :=
        ih kept (delCnt + 1) (removeFormatAttrs attr fmt)
      refine ⟨indices, count, begins, increasing, fun index among => ?_⟩
      have later := bound index among
      omega

/-- With increasing priorities the formats at these indices stay, and the others take their
attributes along. -/
theorem removeUnoffered_spec {prior : List Nat} (increasing : prior.Pairwise (· < ·))
    (fmts : List Str) : ∀ (kept : List Str) (delCnt : Nat) (attr : List SdpAttr),
      (∀ index ∈ prior.take kept.length, index < kept.length + delCnt) →
      (∀ index ∈ prior.drop kept.length, kept.length + delCnt ≤ index) →
      removeUnoffered prior kept delCnt fmts attr =
        (kept ++ ((fmts.zipIdx (kept.length + delCnt)).filter (·.2 ∈ prior)).map Prod.fst,
          (((fmts.zipIdx (kept.length + delCnt)).filter (·.2 ∉ prior)).map Prod.fst).foldl
            removeFormatAttrs attr) := by
  induction fmts with
  | nil =>
    intro kept delCnt attr _ _
    simp [removeUnoffered]
  | cons fmt rest ih =>
    intro kept delCnt attr before after
    unfold removeUnoffered
    rw [zipIdx_cons]
    split
    · next here =>
      have ⟨inside, value⟩ := List.getElem?_eq_some_iff.mp here
      have among : kept.length + delCnt ∈ prior := mem_of_getElem? here
      have split := drop_eq_getElem_cons inside
      have size : (kept ++ [fmt]).length = kept.length + 1 := length_append
      have later : (kept ++ [fmt]).length + delCnt = kept.length + delCnt + 1 := by omega
      have increasing' : (prior.drop kept.length).Pairwise (· < ·) := increasing.drop
      rw [split, value] at increasing'
      have rest' := ih (kept ++ [fmt]) delCnt attr ?_ ?_
      · rw [rest', later, filter_cons_of_pos (by simpa using among),
          filter_cons_of_neg (by simpa using among), append_assoc]
        rfl
      · intro index member
        rw [size, take_succ_eq_append_getElem inside, value, mem_append,
          mem_singleton] at member
        rcases member with member | rfl
        · have less := before index member
          omega
        · omega
      · intro index member
        rw [size] at member
        rw [later]
        exact (pairwise_cons.mp increasing').1 index member
    · next elsewhere =>
      have differ : ∀ index ∈ prior.drop kept.length, index ≠ kept.length + delCnt := by
        intro index member equal
        subst equal
        by_cases inside : kept.length < prior.length
        · have split := drop_eq_getElem_cons inside
          have increasing' : (prior.drop kept.length).Pairwise (· < ·) := increasing.drop
          rw [split] at increasing' member after
          rcases mem_cons.mp member with first | member
          · exact elsewhere (by rw [getElem?_eq_getElem inside, first])
          · have less := (pairwise_cons.mp increasing').1 _ member
            have least := after _ mem_cons_self
            omega
        · rw [drop_eq_nil_of_le (Nat.le_of_not_lt inside)] at member
          cases member
      have absent : kept.length + delCnt ∉ prior := by
        intro among
        rw [← take_append_drop kept.length prior] at among
        rcases mem_append.mp among with early | late
        · exact Nat.lt_irrefl _ (before _ early)
        · exact differ _ late rfl
      have rest' := ih kept (delCnt + 1) (removeFormatAttrs attr fmt) ?_ ?_
      · rw [rest', filter_cons_of_neg (by simpa using absent),
          filter_cons_of_pos (by simpa using absent), map_cons, foldl_cons]
        rfl
      · intro index member
        have less := before index member
        omega
      · intro index member
        have least := after index member
        have other := differ index member
        omega

/-- The formats at increasing indices are at these indices. -/
theorem formatsAt_increasing {indices : List Nat} (increasing : indices.Pairwise (· < ·))
    {fmts : List Str} (inside : ∀ index ∈ indices, index < fmts.length) :
    (formatsAt (· ∈ indices) fmts).length = indices.length ∧
      ∀ (i index : Nat), indices[i]? = some index →
        (formatsAt (· ∈ indices) fmts)[i]? = fmts[index]? := by
  let kept := fmts.zipIdx.filter fun fmt => decide (fmt.2 ∈ indices)
  have places : kept.map Prod.snd = indices := by
    have filtered : kept.map Prod.snd =
        (List.range' 0 fmts.length).filter fun index => decide (index ∈ indices) := by
      rw [← zipIdx_map_snd 0 fmts, filter_map]
      rfl
    have sorted : ((List.range' 0 fmts.length).filter
        fun index => decide (index ∈ indices)).Pairwise (· < ·) :=
      (pairwise_lt_range' (s := 0) (n := fmts.length)).filter _
    rw [filtered]
    refine List.Perm.eq_of_pairwise ?_ sorted increasing ?_
    · intro left right _ _ less greater
      exact absurd less (Nat.lt_asymm greater)
    · refine (perm_ext_iff_of_nodup (sorted.imp Nat.ne_of_lt)
        (increasing.imp Nat.ne_of_lt)).mpr fun index => ?_
      simp only [mem_filter, mem_range'_1, decide_eq_true_eq]
      exact ⟨And.right, fun among => ⟨⟨Nat.zero_le _, by have := inside index among; omega⟩, among⟩⟩
  have size : kept.length = indices.length := by rw [← places, length_map]
  refine ⟨by rw [formatsAt, length_map]; exact size, fun i index here => ?_⟩
  have bound : i < kept.length := by
    rw [size]
    exact (List.getElem?_eq_some_iff.mp here).1
  have place : kept[i].2 = index := by
    have placed : (kept.map Prod.snd)[i]? = some index := by rw [places, here]
    rw [getElem?_map, getElem?_eq_getElem bound] at placed
    exact Option.some.inj placed
  have among : kept[i] ∈ fmts.zipIdx := mem_of_mem_filter (getElem_mem bound)
  have there : fmts[kept[i].2]? = some kept[i].1 := mem_zipIdx_iff_getElem?.mp among
  rw [← place, there, formatsAt, getElem?_map]
  exact congrArg (Option.map Prod.fst) (getElem?_eq_getElem bound)

/-! ## Matches in what is left -/

section Pairing
variable {answer : SdpMedia} {fmts : List Str} {attr : List SdpAttr}

/-- After a dynamic format of the offer, no format of its payload type goes unanswered if none
finds the same format of the answer. -/
theorem unanswered_apart {prior : Nat} (dynamic : ¬payloadType fmt < 96) :
    ∀ {attr : List SdpAttr},
      answer.fmt.findIdx? (formatAnswers answer attr fmt) = some prior →
      prior ∉ (answeredFormats answer fmts attr).map Prod.snd →
      countFormats (unanswered answer fmts attr) fmt = 0 := by
  induction fmts with
  | nil => exact fun _ _ => rfl
  | cons other rest ih =>
    intro attr found absent
    unfold answeredFormats at absent
    unfold unanswered
    by_cases same : payloadType other = payloadType fmt
    · have like : formatAnswers answer attr other = formatAnswers answer attr fmt := by
        funext answered
        rw [formatAnswers, formatAnswers, same, if_neg dynamic, if_neg dynamic,
          pjmediaSdpAttrFind, attrMatches_congr same]
        rfl
      rw [like, found] at absent
      exact absurd mem_cons_self absent
    · split at absent
      · next missing =>
        have zero : countFormats [other] fmt = 0 := by simp [countFormats, same]
        have kept : attrsOf (removeFormatAttrs attr other) rtpmap fmt = attrsOf attr rtpmap fmt := by
          rw [attrsOf_removeFormatAttrs attr (.inl rfl), zero, drop_zero]
        rw [countFormats, countP_cons_of_neg (by simpa using same)]
        exact ih ((congrArg answer.fmt.findIdx? (formatAnswers_congr answer kept)).trans found) absent
      · next prior' there =>
        rw [map_cons, mem_cons, not_or] at absent
        exact ih found absent.2

/-- A format of the offer still matches the format that it finds in what is left of the offer. -/
theorem answeredFormats_match {pt : Str × Nat} : ∀ {attr : List SdpAttr},
    ((answeredFormats answer fmts attr).map Prod.snd).Nodup →
    pt ∈ answeredFormats answer fmts attr →
    ∃ answered, answer.fmt[pt.2]? = some answered ∧
      formatAnswers answer ((unanswered answer fmts attr).foldl removeFormatAttrs attr) pt.1
        answered = true := by
  induction fmts with
  | nil => nofun
  | cons fmt rest ih =>
    intro attr distinct among
    unfold answeredFormats at distinct among
    unfold unanswered
    split at distinct
    · next missing =>
      rw [missing] at among
      exact ih distinct among
    · next prior found =>
      rw [found] at among
      have ⟨absent, distinct⟩ := nodup_cons.mp distinct
      rcases mem_cons.mp among with rfl | among
      · have ⟨inside, matched, _⟩ := findIdx?_eq_some_iff_getElem.mp found
        refine ⟨answer.fmt[prior], getElem?_eq_getElem inside, ?_⟩
        by_cases static : payloadType fmt < 96
        · rw [formatAnswers, if_pos static] at matched ⊢
          exact matched
        · have kept : attrsOf ((unanswered answer rest attr).foldl removeFormatAttrs attr) rtpmap
              fmt = attrsOf attr rtpmap fmt := by
            rw [attrsOf_removeFormats (.inl rfl), unanswered_apart static found absent,
              drop_zero]
          rw [formatAnswers_congr answer kept]
          exact matched
      · exact ih distinct among

end Pairing

/-! ## Corresponding formats -/

/-- The indices of the formats of the answer that the formats of the offer find. -/
def priors (offer answer : SdpMedia) : List Nat :=
  (answeredFormats answer offer.fmt offer.attr).map Prod.snd

/-- The formats of the answer that no format of the offer finds. -/
def unoffered (offer answer : SdpMedia) : List Str :=
  formatsAt (· ∉ priors offer answer) answer.fmt

/-- What `process_m_answer` makes of the formats of an offered and an answered line: lists of one
length, in which the formats match one by one; the answer's are those that a format of the offer
finds, in their order; and no rtpmap and no `fmtp` of a removed format is left. -/
structure FormatsPaired (offer answer offer' answer' : SdpMedia) : Prop where
  count : offer'.fmt.length = answer'.fmt.length
  matched : ∀ (i : Nat) (fmt answered : Str), offer'.fmt[i]? = some fmt →
    answer'.fmt[i]? = some answered → formatAnswers answer' offer'.attr fmt answered = true
  survivors : answer'.fmt = formatsAt (· ∈ priors offer answer) answer.fmt
  offerGone : ∀ fmt ∈ unanswered answer offer.fmt offer.attr, ∀ name, FormatName name →
    attrsOf offer'.attr name fmt = []
  answerGone : ∀ fmt ∈ unoffered offer answer, ∀ name, FormatName name →
    attrsOf answer'.attr name fmt = []

/-- No two formats of the offer find the same format of the answer. A payload type with a format
that is not matched has no more rtpmaps and `fmtp`s than such formats, and is not the payload type
of a format of the answer that a dynamic format finds. -/
structure Pairable (offer answer : SdpMedia) : Prop where
  distinct : (priors offer answer).Nodup
  offerAttrs : ∀ fmt ∈ unanswered answer offer.fmt offer.attr, ∀ name, FormatName name →
    (attrsOf offer.attr name fmt).length ≤
      countFormats (unanswered answer offer.fmt offer.attr) fmt
  answerAttrs : ∀ fmt ∈ unoffered offer answer, ∀ name, FormatName name →
    (attrsOf answer.attr name fmt).length ≤ countFormats (unoffered offer answer) fmt
  apart : ∀ pt ∈ answeredFormats answer offer.fmt offer.attr, 96 ≤ payloadType pt.1 →
    ∀ answered, answer.fmt[pt.2]? = some answered →
      ∀ fmt ∈ unoffered offer answer, payloadType fmt ≠ payloadType answered

theorem mem_priors_lt {answer : SdpMedia} {fmts : List Str} : ∀ {attr : List SdpAttr},
    ∀ index ∈ (answeredFormats answer fmts attr).map Prod.snd, index < answer.fmt.length := by
  induction fmts with
  | nil => nofun
  | cons fmt rest ih =>
    intro attr index among
    unfold answeredFormats at among
    split at among
    · exact ih index among
    · next prior found =>
      rcases mem_cons.mp among with rfl | among
      · exact (findIdx?_eq_some_iff_getElem.mp found).1
      · exact ih index among

section
variable {offer answer offer' answer' : SdpMedia}
  (success : processFormats offer answer = (.success, offer', answer'))
include success

/-- The formats and the attributes that the loops leave. -/
theorem processFormats_success :
    ∃ sorted : List (Str × Nat),
      sorted.Perm (answeredFormats answer offer.fmt offer.attr) ∧
        (sorted.Pairwise fun left right => left.2 ≤ right.2) ∧
        offer'.fmt = sorted.map Prod.fst ∧
        offer'.attr =
          (unanswered answer offer.fmt offer.attr).foldl removeFormatAttrs offer.attr ∧
        (answer'.fmt, answer'.attr) =
          removeUnoffered (sorted.map Prod.snd) [] 0 answer.fmt answer.attr := by
  unfold processFormats at success
  split at success
  · next kept attr removed =>
    have ⟨keeps, removes⟩ := removeUnanswered_spec removed
    split at success
    · cases success
    · have ⟨perm, sorted⟩ := sortFormats_spec kept.length kept le_rfl
      cases success
      exact ⟨sortFormats kept.length kept, keeps ▸ perm, sorted, rfl, removes, rfl⟩
  · next status kept attr failed removed =>
    cases success
    exact (failed rfl).elim

/-- The formats correspond exactly if they can. -/
theorem processFormats_paired :
    FormatsPaired offer answer offer' answer' ↔ Pairable offer answer := by
  obtain ⟨sorted, perm, increases, offerFmt, offerAttr, rest⟩ := processFormats_success success
  have indices : (sorted.map Prod.snd).Perm (priors offer answer) := perm.map Prod.snd
  have among : ∀ index, index ∈ sorted.map Prod.snd ↔ index ∈ priors offer answer :=
    fun index => indices.mem_iff
  have inside : ∀ index ∈ sorted.map Prod.snd, index < answer.fmt.length :=
    fun index member => mem_priors_lt index ((among index).mp member)
  -- If no two formats find the same one, the loop keeps those that are found.
  have spec : (priors offer answer).Nodup →
      (sorted.map Prod.snd).Pairwise (· < ·) ∧
        answer'.fmt = formatsAt (· ∈ sorted.map Prod.snd) answer.fmt ∧
        answer'.attr = (unoffered offer answer).foldl removeFormatAttrs answer.attr := by
    intro distinct
    have strict : (sorted.map Prod.snd).Pairwise (· < ·) := by
      have nodup := indices.nodup_iff.mpr distinct
      rw [List.Nodup, pairwise_map] at nodup
      rw [pairwise_map]
      exact (increases.and nodup).imp fun both => Nat.lt_of_le_of_ne both.1 both.2
    have loop := removeUnoffered_spec strict answer.fmt [] 0 answer.attr (by simp)
      fun index _ => Nat.zero_le index
    rw [loop] at rest
    refine ⟨strict, congrArg Prod.fst rest, ?_⟩
    have same : unoffered offer answer =
        formatsAt (· ∉ sorted.map Prod.snd) answer.fmt := by
      simp only [unoffered, among]
    rw [same]
    exact congrArg Prod.snd rest
  -- The answer's format at a place is the one that the offer's format finds.
  have placed : (priors offer answer).Nodup → ∀ (i : Nat) (pt : Str × Nat), sorted[i]? = some pt →
      offer'.fmt[i]? = some pt.1 ∧ answer'.fmt[i]? = answer.fmt[pt.2]? := by
    intro distinct i pt here
    obtain ⟨strict, kept, _⟩ := spec distinct
    have index : (sorted.map Prod.snd)[i]? = some pt.2 := by rw [getElem?_map, here]; rfl
    refine ⟨by rw [offerFmt, getElem?_map, here]; rfl, ?_⟩
    rw [kept]
    exact (formatsAt_increasing strict inside).2 i pt.2 index
  constructor
  · intro paired
    have distinct : (priors offer answer).Nodup := by
      obtain ⟨kept, count, begins, increasing, _⟩ :=
        removeUnoffered_prefix (sorted.map Prod.snd) answer.fmt [] 0 answer.attr
      rw [← rest, ← paired.count, offerFmt, length_nil, Nat.zero_add, length_map] at count
      rw [length_nil, drop_zero] at begins
      have whole := begins.eq_of_length (by rw [← count, length_map])
      rw [whole] at increasing
      exact indices.nodup_iff.mp (increasing.imp Nat.ne_of_lt)
    obtain ⟨_, _, answerAttr⟩ := spec distinct
    refine ⟨distinct, ?_, ?_, ?_⟩
    · intro fmt removed name named
      have gone := paired.offerGone fmt removed name named
      rw [offerAttr, attrsOf_removeFormats named] at gone
      exact drop_eq_nil_iff.mp gone
    · intro fmt removed name named
      have gone := paired.answerGone fmt removed name named
      rw [answerAttr, attrsOf_removeFormats named] at gone
      exact drop_eq_nil_iff.mp gone
    · intro pt member dynamic answered there fmt removed same
      obtain ⟨i, bound, here⟩ := getElem_of_mem (perm.mem_iff.mpr member)
      obtain ⟨offered, found⟩ := placed distinct i pt (by rw [getElem?_eq_getElem bound, here])
      have matched := paired.matched i pt.1 answered offered (found.trans there)
      have gone := paired.answerGone fmt removed rtpmap (.inl rfl)
      rw [attrsOf, attrMatches_congr same] at gone
      have missing : pjmediaSdpMediaFindAttr2 answer' rtpmap answered = none := by
        rw [pjmediaSdpMediaFindAttr2, find_eq_head, attrsOf, gone]
        rfl
      rw [formatAnswers, if_neg (Nat.not_lt.mpr dynamic), missing] at matched
      simp at matched
  · intro pairable
    obtain ⟨strict, kept, answerAttr⟩ := spec pairable.distinct
    refine ⟨?_, ?_, ?_, ?_, ?_⟩
    · rw [offerFmt, kept, (formatsAt_increasing strict inside).1, length_map, length_map]
    · intro i fmt answered offered there
      rw [offerFmt, getElem?_map] at offered
      obtain ⟨pt, here, rfl⟩ := Option.map_eq_some_iff.mp offered
      have member := perm.mem_iff.mp (mem_of_getElem? here)
      obtain ⟨answered', found, matched⟩ := answeredFormats_match pairable.distinct member
      rw [← offerAttr] at matched
      have same : answered' = answered := by
        rw [(placed pairable.distinct i pt here).2, found] at there
        exact Option.some.inj there
      rw [same] at found matched
      by_cases static : payloadType pt.1 < 96
      · rw [formatAnswers, if_pos static] at matched ⊢
        exact matched
      · have alone : countFormats (unoffered offer answer) answered = 0 := by
          refine countP_eq_zero.mpr fun other removed => ?_
          have differ := pairable.apart pt member (Nat.not_lt.mp static) answered found other removed
          simpa using differ
        rw [formatAnswers, if_neg static] at matched ⊢
        rw [pjmediaSdpMediaFindAttr2, find_eq_head answer'.attr, answerAttr,
          attrsOf_removeFormats (.inl rfl), alone, drop_zero, ← find_eq_head]
        exact matched
    · rw [kept]
      simp only [among]
    · intro fmt removed name named
      rw [offerAttr, attrsOf_removeFormats named]
      exact drop_eq_nil_iff.mpr (pairable.offerAttrs fmt removed name named)
    · intro fmt removed name named
      rw [answerAttr, attrsOf_removeFormats named]
      exact drop_eq_nil_iff.mpr (pairable.answerAttrs fmt removed name named)

end

/-! ## The update of the direction -/

/-- The attributes of formats are not those of a direction. -/
theorem attrsOf_removeAllAttr (m : SdpMedia) {direction : Str} (differ : name ≠ direction)
    (fmt : Str) :
    attrsOf (pjmediaSdpMediaRemoveAllAttr m direction).attr name fmt = attrsOf m.attr name fmt := by
  rw [attrsOf, pjmediaSdpMediaRemoveAllAttr, filter_filter]
  refine filter_congr fun a _ => ?_
  cases matched : attrMatches name fmt a with
  | false => rfl
  | true => simp [(attrMatches_iff.mp matched).1, differ]

theorem attrsOf_addAttr (attrs : List SdpAttr) {new : SdpAttr} (differ : new.name ≠ name)
    (fmt : Str) :
    attrsOf (addAttr attrs new) name fmt = attrsOf attrs name fmt := by
  unfold addAttr
  split
  · have unmatched : ¬attrMatches name fmt new = true :=
      fun matched => differ (attrMatches_iff.mp matched).1
    rw [attrsOf, filter_append, filter_cons_of_neg unmatched, filter_nil,
      append_nil]
    rfl
  · rfl

theorem attrsOf_updateMediaDirection (remote m : SdpMedia) (named : FormatName name) (fmt : Str) :
    attrsOf (updateMediaDirection remote m).attr name fmt = attrsOf m.attr name fmt := by
  have others : name ≠ inactive ∧ name ≠ sendrecv ∧ name ≠ sendonly ∧ name ≠ recvonly := by
    rcases named with rfl | rfl <;> decide
  have removed : attrsOf (removeAllMediaDirections m).attr name fmt = attrsOf m.attr name fmt := by
    simp only [removeAllMediaDirections, foldl_cons, foldl_nil]
    rw [attrsOf_removeAllAttr _ others.2.2.2, attrsOf_removeAllAttr _ others.2.2.1,
      attrsOf_removeAllAttr _ others.2.1, attrsOf_removeAllAttr _ others.1]
  unfold updateMediaDirection
  dsimp only
  split
  · rfl
  · generalize answeredDirection remote (mediaDirection m) = dir
    cases dir with
    | none => exact (attrsOf_addAttr _ others.1.symm fmt).trans removed
    | encoding => exact (attrsOf_addAttr _ others.2.2.1.symm fmt).trans removed
    | decoding => exact (attrsOf_addAttr _ others.2.2.2.symm fmt).trans removed
    | encodingDecoding => exact removed

/-! ## Answers to a line -/

section congr
variable {offer other answer offer' answer' : SdpMedia}

/-- Lines with the same formats, and the same attributes of them. -/
structure SameFormats (offer other : SdpMedia) : Prop where
  fmt : offer.fmt = other.fmt
  attrs : ∀ name fmt, FormatName name → attrsOf offer.attr name fmt = attrsOf other.attr name fmt

section
variable (same : SameFormats offer other)
include same

theorem SameFormats.symm : SameFormats other offer :=
  ⟨same.fmt.symm, fun name fmt named => (same.attrs name fmt named).symm⟩

theorem SameFormats.answered (answer : SdpMedia) :
    answeredFormats answer offer.fmt offer.attr = answeredFormats answer other.fmt other.attr ∧
      unanswered answer offer.fmt offer.attr = unanswered answer other.fmt other.attr := by
  rw [same.fmt]
  exact offered_congr answer other.fmt same.attrs

theorem SameFormats.priors (answer : SdpMedia) : priors offer answer = priors other answer :=
  congrArg (List.map Prod.snd) (same.answered answer).1

theorem SameFormats.unoffered (answer : SdpMedia) :
    unoffered offer answer = unoffered other answer := by
  simp only [SdpNeg.unoffered, same.priors answer]

theorem FormatsPaired.congr (h : FormatsPaired offer answer offer' answer') :
    FormatsPaired other answer offer' answer' where
  count := h.count
  matched := h.matched
  survivors := by
    simp only [← same.priors answer]
    exact h.survivors
  offerGone := (same.answered answer).2 ▸ h.offerGone
  answerGone := same.unoffered answer ▸ h.answerGone

theorem Pairable.congr (h : Pairable offer answer) :
    Pairable other answer where
  distinct := same.priors answer ▸ h.distinct
  offerAttrs := by
    intro fmt removed name named
    rw [← (same.answered answer).2] at removed ⊢
    rw [← same.attrs name fmt named]
    exact h.offerAttrs fmt removed name named
  answerAttrs := same.unoffered answer ▸ h.answerAttrs
  apart := by
    rw [← (same.answered answer).1, ← same.unoffered answer]
    exact h.apart

end

end congr

/-- A success with both ports set pairs the formats of the lines exactly if they can be paired. -/
theorem processMAnswer_paired_iff {offer answer offer' answer' : SdpMedia}
    (success : processMAnswer offer answer false = (.success, offer', answer'))
    (offered : offer.port ≠ 0) (answered : answer.port ≠ 0) :
    FormatsPaired offer answer offer' answer' ↔ Pairable offer answer := by
  have same : SameFormats (updateMediaDirection answer offer) offer :=
    ⟨updateMediaDirection_fmt answer offer,
      fun name fmt named => attrsOf_updateMediaDirection answer offer named fmt⟩
  have formats : processFormats (updateMediaDirection answer offer) answer =
      (.success, offer', answer') := by
    unfold processMAnswer at success
    split at success
    · cases success
    split at success
    · cases success
    simpa only [if_neg answered, if_neg offered, Bool.false_eq_true, if_false] using success
  have paired := processFormats_paired formats
  exact ⟨fun h => (paired.mp (h.congr same.symm)).congr same,
    fun h => (paired.mpr (h.congr same.symm)).congr same⟩

/-- An offer of one codec under two payload types, and of the format 0. -/
def twiceOffered : SdpMedia :=
  { speexMedia [ofChars ['9', '6'], ofChars ['9', '7']] with
    fmt := [ofChars ['9', '6'], ofChars ['9', '7'], ofChars ['0']] }

/-- An answer with the codec and the format 0. -/
def onceAnswered : SdpMedia :=
  { speexMedia [ofChars ['9', '6']] with fmt := [ofChars ['9', '6'], ofChars ['0']] }

/-- Two formats of the offer that find the same format of the answer both stay, and the format 0
of the answer goes, which the offer has. -/
theorem processMAnswer_unpaired : ∃ offer' answer',
    processMAnswer twiceOffered onceAnswered false = (.success, offer', answer') ∧
      twiceOffered.port ≠ 0 ∧ onceAnswered.port ≠ 0 ∧
      offer'.fmt = twiceOffered.fmt ∧ answer'.fmt = [ofChars ['9', '6']] ∧
      ¬FormatsPaired twiceOffered onceAnswered offer' answer' :=
  ⟨_, _, rfl, by decide, by decide, by decide, by decide,
    fun paired => absurd paired.count (by decide)⟩

/-- An offer of the codec and the format 0 that is answered in the other order. -/
theorem processMAnswer_paired_speex : ∃ offer' answer',
    processMAnswer onceAnswered
        { onceAnswered with fmt := [ofChars ['0'], ofChars ['9', '6']] } false =
      (.success, offer', answer') ∧
      (FormatsPaired onceAnswered
          { onceAnswered with fmt := [ofChars ['0'], ofChars ['9', '6']] } offer' answer' ↔
        Pairable onceAnswered { onceAnswered with fmt := [ofChars ['0'], ofChars ['9', '6']] }) :=
  ⟨_, _, rfl, processMAnswer_paired_iff rfl (by decide) (by decide)⟩

/-! ## Asymmetric media -/

/-- The answer has a format of the offer. -/
def HasCommonFormat (offer answer : SdpMedia) : Prop := ∃ fmt ∈ answer.fmt, fmt ∈ offer.fmt

/-- The answer is accepted exactly if it has a format of the offer, and is otherwise refused for
having none. -/
def AsymAnswered (offer answer : SdpMedia) : Prop :=
  ((processMAnswer offer answer true).1 = .success ↔ HasCommonFormat offer answer) ∧
    (¬HasCommonFormat offer answer → (processMAnswer offer answer true).1 = .eansnomedia)

/-- The search compares the first format of the answer with itself. -/
theorem hasAsymFormat_iff (offer answer : SdpMedia) :
    hasAsymFormat offer answer = true ↔ answer.fmt ≠ [] ∧ offer.fmt ≠ [] := by
  unfold hasAsymFormat
  simp only [any_eq_true, mem_range, decide_eq_true_eq]
  constructor
  · rintro ⟨fmt, among, j, bound, -⟩
    exact ⟨ne_nil_of_mem among, ne_nil_of_length_pos (Nat.zero_lt_of_lt bound)⟩
  · rintro ⟨answered, offered⟩
    have ⟨first, rest, same⟩ := exists_cons_of_ne_nil answered
    refine ⟨first, ?_, 0, length_pos_of_ne_nil offered, ?_⟩
    · rw [same]
      exact mem_cons_self
    · rw [same]
      rfl

/-- The status for lines that are not refused. -/
theorem processMAnswer_asym {offer answer : SdpMedia} (media : answer.media = offer.media)
    (transport : pjmediaSdpTransportCmp answer.transport offer.transport = true)
    (answered : answer.port ≠ 0) (offered : offer.port ≠ 0) :
    (processMAnswer offer answer true).1 =
      if answer.fmt ≠ [] ∧ offer.fmt ≠ [] then .success else .eansnomedia := by
  unfold processMAnswer
  rw [if_neg (not_not_intro media), if_neg (not_not_intro transport), if_neg answered,
    if_neg offered]
  have same := hasAsymFormat_iff (updateMediaDirection answer offer) answer
  rw [updateMediaDirection_fmt] at same
  simp [same]

/-- Answers that may be asymmetric are accepted as they should be exactly if there is a common
format, or one of the lines has no format at all. -/
theorem processMAnswer_asym_iff {offer answer : SdpMedia} (media : answer.media = offer.media)
    (transport : pjmediaSdpTransportCmp answer.transport offer.transport = true)
    (answered : answer.port ≠ 0) (offered : offer.port ≠ 0) :
    AsymAnswered offer answer ↔
      HasCommonFormat offer answer ∨ answer.fmt = [] ∨ offer.fmt = [] := by
  unfold AsymAnswered
  rw [processMAnswer_asym media transport answered offered]
  by_cases both : answer.fmt ≠ [] ∧ offer.fmt ≠ []
  · have neither : ¬(answer.fmt = [] ∨ offer.fmt = []) := not_or.mpr both
    rw [if_pos both, or_iff_left neither]
    constructor
    · intro accepted
      exact accepted.1.mp rfl
    · intro common
      exact ⟨iff_of_true rfl common, fun none => absurd common none⟩
  · have empty : answer.fmt = [] ∨ offer.fmt = [] := by
      rwa [not_and_or, not_not, not_not] at both
    have none : ¬HasCommonFormat offer answer := by
      rintro ⟨fmt, among, among'⟩
      rcases empty with no | no
      · rw [no] at among
        cases among
      · rw [no] at among'
        cases among'
    rw [if_neg both]
    exact iff_of_true ⟨iff_of_false nofun none, fun _ => rfl⟩ (.inr empty)

/-- An answer without a format of the offer is accepted. -/
theorem processMAnswer_asym_disjoint :
    (processMAnswer pcmuMedia { pcmuMedia with fmt := [ofChars ['8']] } true).1 = .success ∧
      ¬AsymAnswered pcmuMedia { pcmuMedia with fmt := [ofChars ['8']] } := by
  refine ⟨by decide, fun accepted => ?_⟩
  have ⟨fmt, among, among'⟩ := accepted.1.mp (by decide)
  obtain rfl := mem_singleton.mp among
  revert among'
  decide

/-- An answer with the format of the offer. -/
theorem processMAnswer_asym_pcmu :
    AsymAnswered pcmuMedia pcmuMedia ↔
      HasCommonFormat pcmuMedia pcmuMedia ∨ pcmuMedia.fmt = [] ∨ pcmuMedia.fmt = [] :=
  processMAnswer_asym_iff rfl (by decide) (by decide) (by decide)

end Pjmedia.SdpNeg
