import Pjproject.SdpNeg.FormatPairing

/-!
# The payload types of a symmetric answer

`apply_answer_symmetric_pt` gives the formats of an answer the payload types of the offer. It takes
the rtpmap and the `fmtp` of each format it renames out of the media and adds them again at the
end, so that a new payload type is not taken for the old one of another format. What it finds it
finds by the number, and what it replaces is as long as the old payload type.
-/

namespace Pjmedia.SdpNeg
open Option List Pj Sdp

/-- `pjmedia_sdp_attr_get_fmtp`: the format and its parameters. -/
def pjmediaSdpAttrGetFmtp (attr : SdpAttr) : Option (Str × Str) :=
  let token := attr.value.takeWhile pjIsdigit
  if token = [] then none
  else match attr.value.drop token.length with
    | 32 :: fmtParam => some (token, fmtParam)
    | _ => none

/-- The encoding, the rate and the parameters of the rtpmap of a format. -/
def codingOf (m : SdpMedia) (fmt : Str) : Option (Str × Nat × Str) :=
  (rtpmapOf m fmt).map fun r => (r.encName, r.clockRate, r.param)

/-- The parameters in the `fmtp` of a format. -/
def fmtParamOf (m : SdpMedia) (fmt : Str) : Option (Option Str) :=
  (pjmediaSdpMediaFindAttr2 m fmtp fmt).map fun a => (pjmediaSdpAttrGetFmtp a).map Prod.snd

/-- The attributes that do not go with a format. -/
def otherAttrs (attrs : List SdpAttr) : List SdpAttr :=
  attrs.filter fun a => a.name ≠ rtpmap ∧ a.name ≠ fmtp

/-- The answer `renamed` is `answer` with the payload types of the offer: its formats are those of
the offer, the rtpmap and the `fmtp` of each say what they said of the answer's format, and the
other attributes are left alone. -/
structure Renamed (pts : List (Str × Str)) (answer renamed : SdpMedia) : Prop where
  fmt : renamed.fmt = pts.map Prod.fst
  coding : ∀ pt ∈ pts, codingOf renamed pt.1 = codingOf answer pt.2
  fmtParam : ∀ pt ∈ pts, fmtParamOf renamed pt.1 = fmtParamOf answer pt.2
  others : otherAttrs renamed.attr = otherAttrs answer.attr
  apart : ∀ name fmt, FormatName name →
    (∀ pt ∈ pts, payloadType pt.1 ≠ payloadType fmt ∧ payloadType pt.2 ≠ payloadType fmt) →
    attrsOf renamed.attr name fmt = attrsOf answer.attr name fmt

/-- An answer whose formats differ and have one rtpmap and one `fmtp` each at most, and numbers of
the offer that differ. -/
structure Distinct (pts : List (Str × Str)) (answer : SdpMedia) : Prop where
  fmt : answer.fmt = pts.map Prod.snd
  nodup : answer.fmt.Nodup
  numeric : ∀ pt ∈ pts, pt.1 ≠ [] ∧ ∀ byte ∈ pt.1, pjIsdigit byte = true
  offered : (pts.map fun pt => payloadType pt.1).Nodup
  single : ∀ pt ∈ pts, ∀ name, FormatName name → (attrsOf answer.attr name pt.2).length ≤ 1
  count : answer.attr.length ≤ maxSdpAttr

/-- The formats of the answer are numbers without leading zeros, and their attributes begin with
them. A number of the offer that an attribute has is one of a format of the answer. -/
structure Renameable (pts : List (Str × Str)) (answer : SdpMedia) : Prop
    extends Distinct pts answer where
  decimal : ∀ pt ∈ pts, pt.2 = pjUtoa (payloadType pt.2)
  spelled : ∀ pt ∈ pts, ∀ a ∈ answer.attr, FormatName a.name →
    payloadType a.value = payloadType pt.2 → ∃ text, a.value = pt.2 ++ 32 :: text
  owned : ∀ a ∈ answer.attr, FormatName a.name →
    (∃ pt ∈ pts, payloadType a.value = payloadType pt.1) →
    ∃ pt ∈ pts, payloadType a.value = payloadType pt.2

/-! ## The loop -/

variable {name : Str}

/-- The attributes that a round takes out, with their new payload type. -/
def takenOut (attrs : List SdpAttr) (pt : Str × Str) : List SdpAttr :=
  if pt.2 = pt.1 then []
  else ((pjmediaSdpAttrFind attrs rtpmap pt.2).toList ++
    (pjmediaSdpAttrFind attrs fmtp pt.2).toList).map (rewrittenAttr · pt)

/-- The formats that are renamed. -/
def renamedFormats (pts : List (Str × Str)) : List Str :=
  (pts.filter fun pt => pt.2 ≠ pt.1).map Prod.snd

theorem rewriteAttr_eq (name : Str) (pt : Str × Str) (state : Rewritten) :
    rewriteAttr name pt.2 pt.1 state =
      { attr := removeFoundAttr state.attr name pt.2
        tmp := state.tmp ++
          (pjmediaSdpAttrFind state.attr name pt.2).toList.map (rewrittenAttr · pt) } := by
  unfold rewriteAttr
  split
  · next missing =>
    have same : removeFoundAttr state.attr name pt.2 = state.attr := by
      refine eraseP_of_forall_not fun a member => ?_
      exact find?_eq_none.mp missing a member
    rw [same, missing]
    simp
  · next a found =>
    rw [found]
    rfl

theorem rewriteFormat_eq (state : Rewritten) (pt : Str × Str) :
    rewriteFormat state pt =
      { attr := (renamedFormats [pt]).foldl removeFormatAttrs state.attr
        tmp := state.tmp ++ takenOut state.attr pt } := by
  unfold rewriteFormat takenOut renamedFormats
  by_cases same : pt.2 = pt.1
  · simp [same]
  · have kept : pjmediaSdpAttrFind (removeFoundAttr state.attr rtpmap pt.2) fmtp pt.2 =
        pjmediaSdpAttrFind state.attr fmtp pt.2 := by
      rw [find_eq_head, find_eq_head, attrsOf_removeFoundAttr_of_ne _ (.inl (by decide))]
    rw [if_neg same, if_neg same, rewriteAttr_eq, rewriteAttr_eq]
    simp [same, kept, removeFormatAttrs]

/-- The loop takes out the attributes of formats that differ in their numbers. -/
theorem foldl_rewriteFormat_eq (pts : List (Str × Str)) : ∀ state : Rewritten,
    (pts.Pairwise fun pt pt' => payloadType pt.2 ≠ payloadType pt'.2) →
    pts.foldl rewriteFormat state =
      { attr := (renamedFormats pts).foldl removeFormatAttrs state.attr
        tmp := state.tmp ++ pts.flatMap (takenOut state.attr) } := by
  induction pts with
  | nil =>
    intro state _
    simp [renamedFormats]
  | cons pt rest ih =>
    intro state distinct
    have ⟨first, distinct⟩ := pairwise_cons.mp distinct
    have kept : rest.flatMap (takenOut ((renamedFormats [pt]).foldl removeFormatAttrs state.attr)) =
        rest.flatMap (takenOut state.attr) := by
      refine flatMap_congr fun pt' member => ?_
      have none : countFormats (renamedFormats [pt]) pt'.2 = 0 := by
        refine countP_eq_zero.mpr fun fmt among => ?_
        obtain ⟨renamed, kept, rfl⟩ := mem_map.mp among
        obtain rfl := mem_singleton.mp (mem_of_mem_filter kept)
        simpa using first pt' member
      have same : ∀ name, FormatName name →
          pjmediaSdpAttrFind ((renamedFormats [pt]).foldl removeFormatAttrs state.attr) name pt'.2 =
            pjmediaSdpAttrFind state.attr name pt'.2 := by
        intro name named
        rw [find_eq_head, attrsOf_removeFormats named, none, drop_zero, find_eq_head]
      rw [takenOut, same rtpmap (.inl rfl), same fmtp (.inr rfl), takenOut]
    have formats : renamedFormats (pt :: rest) = renamedFormats [pt] ++ renamedFormats rest := by
      rw [renamedFormats, ← singleton_append, filter_append, map_append]
      rfl
    rw [foldl_cons, rewriteFormat_eq, ih _ distinct, kept, formats, foldl_append,
      flatMap_cons, append_assoc]

/-- What one element of a list gives, if the others give nothing. -/
theorem flatMap_eq_of_alone {α β : Type} {list : List α} {f : α → List β} {x : α}
    (nodup : list.Nodup) (member : x ∈ list) (alone : ∀ y ∈ list, y ≠ x → f y = []) :
    list.flatMap f = f x := by
  induction list with
  | nil => cases member
  | cons y rest ih =>
    have ⟨absent, nodup⟩ := nodup_cons.mp nodup
    rw [flatMap_cons]
    by_cases here : y = x
    · subst here
      have none : rest.flatMap f = [] := flatMap_eq_nil_iff.mpr fun z among =>
        alone z (mem_cons_of_mem _ among) fun same => absent (same ▸ among)
      rw [none, append_nil]
    · have member : x ∈ rest := (mem_cons.mp member).resolve_left fun same => here same.symm
      rw [alone y mem_cons_self here, nil_append]
      exact ih nodup member fun z among => alone z (mem_cons_of_mem _ among)

/-- The attributes of other names stay. -/
theorem otherAttrs_removeFoundAttr (attrs : List SdpAttr) (named : FormatName name) (fmt : Str) :
    otherAttrs (removeFoundAttr attrs name fmt) = otherAttrs attrs := by
  unfold otherAttrs removeFoundAttr
  induction attrs with
  | nil => rfl
  | cons a rest ih =>
    by_cases matched : attrMatches name fmt a = true
    · have gone : ¬(decide (a.name ≠ rtpmap ∧ a.name ≠ fmtp)) = true := by
        rw [(attrMatches_iff.mp matched).1]
        rcases named with rfl | rfl <;> simp
      rw [eraseP_cons_of_pos matched, filter_cons, if_neg gone]
    · rw [eraseP_cons_of_neg matched, filter_cons, filter_cons, ih]

theorem otherAttrs_removeFormats (fmts : List Str) : ∀ attrs : List SdpAttr,
    otherAttrs (fmts.foldl removeFormatAttrs attrs) = otherAttrs attrs := by
  induction fmts with
  | nil => exact fun _ => rfl
  | cons fmt rest ih =>
    intro attrs
    rw [foldl_cons, ih, removeFormatAttrs, otherAttrs_removeFoundAttr _ (.inr rfl),
      otherAttrs_removeFoundAttr _ (.inl rfl)]

/-! ## The renamed answer -/

section Renameable
variable {pts : List (Str × Str)} {answer : SdpMedia}

theorem Distinct.nodup_pts (h : Distinct pts answer) : pts.Nodup := List.Nodup.of_map _ h.offered

variable {pt : Str × Str}

/-- A number of the offer is offered once. -/
theorem Distinct.eq_of_offered (h : Distinct pts answer) {pt' : Str × Str} (member : pt ∈ pts)
    (member' : pt' ∈ pts) (same : payloadType pt.1 = payloadType pt'.1) : pt = pt' :=
  inj_on_of_nodup_map h.offered member member' same

section
variable (h : Renameable pts answer)
include h

/-- A number of the answer is one of one format. -/
theorem Renameable.eq_of_answered {pt' : Str × Str} (member : pt ∈ pts) (member' : pt' ∈ pts)
    (same : payloadType pt.2 = payloadType pt'.2) : pt = pt' := by
  have nodup := h.nodup
  rw [h.fmt] at nodup
  have equal : pt.2 = pt'.2 := by rw [h.decimal pt member, h.decimal pt' member', same]
  exact inj_on_of_nodup_map nodup member member' equal

/-- The attributes of the renamed answer: those that stay, and those taken out. -/
theorem Renameable.attr_eq :
    (applyAnswerSymmetricPt pts answer).attr =
      (renamedFormats pts).foldl removeFormatAttrs answer.attr ++
        pts.flatMap (takenOut answer.attr) := by
  have distinct : pts.Pairwise fun pt pt' => payloadType pt.2 ≠ payloadType pt'.2 :=
    h.nodup_pts.imp_of_mem fun member member' differ same =>
      differ (h.eq_of_answered member member' same)
  have count := foldl_rewriteFormat_length pts { attr := answer.attr, tmp := [] }
  have room := h.count
  have loop := foldl_rewriteFormat_eq pts { attr := answer.attr, tmp := [] } distinct
  simp only [nil_append] at loop
  rw [loop, length_nil, Nat.add_zero] at count
  simp only [applyAnswerSymmetricPt]
  rw [loop, foldl_addAttr (by rw [count]; exact room)]

theorem Renameable.fmt_eq : (applyAnswerSymmetricPt pts answer).fmt = pts.map Prod.fst := by
  have fmt := h.fmt
  simp only [applyAnswerSymmetricPt]
  rw [fmt]
  clear fmt h
  induction pts with
  | nil => rfl
  | cons pt rest ih =>
    rw [map_cons, zipWith_cons_cons, ih, map_cons]
    split
    · next equal => rw [equal]
    · rfl

/-- The attributes that a round takes out have the number of the offer. -/
theorem Renameable.attrsOf_takenOut (member : pt ∈ pts) (named : FormatName name) (fmt : Str) :
    attrsOf (takenOut answer.attr pt) name fmt =
      if pt.2 = pt.1 ∨ payloadType pt.1 ≠ payloadType fmt then []
      else (attrsOf answer.attr name pt.2).map (rewrittenAttr · pt) := by
  unfold takenOut
  by_cases same : pt.2 = pt.1
  · rw [if_pos same, if_pos (.inl same)]
    rfl
  rw [if_neg same]
  -- What is found is listed with the name and the number.
  have found : ∀ name', FormatName name' → ∀ a, pjmediaSdpAttrFind answer.attr name' pt.2 = some a →
      a.name = name' ∧ payloadType (rewrittenAttr a pt).value = payloadType pt.1 := by
    intro name' named' a there
    obtain ⟨isNamed, payload⟩ := attrMatches_iff.mp (find?_some there)
    obtain ⟨text, spelled⟩ := h.spelled pt member a (mem_of_find?_eq_some there)
      (isNamed ▸ named') payload
    refine ⟨isNamed, ?_⟩
    rw [rewrittenAttr, spelled, rewritePt_append, payloadType_space]
  have filtered : ∀ name', FormatName name' →
      ((pjmediaSdpAttrFind answer.attr name' pt.2).toList.map (rewrittenAttr · pt)).filter
          (attrMatches name fmt) =
        if name' = name ∧ payloadType pt.1 = payloadType fmt then
          (pjmediaSdpAttrFind answer.attr name' pt.2).toList.map (rewrittenAttr · pt)
        else [] := by
    intro name' named'
    cases there : pjmediaSdpAttrFind answer.attr name' pt.2 with
    | none => simp
    | some a =>
      obtain ⟨isNamed, payload⟩ := found name' named' a there
      have matched : attrMatches name fmt (rewrittenAttr a pt) = true ↔
          name' = name ∧ payloadType pt.1 = payloadType fmt := by
        rw [attrMatches_iff, payload]
        exact and_congr_left fun _ => by rw [← isNamed]; exact Iff.rfl
      by_cases fits : name' = name ∧ payloadType pt.1 = payloadType fmt
      · simp [fits, matched.mpr fits]
      · simp [fits, show ¬attrMatches name fmt (rewrittenAttr a pt) = true from
          fun holds => fits (matched.mp holds)]
  have alone : (pjmediaSdpAttrFind answer.attr name pt.2).toList = attrsOf answer.attr name pt.2 := by
    have single := h.single pt member name named
    rw [find_eq_head]
    cases list : attrsOf answer.attr name pt.2 with
    | nil => rfl
    | cons a rest =>
      rw [list, length_cons] at single
      rw [length_eq_zero_iff.mp (Nat.le_zero.mp (Nat.le_of_succ_le_succ single))]
      rfl
  have differ : rtpmap ≠ fmtp := by decide
  rw [attrsOf, map_append, filter_append, filtered rtpmap (.inl rfl),
    filtered fmtp (.inr rfl)]
  by_cases number : payloadType pt.1 = payloadType fmt
  · rw [if_neg (not_or.mpr ⟨same, not_not_intro number⟩)]
    rcases named with rfl | rfl
    · rw [if_pos ⟨rfl, number⟩, if_neg fun both => differ both.1.symm, append_nil, alone]
    · rw [if_neg fun both => differ both.1, if_pos ⟨rfl, number⟩, nil_append, alone]
  · have off : ∀ name', ¬(name' = name ∧ payloadType pt.1 = payloadType fmt) :=
      fun _ both => number both.2
    have none : pt.2 = pt.1 ∨ payloadType pt.1 ≠ payloadType fmt := .inr number
    rw [if_neg (off rtpmap), if_neg (off fmtp), if_pos none]
    rfl

end

/-- No renamed format has a number if no round takes out its attributes. -/
theorem attrsOf_kept (pts : List (Str × Str)) (attrs : List SdpAttr) {fmt : Str}
    (named : FormatName name)
    (apart : ∀ pt ∈ pts, pt.2 ≠ pt.1 → payloadType pt.2 ≠ payloadType fmt) :
    attrsOf ((renamedFormats pts).foldl removeFormatAttrs attrs) name fmt =
      attrsOf attrs name fmt := by
  have none : countFormats (renamedFormats pts) fmt = 0 := by
    refine countP_eq_zero.mpr fun other among => ?_
    obtain ⟨pt, kept, rfl⟩ := mem_map.mp among
    have ⟨member, differ⟩ := mem_filter.mp kept
    simpa using apart pt member (by simpa using differ)
  rw [attrsOf_removeFormats named, none, drop_zero]

/-- The attributes of an offered number are those of its format of the answer, renamed. -/
theorem Renameable.attrsOf_offered (h : Renameable pts answer) (member : pt ∈ pts)
    (named : FormatName name) :
    attrsOf (applyAnswerSymmetricPt pts answer).attr name pt.1 =
      (attrsOf answer.attr name pt.2).map (rewrittenAttr · pt) := by
  have taken : attrsOf (pts.flatMap (takenOut answer.attr)) name pt.1 =
      attrsOf (takenOut answer.attr pt) name pt.1 := by
    rw [attrsOf, filter_flatMap]
    refine flatMap_eq_of_alone h.nodup_pts member fun pt' member' differ => ?_
    have apart : payloadType pt'.1 ≠ payloadType pt.1 :=
      fun same => differ (h.eq_of_offered member' member same)
    have outside : pt'.2 = pt'.1 ∨ payloadType pt'.1 ≠ payloadType pt.1 := .inr apart
    have nothing := h.attrsOf_takenOut member' named pt.1
    rw [if_pos outside] at nothing
    exact nothing
  rw [h.attr_eq, attrsOf, filter_append, ← attrsOf, ← attrsOf, taken,
    h.attrsOf_takenOut member named]
  by_cases same : pt.2 = pt.1
  · -- The format keeps its number, and so does no other one that is renamed.
    have whole : (attrsOf answer.attr name pt.2).map (rewrittenAttr · pt) =
        attrsOf answer.attr name pt.2 := by
      refine (map_congr_left fun a among => ?_).trans (map_id _)
      obtain ⟨listed, matched⟩ := mem_filter.mp among
      obtain ⟨isNamed, payload⟩ := attrMatches_iff.mp matched
      obtain ⟨text, spelled⟩ := h.spelled pt member a listed (isNamed ▸ named) payload
      have value : rewritePt a.value pt.2 pt.1 = a.value := by
        rw [spelled, rewritePt_append, same]
      rw [rewrittenAttr, value]
      rfl
    have kept : attrsOf ((renamedFormats pts).foldl removeFormatAttrs answer.attr) name pt.1 =
        attrsOf answer.attr name pt.1 := by
      refine attrsOf_kept pts answer.attr named fun pt' member' differ same' => ?_
      rw [← same] at same'
      rw [h.eq_of_answered member' member same'] at differ
      exact differ same
    have own : pt.2 = pt.1 ∨ payloadType pt.1 ≠ payloadType pt.1 := .inl same
    rw [if_pos own, append_nil, whole, kept, ← same]
  · -- What has the new number is an attribute of a format that is renamed itself.
    have gone : attrsOf ((renamedFormats pts).foldl removeFormatAttrs answer.attr) name pt.1 =
        [] := by
      by_cases used : ∃ pt' ∈ pts, pt'.2 ≠ pt'.1 ∧ payloadType pt'.2 = payloadType pt.1
      · obtain ⟨pt', member', differ, number⟩ := used
        have counted : 1 ≤ countFormats (renamedFormats pts) pt.1 := by
          refine countP_pos_iff.mpr ⟨pt'.2, ?_, by simpa using number⟩
          exact mem_map_of_mem (mem_filter.mpr ⟨member', by simpa using differ⟩)
        have single := h.single pt' member' name named
        rw [attrsOf, attrMatches_congr number] at single
        rw [attrsOf_removeFormats named]
        exact drop_eq_nil_of_le (Nat.le_trans single counted)
      · rw [attrsOf_kept pts answer.attr named fun pt' member' differ number =>
          used ⟨pt', member', differ, number⟩]
        refine filter_eq_nil_iff.mpr fun a listed matched => ?_
        obtain ⟨isNamed, payload⟩ := attrMatches_iff.mp matched
        obtain ⟨pt', member', number⟩ := h.owned a listed (isNamed ▸ named) ⟨pt, member, payload⟩
        have equal : pt'.2 = pt'.1 := by
          by_contra differ
          exact used ⟨pt', member', differ, number.symm.trans payload⟩
        have offered : payloadType pt'.1 = payloadType pt.1 := by
          rw [← equal, ← number, payload]
        rw [h.eq_of_offered member' member offered] at equal
        exact same equal
    have other : ¬(pt.2 = pt.1 ∨ payloadType pt.1 ≠ payloadType pt.1) :=
      not_or.mpr ⟨same, not_not_intro rfl⟩
    rw [gone, nil_append, if_neg other]

section
variable {fmt : Str} (digits : ∀ byte ∈ fmt, pjIsdigit byte = true)
include digits

/-- The parameters of an `fmtp` do not depend on its format. -/
theorem getFmtp_space (nonempty : fmt ≠ []) (text : Str) :
    pjmediaSdpAttrGetFmtp { name := name, value := fmt ++ 32 :: text } = some (fmt, text) := by
  have ⟨take, _⟩ := takeWhile_stop pjIsdigit digits 32 (by decide) text
  unfold pjmediaSdpAttrGetFmtp
  simp only [take, drop_left, if_neg nonempty]

theorem isdigit_token : ∀ byte ∈ fmt, csToken byte = true := by
  intro byte member
  simp [csToken, digits byte member]

end

/-- The attribute found for an offered number is the one of its format of the answer, with the
new number. -/
theorem Renameable.find_offered (h : Renameable pts answer) (member : pt ∈ pts)
    (named : FormatName name) :
    (pjmediaSdpMediaFindAttr2 answer name pt.2 = none ∧
      pjmediaSdpMediaFindAttr2 (applyAnswerSymmetricPt pts answer) name pt.1 = none) ∨
    ∃ text, pjmediaSdpMediaFindAttr2 answer name pt.2 =
        some { name := name, value := pt.2 ++ 32 :: text } ∧
      pjmediaSdpMediaFindAttr2 (applyAnswerSymmetricPt pts answer) name pt.1 =
        some { name := name, value := pt.1 ++ 32 :: text } := by
  simp only [pjmediaSdpMediaFindAttr2, find_eq_head, h.attrsOf_offered member named]
  cases list : attrsOf answer.attr name pt.2 with
  | nil => exact .inl ⟨rfl, rfl⟩
  | cons a rest =>
    have among : a ∈ attrsOf answer.attr name pt.2 := by
      rw [list]
      exact mem_cons_self
    obtain ⟨listed, matched⟩ := mem_filter.mp among
    obtain ⟨isNamed, payload⟩ := attrMatches_iff.mp matched
    obtain ⟨text, spelled⟩ := h.spelled pt member a listed (isNamed ▸ named) payload
    refine .inr ⟨text, congrArg some ?_, congrArg some ?_⟩
    · rw [← spelled, ← isNamed]
    · have renamed : rewrittenAttr a pt = { a with value := pt.1 ++ 32 :: text } := by
        rw [rewrittenAttr, spelled, rewritePt_append]
      rw [← isNamed]
      exact renamed

/-- The payload types of an answer are renamed consistently. -/
theorem applyAnswerSymmetricPt_renamed (h : Renameable pts answer) :
    Renamed pts answer (applyAnswerSymmetricPt pts answer) where
  fmt := h.fmt_eq
  coding := by
    intro pt member
    have plain := h.decimal pt member
    have digits : ∀ byte ∈ pt.2, pjIsdigit byte = true := by
      rw [plain]
      exact fun byte among => pjUtoa_isdigit among
    have nonempty : pt.2 ≠ [] := by
      rw [plain]
      exact pjUtoa_ne_nil _
    rw [codingOf, codingOf, rtpmapOf, rtpmapOf]
    rcases h.find_offered member (.inl rfl) with ⟨before, after⟩ | ⟨text, before, after⟩
    · rw [before, after]
    · obtain ⟨nonempty', digits'⟩ := h.numeric pt member
      rw [before, after, map_some, map_some,
        @getRtpmap_space rtpmap rtpmap pt.1 pt.2 (isdigit_token digits') nonempty'
          (isdigit_token digits) nonempty text]
      rfl
  fmtParam := by
    intro pt member
    have plain := h.decimal pt member
    have digits : ∀ byte ∈ pt.2, pjIsdigit byte = true := by
      rw [plain]
      exact fun byte among => pjUtoa_isdigit among
    have nonempty : pt.2 ≠ [] := by
      rw [plain]
      exact pjUtoa_ne_nil _
    rw [fmtParamOf, fmtParamOf]
    rcases h.find_offered member (.inr rfl) with ⟨before, after⟩ | ⟨text, before, after⟩
    · rw [before, after]
    · obtain ⟨nonempty', digits'⟩ := h.numeric pt member
      rw [before, after, map_some, map_some, getFmtp_space digits nonempty text,
        getFmtp_space digits' nonempty' text]
      rfl
  others := by
    have none : otherAttrs (pts.flatMap (takenOut answer.attr)) = [] := by
      refine filter_eq_nil_iff.mpr fun a among => ?_
      obtain ⟨pt, member, taken⟩ := mem_flatMap.mp among
      unfold takenOut at taken
      split at taken
      · cases taken
      · obtain ⟨b, found, rfl⟩ := mem_map.mp taken
        rcases mem_append.mp found with there | there
        · have named := (attrMatches_iff.mp (find?_some (mem_toList.mp there))).1
          simp [rewrittenAttr, named]
        · have named := (attrMatches_iff.mp (find?_some (mem_toList.mp there))).1
          simp [rewrittenAttr, named]
    have kept := otherAttrs_removeFormats (renamedFormats pts) answer.attr
    rw [h.attr_eq, otherAttrs, filter_append, ← otherAttrs, ← otherAttrs, none, kept,
      append_nil]
  apart := by
    intro name fmt named apart
    have none : attrsOf (pts.flatMap (takenOut answer.attr)) name fmt = [] := by
      rw [attrsOf, filter_flatMap]
      refine flatMap_eq_nil_iff.mpr fun pt member => ?_
      have outside : pt.2 = pt.1 ∨ payloadType pt.1 ≠ payloadType fmt := .inr (apart pt member).1
      have nothing := h.attrsOf_takenOut member named fmt
      rw [if_pos outside] at nothing
      exact nothing
    rw [h.attr_eq, attrsOf, filter_append, ← attrsOf, ← attrsOf, none, append_nil]
    exact attrsOf_kept pts answer.attr named fun pt member _ => (apart pt member).2

end Renameable

/-- An answer with formats and attributes. -/
def renamedMedia (fmt : List Str) (attr : List SdpAttr) : SdpMedia :=
  { rtpMedia audio 4000 fmt with attr := attr }

/-- `"speex/8000"`. -/
def speexText : Str := ofChars ['s', 'p', 'e', 'e', 'x', '/', '8', '0', '0', '0']

/-- `"PCMU/8000"`. -/
def pcmuText : Str := ofChars ['P', 'C', 'M', 'U', '/', '8', '0', '0', '0']

/-- Two formats that swap their numbers. -/
def swappedMedia : SdpMedia :=
  renamedMedia [ofChars ['9', '6'], ofChars ['9', '7']]
    [{ name := rtpmap, value := ofChars ['9', '6'] ++ 32 :: speexText },
      { name := rtpmap, value := ofChars ['9', '7'] ++ 32 :: pcmuText }]

/-- The numbers of the offer for them. -/
def swappedPts : List (Str × Str) :=
  [(ofChars ['9', '7'], ofChars ['9', '6']), (ofChars ['9', '6'], ofChars ['9', '7'])]

set_option maxRecDepth 2000 in
theorem applyAnswerSymmetricPt_renamed_swap :
    Renamed swappedPts swappedMedia (applyAnswerSymmetricPt swappedPts swappedMedia) ∧
      codingOf (applyAnswerSymmetricPt swappedPts swappedMedia) (ofChars ['9', '7']) =
        codingOf swappedMedia (ofChars ['9', '6']) := by
  have renameable : Renameable swappedPts swappedMedia :=
    { fmt := rfl
      nodup := by decide
      numeric := by decide
      offered := by decide
      single := by
        rintro pt member name (rfl | rfl) <;> revert pt <;> decide
      count := by decide
      decimal := by decide
      spelled := by
        intro pt member a listed _ payload
        simp only [swappedPts, swappedMedia, renamedMedia, mem_cons, not_mem_nil,
          or_false] at member listed
        rcases member with rfl | rfl <;> rcases listed with rfl | rfl
        · exact ⟨speexText, rfl⟩
        · exact absurd payload (by decide)
        · exact absurd payload (by decide)
        · exact ⟨pcmuText, rfl⟩
      owned := by
        have all : ∀ a ∈ swappedMedia.attr, ∃ pt ∈ swappedPts,
            payloadType a.value = payloadType pt.2 := by decide
        exact fun a listed _ _ => all a listed }
  have renamed := applyAnswerSymmetricPt_renamed renameable
  exact ⟨renamed, renamed.coding (ofChars ['9', '7'], ofChars ['9', '6']) (by decide)⟩

/-- A format and an rtpmap of another number, which is offered for the format. -/
def strayMedia : SdpMedia := { swappedMedia with fmt := [ofChars ['9', '6']] }

/-- Two formats of one number, which have one rtpmap. -/
def aliasMedia : SdpMedia :=
  renamedMedia [ofChars ['9', '6'], ofChars ['0', '9', '6']]
    [{ name := rtpmap, value := ofChars ['9', '6'] ++ 32 :: speexText }]

/-- The numbers of the offer for them. -/
def aliasPts : List (Str × Str) :=
  [(ofChars ['9', '7'], ofChars ['9', '6']), (ofChars ['9', '8'], ofChars ['0', '9', '6'])]

/-- A format whose rtpmap writes its number with a zero in front. -/
def paddedMedia : SdpMedia :=
  renamedMedia [ofChars ['9', '6']]
    [{ name := rtpmap, value := ofChars ['0', '9', '6'] ++ 32 :: speexText }]

set_option maxRecDepth 2000 in
/-- The formats of these answers differ, and so do the numbers of the offer, but the renamed
answers do not say the same. -/
theorem applyAnswerSymmetricPt_not_renamed :
    (Distinct [(ofChars ['9', '7'], ofChars ['9', '6'])] strayMedia ∧
      ¬Renamed [(ofChars ['9', '7'], ofChars ['9', '6'])] strayMedia
        (applyAnswerSymmetricPt [(ofChars ['9', '7'], ofChars ['9', '6'])] strayMedia)) ∧
    (Distinct aliasPts aliasMedia ∧
      ¬Renamed aliasPts aliasMedia (applyAnswerSymmetricPt aliasPts aliasMedia)) ∧
    Distinct [(ofChars ['9', '7'], ofChars ['9', '6'])] paddedMedia ∧
      ¬Renamed [(ofChars ['9', '7'], ofChars ['9', '6'])] paddedMedia
        (applyAnswerSymmetricPt [(ofChars ['9', '7'], ofChars ['9', '6'])] paddedMedia) := by
  refine ⟨⟨?_, fun renamed => ?_⟩, ⟨?_, fun renamed => ?_⟩, ?_, fun renamed => ?_⟩
  · refine ⟨rfl, by decide, by decide, by decide, ?_, by decide⟩
    rintro pt member name (rfl | rfl) <;> revert pt <;> decide
  · exact absurd (renamed.coding _ mem_cons_self) (by decide)
  · refine ⟨rfl, by decide, by decide, by decide, ?_, by decide⟩
    rintro pt member name (rfl | rfl) <;> revert pt <;> decide
  · exact absurd (renamed.coding (ofChars ['9', '8'], ofChars ['0', '9', '6']) (by decide))
      (by decide)
  · refine ⟨rfl, by decide, by decide, by decide, ?_, by decide⟩
    rintro pt member name (rfl | rfl) <;> revert pt <;> decide
  · exact absurd (renamed.coding _ mem_cons_self) (by decide)

end Pjmedia.SdpNeg
