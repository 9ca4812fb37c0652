import Pjproject.SdpNeg.Safety
import Pjproject.SdpNeg.SymmetricPt

/-!
# Agreement of the two sides

The answerer chooses the formats of its answer with `match_offer`, and the offerer keeps the formats
of its offer with `process_m_answer`. On lines in which a codec has one payload type both end with
the same formats in the same order.
-/

namespace Pjmedia.SdpNeg
open List Pj Sdp Heap

/-! ## Choosing the formats of an answer -/

variable {fmts : List Str}

/-- A format that is not a telephone event. -/
def IsMedia (m : SdpMedia) (fmt : Str) : Prop :=
  96 ≤ payloadType fmt → ∀ r ∈ rtpmapOf m fmt, pjStricmpEq r.encName telephoneEvent = false

/-- The master has a format that needs a match. -/
def Matched.Asked (found : Matched) : Prop :=
  found.masterHasCodec = true ∨ found.masterHasOther = true

/-- A match of such a format is a pair of payload types. -/
def Matched.Answered (found : Matched) : Prop :=
  found.foundMatchingCodec = true ∨ found.foundMatchingOther = true → found.pts ≠ []

/-- What a round of the loop of `match_offer` does to its locals. -/
structure Advances (offer capability : SdpMedia) (fmt : Str) (found found' : Matched) : Prop where
  pts : found'.pts = found.pts ∨ ∃ slaveFmt, Matches offer capability (fmt, slaveFmt) ∧
    found'.pts = found.pts ++ [(fmt, slaveFmt)]
  answered : found.Answered → found'.Answered
  asked : found.Asked → found'.Asked
  media : IsMedia offer fmt → found'.Asked

section matching
variable {offer capability : SdpMedia} {fmt : Str} {found found' : Matched}

theorem matchStatic_advances (suited : Suited offer capability) (member : fmt ∈ offer.fmt)
    (digit : pjIsdigit (fmt.headD 0) = true) (static : payloadType fmt < 96) :
    Advances offer capability fmt found (matchStatic .default capability fmt found) := by
  unfold matchStatic
  dsimp only
  split
  · exact ⟨.inl rfl, id, fun _ => .inl rfl, fun _ => .inl rfl⟩
  split
  · exact ⟨.inl rfl, id, fun _ => .inl rfl, fun _ => .inl rfl⟩
  · next slaveFmt hfound =>
    have matched := find?_some hfound
    rw [Bool.and_eq_true, decide_eq_true_eq] at matched
    have listed := mem_of_find?_eq_some hfound
    have equal : slaveFmt = fmt := (suited.capable.decimal _ listed).eq
      (suited.offered.decimal _ member) matched.2 digit matched.1
    rw [equal] at listed ⊢
    refine ⟨.inr ⟨fmt, ⟨listed, .inl ⟨static, rfl⟩⟩, rfl⟩, fun _ _ => ?_, fun _ => .inl rfl,
      fun _ => .inl rfl⟩
    simp

theorem matchOther_advances (digit : pjIsdigit (fmt.headD 0) = false) :
    Advances offer capability fmt found (matchOther .default capability fmt found) := by
  unfold matchOther
  dsimp only
  split
  · exact ⟨.inl rfl, id, fun _ => .inr rfl, fun _ => .inr rfl⟩
  split
  · next listed =>
    have static : payloadType fmt < 96 := by
      rw [payloadType_other digit]
      decide
    refine ⟨.inr ⟨fmt, ⟨listed, .inl ⟨static, rfl⟩⟩, rfl⟩, fun _ _ => ?_, fun _ => .inr rfl,
      fun _ => .inr rfl⟩
    simp
  · exact ⟨.inl rfl, id, fun _ => .inr rfl, fun _ => .inr rfl⟩

section
variable (suited : Suited offer capability) (member : fmt ∈ offer.fmt)
include suited member

/-- A format of the capability with an rtpmap that matches has the codec. -/
theorem findMatching_matches (dynamic : 96 ≤ payloadType fmt) {masterMap : SdpRtpmap}
    (hmaster : masterMap ∈ rtpmapOf offer fmt) {slaveFmt : Str}
    (hfound : findMatching capability masterMap = some slaveFmt) :
    Matches offer capability (fmt, slaveFmt) := by
  have first := find?_some (p := fun slaveFmt =>
    (pjmediaSdpMediaFindAttr2 capability rtpmap slaveFmt).any fun a =>
      rtpmapMatches masterMap (pjmediaSdpAttrGetRtpmap a)) hfound
  obtain ⟨a, hslave, matched⟩ := (Option.any_eq_true _ _).mp first
  have listed := mem_of_find?_eq_some hfound
  have hslave' : pjmediaSdpAttrGetRtpmap a ∈ rtpmapOf capability slaveFmt := by
    rw [rtpmapOf, hslave]
    rfl
  obtain ⟨named, payload⟩ := attrMatches_iff.mp (find?_some hslave)
  have aMember := mem_of_find?_eq_some hslave
  obtain ⟨b, bMember, bNamed, _, equal⟩ := rtpmapOf_eq_some hmaster
  have codec : SameCodec masterMap (pjmediaSdpAttrGetRtpmap a) :=
    (rtpmapMatches_iff (equal ▸ suited.offered.channels b bMember bNamed)
      (suited.capable.channels a aMember named)).mp matched
  have high : 96 ≤ payloadType slaveFmt := by
    by_contra low
    exact suited.static fmt member dynamic masterMap hmaster a aMember named (by omega) codec
  exact ⟨listed, .inr ⟨dynamic, high, masterMap, hmaster, _, hslave', codec⟩⟩

theorem matchDynamic_advances (dynamic : 96 ≤ payloadType fmt)
    (h : matchDynamic .default offer capability fmt found = some found') :
    Advances offer capability fmt found found' := by
  have ⟨a, hmaster, h⟩ := Option.bind_eq_some_iff.mp h
  have hmaster' : pjmediaSdpAttrGetRtpmap a ∈ rtpmapOf offer fmt := by
    rw [rtpmapOf, hmaster]
    rfl
  dsimp only at h
  split at h
  · next telephone =>
    have event : ¬IsMedia offer fmt := by
      intro media
      rw [media dynamic _ hmaster'] at telephone
      contradiction
    split at h
    · cases h
      exact ⟨.inl rfl, id, id, (absurd · event)⟩
    split at h
    · cases h
      exact ⟨.inl rfl, id, id, (absurd · event)⟩
    · next slaveFmt hfound =>
      cases h
      refine ⟨.inr ⟨slaveFmt, findMatching_matches suited member dynamic hmaster' hfound, rfl⟩,
        fun _ _ => ?_, id, (absurd · event)⟩
      simp
  · split at h
    · cases h
      exact ⟨.inl rfl, id, fun _ => .inl rfl, fun _ => .inl rfl⟩
    split at h
    · cases h
      exact ⟨.inl rfl, id, fun _ => .inl rfl, fun _ => .inl rfl⟩
    · next slaveFmt hfound =>
      cases h
      refine ⟨.inr ⟨slaveFmt, findMatching_matches suited member dynamic hmaster' hfound, rfl⟩,
        fun _ _ => ?_, fun _ => .inl rfl, fun _ => .inl rfl⟩
      simp

/-- One round of the loop of `match_offer`. -/
theorem matchFormat_advances (h : matchFormat .default offer capability fmt found = some found') :
    Advances offer capability fmt found found' := by
  unfold matchFormat at h
  split at h
  · next digit =>
    split at h
    · next static =>
      cases h
      exact matchStatic_advances suited member digit static
    · next dynamic => exact matchDynamic_advances suited member (by omega) h
  · next other =>
    cases h
    exact matchOther_advances (by simpa using other)

end

end matching

/-- The loop of `match_offer` chooses formats that match, in the order of the offer. -/
theorem matchFormats_chosen {offer capability : SdpMedia} (suited : Suited offer capability) :
    ∀ {found found' : Matched}, (∀ fmt ∈ fmts, fmt ∈ offer.fmt) →
      matchFormats .default offer capability fmts found = some found' →
      ∃ pts, found'.pts = found.pts ++ pts ∧ (pts.map Prod.fst).Sublist fmts ∧
        (∀ pt ∈ pts, Matches offer capability pt) ∧ (found.Answered → found'.Answered) ∧
        (found.Asked ∨ (∃ fmt ∈ fmts, IsMedia offer fmt) → found'.Asked) := by
  induction fmts with
  | nil =>
    intro found found' _ h
    cases h
    exact ⟨[], by simp, .refl _, by simp, id, fun asked => asked.elim id (by simp)⟩
  | cons fmt fmts ih =>
    intro found found' members h
    have ⟨next, hnext, h⟩ := Option.bind_eq_some_iff.mp h
    have step := matchFormat_advances suited (members fmt (by simp)) hnext
    have ⟨pts, total, sublist, pairs, answered, asked⟩ :=
      ih (fun other member => members other (by simp [member])) h
    have allAsked : found.Asked ∨ (∃ other ∈ fmt :: fmts, IsMedia offer other) →
        found'.Asked := by
      rintro (before | ⟨other, member, media⟩)
      · exact asked (.inl (step.asked before))
      · rcases mem_cons.mp member with rfl | later
        · exact asked (.inl (step.media media))
        · exact asked (.inr ⟨other, later, media⟩)
    rcases step.pts with same | ⟨slaveFmt, matched, added⟩
    · exact ⟨pts, same ▸ total, sublist.cons _, pairs, answered ∘ step.answered, allAsked⟩
    · refine ⟨(fmt, slaveFmt) :: pts, ?_, sublist.cons_cons _, ?_, answered ∘ step.answered,
        allAsked⟩
      · rw [total, added, append_assoc]
        rfl
      · exact forall_mem_cons.mpr ⟨matched, pairs⟩

/-- An active line of the capability answers an active line with chosen formats, at least one. -/
theorem matchOffer_chosen {offer capability answer : SdpMedia} {sdp : SdpSession}
    (suited : Suited offer capability) (media : ∃ fmt ∈ offer.fmt, IsMedia offer fmt)
    (active : offer.port ≠ 0) (active' : capability.port ≠ 0)
    (h : matchOffer .default offer capability sdp = .ok answer) :
    ∃ pts, Chosen offer capability pts ∧ pts ≠ [] ∧ answer = buildAnswer offer capability pts := by
  rw [matchOffer, if_neg active, if_neg active'] at h
  have prefer : Options.default.preferRemoteCodecOrder = true := rfl
  simp only [prefer, if_true] at h
  split at h
  · contradiction
  next found hfound =>
    have ⟨pts, total, sublist, pairs, answered, asked⟩ :=
      matchFormats_chosen suited (fun _ member => member) hfound
    have hpts : found.pts = pts := total
    have hasMedia : found.Asked := asked (.inr media)
    have nonempty : found.Answered := answered (by rintro (codec | other) <;> contradiction)
    split at h
    · contradiction
    split at h
    · contradiction
    next codec other =>
    cases h
    refine ⟨pts, ⟨sublist, pairs⟩, hpts ▸ nonempty ?_, by rw [hpts]⟩
    rcases hasMedia with codecAsked | otherAsked
    · left
      by_contra missing
      exact codec ⟨codecAsked, missing⟩
    · right
      by_contra missing
      exact other ⟨otherAsked, missing⟩

/-! ## Keeping the formats of an offer -/

theorem findIdx_congr {p q : Str → Bool} (h : ∀ fmt ∈ fmts, p fmt = q fmt) :
    fmts.findIdx p = fmts.findIdx q := by
  induction fmts with
  | nil => rfl
  | cons fmt fmts ih =>
    rw [findIdx_cons, findIdx_cons, h fmt (by simp),
      ih fun other member => h other (by simp [member])]

/-- The formats of a list are found in its order. -/
theorem findIdx_pairwise (nodup : fmts.Nodup) :
    fmts.Pairwise fun fmt fmt' => fmts.findIdx (· = fmt) ≤ fmts.findIdx (· = fmt') := by
  induction fmts with
  | nil => exact .nil
  | cons first fmts ih =>
    have ⟨new, later⟩ := nodup_cons.mp nodup
    have shift : ∀ fmt ∈ fmts, (first :: fmts).findIdx (· = fmt) = fmts.findIdx (· = fmt) + 1 := by
      intro fmt member
      simp [findIdx_cons, (ne_of_mem_of_not_mem member new).symm]
    refine pairwise_cons.mpr ⟨fun fmt _ => ?_, ?_⟩
    · simp [findIdx_cons]
    · refine (ih later).imp_of_mem fun {fmt fmt'} member member' before => ?_
      rw [shift fmt member, shift fmt' member']
      omega

/-- The part of a list that is in a list of some of its elements is that list. -/
theorem filter_mem_sublist {fmts' : List Str} (sublist : fmts.Sublist fmts') (nodup : fmts'.Nodup) :
    (fmts'.filter fun fmt => fmt ∈ fmts) = fmts := by
  induction sublist with
  | slnil => rfl
  | cons fmt sublist ih =>
    have ⟨new, later⟩ := nodup_cons.mp nodup
    rw [filter_cons_of_neg (by simpa using fun member => new (sublist.subset member)), ih later]
  | @cons_cons fmts fmts' fmt sublist ih =>
    have ⟨new, later⟩ := nodup_cons.mp nodup
    rw [filter_cons_of_pos (by simp)]
    refine congrArg (fmt :: ·) (Eq.trans (filter_congr fun other member => ?_) (ih later))
    simp [ne_of_mem_of_not_mem member new]

/-- Formats in the order of their priorities stay in it. -/
theorem sortFirst_sorted {first : Str × Nat} {rest : List (Str × Nat)}
    (h : ∀ next ∈ rest, first.2 ≤ next.2) : sortFirst first rest = (first, rest) := by
  induction rest with
  | nil => rfl
  | cons next rest ih =>
    rw [sortFirst, if_neg (Nat.not_lt.mpr (h next (by simp))),
      ih fun other member => h other (by simp [member])]

theorem sortFormats_sorted {formats : List (Str × Nat)}
    (h : formats.Pairwise fun left right => left.2 ≤ right.2) :
    ∀ count, sortFormats count formats = formats := by
  induction formats with
  | nil => intro count; cases count <;> rfl
  | cons first rest ih =>
    have ⟨least, later⟩ := pairwise_cons.mp h
    intro count
    cases count with
    | zero => rfl
    | succ count =>
      rw [sortFormats, sortFirst_sorted least]
      exact congrArg (first :: ·) (ih later count)

section keeping
variable {offer capability : SdpMedia} {pts : List (Str × Str)}

/-- A dynamic format of the offer matches the format of the answer it is itself, if any. -/
theorem Chosen.answers_iff (suited : Suited offer capability)
    (chosen : Chosen offer capability pts) {fmt : Str} (member : fmt ∈ offer.fmt)
    (dynamic : 96 ≤ payloadType fmt) {r : SdpRtpmap} (hr : r ∈ rtpmapOf offer fmt)
    {answered : Str} (hanswered : answered ∈ pts.map Prod.fst) :
    ((pjmediaSdpMediaFindAttr2 (buildAnswer offer capability pts) rtpmap answered).any fun a =>
      rtpmapAnswers r (pjmediaSdpAttrGetRtpmap a)) = true ↔ answered = fmt := by
  obtain ⟨pt, ptMember, rfl⟩ := mem_map.mp hanswered
  have known : ((pjmediaSdpMediaFindAttr2 (buildAnswer offer capability pts) rtpmap pt.1).any
      fun a => rtpmapAnswers r (pjmediaSdpAttrGetRtpmap a)) = true ↔
      ∃ s ∈ rtpmapOf (buildAnswer offer capability pts) pt.1, rtpmapAnswers r s = true := by
    rw [Option.any_eq_true]
    constructor
    · rintro ⟨a, found, matched⟩
      exact ⟨_, by rw [rtpmapOf, found]; rfl, matched⟩
    · rintro ⟨s, hs, matched⟩
      obtain ⟨a, found, rfl⟩ := Option.map_eq_some_iff.mp hs
      exact ⟨a, found, matched⟩
  rw [known]
  by_cases high : 96 ≤ payloadType pt.1
  · obtain ⟨r', hr', s, hs, codec, channel⟩ := chosen.rtpmapOf_dynamic suited ptMember high
    constructor
    · rintro ⟨s', hs', matched⟩
      rw [Option.mem_unique hs' hs] at matched
      have codec' := (rtpmapAnswers_iff channel).mp matched
      exact (suited.codecs fmt member pt.1 (chosen.mem_offer ptMember) dynamic high r hr r' hr'
        (codec'.trans codec.symm)).symm
    · intro same
      have equal : r' = r := Option.mem_unique (same ▸ hr') hr
      exact ⟨s, hs, (rtpmapAnswers_iff channel).mpr (equal ▸ codec)⟩
  · have low : payloadType pt.1 < 96 := by omega
    apply iff_of_false
    · rintro ⟨s, hs, matched⟩
      obtain ⟨a, aMember, named, static, rfl⟩ := chosen.rtpmapOf_static suited low hs
      have channel := suited.capable.channels a aMember named
      exact suited.static fmt member dynamic r hr a aMember named static
        ((rtpmapAnswers_iff channel).mp matched)
    · rintro rfl
      omega

/-- Among the attributes of the offer those that matter here: the rtpmaps of its formats. -/
def KeepsRtpmaps (offer : SdpMedia) (attrs : List SdpAttr) (fmts : List Str) : Prop :=
  ∀ fmt ∈ fmts, 96 ≤ payloadType fmt →
    pjmediaSdpAttrFind attrs rtpmap fmt = pjmediaSdpMediaFindAttr2 offer rtpmap fmt

variable {attrs : List SdpAttr}

/-- The format of the answer that a format of the offer matches is that format. -/
theorem Chosen.findAnswered_eq (suited : Suited offer capability)
    (chosen : Chosen offer capability pts) {fmt : Str} (member : fmt ∈ offer.fmt)
    (mapped : 96 ≤ payloadType fmt → (pjmediaSdpMediaFindAttr2 offer rtpmap fmt).isSome = true)
    (kept : KeepsRtpmaps offer attrs [fmt]) :
    findAnswered (buildAnswer offer capability pts) attrs fmt =
      some ((pts.map Prod.fst).findIdx (· = fmt)) := by
  have listed := chosen.buildAnswer_fmt suited
  unfold findAnswered
  split
  · rw [listed]
  · next dynamic =>
    have high : 96 ≤ payloadType fmt := by omega
    have ⟨a, found⟩ := Option.isSome_iff_exists.mp (mapped high)
    have hr : pjmediaSdpAttrGetRtpmap a ∈ rtpmapOf offer fmt := by
      rw [rtpmapOf, found]
      rfl
    rw [kept fmt (by simp) high, found, listed]
    refine congrArg some (findIdx_congr fun answered hanswered => ?_)
    rw [Bool.eq_iff_iff, decide_eq_true_iff]
    exact chosen.answers_iff suited member high hr hanswered

/-- The removal of the attributes of a format leaves the rtpmaps of the other ones. -/
theorem KeepsRtpmaps.remove {fmt : Str} (regular : Regular offer)
    (members : ∀ other ∈ fmt :: fmts, other ∈ offer.fmt) (new : fmt ∉ fmts)
    (kept : KeepsRtpmaps offer attrs (fmt :: fmts)) :
    KeepsRtpmaps offer (removeFormatAttrs attrs fmt) fmts := by
  have erase : ∀ (name : Str) (attrs : List SdpAttr) {other : Str}, other ∈ fmts →
      96 ≤ payloadType other → pjmediaSdpAttrFind (removeFoundAttr attrs name fmt) rtpmap other =
        pjmediaSdpAttrFind attrs rtpmap other := by
    intro name attrs other member dynamic
    have differ : payloadType other ≠ payloadType fmt := by
      intro same
      have equal := (regular.decimal other (members other (by simp [member]))).eq_of_dynamic
        (regular.decimal fmt (members fmt (by simp))) dynamic same
      exact new (equal ▸ member)
    induction attrs with
    | nil => rfl
    | cons a attrs ih =>
      rw [pjmediaSdpAttrFind, pjmediaSdpAttrFind, removeFoundAttr] at ih ⊢
      rw [eraseP_cons, cond_eq_ite]
      split
      · next matched =>
        rw [find?_cons_of_neg]
        intro matched'
        exact differ ((attrMatches_iff.mp matched').2.symm.trans (attrMatches_iff.mp matched).2)
      · rw [find?_cons, find?_cons, ih]
  intro other member dynamic
  rw [removeFormatAttrs, erase _ _ member dynamic, erase _ _ member dynamic]
  exact kept other (by simp [member]) dynamic

section
variable (suited : Suited offer capability) (chosen : Chosen offer capability pts)
include suited chosen

/-- The loop of `process_m_answer` keeps the formats of the answer, with their indices. -/
theorem Chosen.removeUnanswered_eq
    (mapped : ∀ fmt ∈ offer.fmt, 96 ≤ payloadType fmt →
    (pjmediaSdpMediaFindAttr2 offer rtpmap fmt).isSome = true) :
    ∀ (kept : List (Str × Nat)) (attrs : List SdpAttr), (∀ fmt ∈ fmts, fmt ∈ offer.fmt) →
      fmts.Nodup → KeepsRtpmaps offer attrs fmts →
      ∃ attrs', removeUnanswered (buildAnswer offer capability pts) kept fmts attrs =
        (.success, kept ++ (fmts.filter fun fmt => fmt ∈ pts.map Prod.fst).map fun fmt =>
          (fmt, (pts.map Prod.fst).findIdx (· = fmt)), attrs') := by
  induction fmts with
  | nil => exact fun kept attrs _ _ _ => ⟨attrs, by simp [removeUnanswered]⟩
  | cons fmt fmts ih =>
    intro kept attrs members nodup keeps
    have ⟨new, later⟩ := nodup_cons.mp nodup
    have members' : ∀ other ∈ fmts, other ∈ offer.fmt :=
      fun other member => members other (by simp [member])
    have found := chosen.findAnswered_eq suited (members fmt (by simp))
      (mapped fmt (members fmt (by simp))) fun other member => keeps other (by simp_all)
    rw [removeUnanswered, found, chosen.buildAnswer_fmt suited]
    dsimp only
    by_cases listed : fmt ∈ pts.map Prod.fst
    · have index : (pts.map Prod.fst).findIdx (· = fmt) ≠ (pts.map Prod.fst).length :=
        (findIdx_lt_length.mpr ⟨fmt, listed, by simp⟩).ne
      rw [if_neg index, filter_cons_of_pos (by simpa using listed)]
      have ⟨attrs', removed⟩ := ih (kept ++ [(fmt, (pts.map Prod.fst).findIdx (· = fmt))]) attrs
        members' later fun other member => keeps other (by simp [member])
      exact ⟨attrs', by rw [removed, append_assoc]; rfl⟩
    · have index : (pts.map Prod.fst).findIdx (· = fmt) = (pts.map Prod.fst).length := by
        refine findIdx_eq_length.mpr fun other member => ?_
        simpa using ne_of_mem_of_not_mem member listed
      rw [if_pos index, filter_cons_of_neg (by simpa using listed)]
      exact ih kept _ members' later (keeps.remove suited.offered members new)

/-- The offerer keeps the formats of the answer, in their order. -/
theorem Chosen.processFormats_eq (nonempty : pts ≠ [])
    (mapped : ∀ fmt ∈ offer.fmt, 96 ≤ payloadType fmt →
    (pjmediaSdpMediaFindAttr2 offer rtpmap fmt).isSome = true) :
    ∃ attr' answer', processFormats
        (updateMediaDirection (buildAnswer offer capability pts) offer)
        (buildAnswer offer capability pts) =
      (.success, { updateMediaDirection (buildAnswer offer capability pts) offer with
        fmt := (buildAnswer offer capability pts).fmt, attr := attr' }, answer') := by
  have listed := chosen.buildAnswer_fmt suited
  have ⟨attr', removed⟩ := chosen.removeUnanswered_eq suited mapped []
    (updateMediaDirection (buildAnswer offer capability pts) offer).attr
    (fun _ member => member) suited.offered.nodup
    fun fmt _ _ => find_rtpmap_updateMediaDirection _ offer fmt
  rw [filter_mem_sublist chosen.sublist suited.offered.nodup, nil_append] at removed
  have formats : (pts.map Prod.fst).map (fun fmt =>
      (fmt, (pts.map Prod.fst).findIdx (· = fmt))) ≠ [] := by simpa using nonempty
  have inOrder : ((pts.map Prod.fst).map fun fmt =>
      (fmt, (pts.map Prod.fst).findIdx (· = fmt))).Pairwise fun left right => left.2 ≤ right.2 :=
    pairwise_map.mpr (findIdx_pairwise (suited.offered.nodup.sublist chosen.sublist))
  have names : ((pts.map Prod.fst).map fun fmt =>
      (fmt, (pts.map Prod.fst).findIdx (· = fmt))).map Prod.fst = pts.map Prod.fst := by
    rw [map_map]
    exact map_id _
  unfold processFormats
  rw [updateMediaDirection_fmt, removed]
  dsimp only
  rw [if_neg formats, sortFormats_sorted inOrder, names, listed]
  exact ⟨attr', _, rfl⟩

end

end keeping

/-! ## Lines -/

variable {om : SdpMedia}

variable {initial : SdpSession}

/-- The two sides agree on a line: it is active on both or on none, and if it is active they have
the same formats in the same order. -/
def LineAgrees (localMedia answer : SdpMedia) : Prop :=
  (localMedia.port = 0 ↔ answer.port = 0) ∧
    (answer.port ≠ 0 → localMedia.fmt = answer.fmt)

instance (localMedia answer : SdpMedia) : Decidable (LineAgrees localMedia answer) :=
  inferInstanceAs (Decidable (_ ∧ _))

/-- The line of the answer for an offered line. -/
def Answered (initial : SdpSession) (om am : SdpMedia) : Prop :=
  am = sdpMediaCloneDeactivate om om initial ∨
    ∃ im ∈ initial.media, om.media = im.media ∧ om.transport = im.transport ∧
      matchOffer .default om im initial = .ok am

/-- Sessions whose lines are suited to each other, where each active line of the offer has a format
other than a telephone event. -/
structure SuitedSessions (offer capability : SdpSession) : Prop where
  lines : ∀ om ∈ offer.media, om.port ≠ 0 → ∀ im ∈ capability.media, im.port ≠ 0 →
    om.media = im.media → om.transport = im.transport → Suited om im
  media : ∀ om ∈ offer.media, om.port ≠ 0 → ∃ fmt ∈ om.fmt, IsMedia om fmt

theorem sdpMediaCloneDeactivate_line (remMed localMed : SdpMedia) (sdp : SdpSession) :
    (sdpMediaCloneDeactivate remMed localMed sdp).port = 0 ∧
      (sdpMediaCloneDeactivate remMed localMed sdp).media = remMed.media ∧
      (sdpMediaCloneDeactivate remMed localMed sdp).transport = remMed.transport := by
  unfold sdpMediaCloneDeactivate
  dsimp only
  split <;> exact ⟨rfl, rfl, rfl⟩

theorem updateMediaDirection_line (remote m : SdpMedia) :
    (updateMediaDirection remote m).port = m.port ∧
      (updateMediaDirection remote m).media = m.media ∧
      (updateMediaDirection remote m).transport = m.transport := by
  unfold updateMediaDirection
  dsimp only
  split <;> exact ⟨rfl, rfl, rfl⟩

theorem pjmediaSdpTransportCmp_self (transport : Str) :
    pjmediaSdpTransportCmp transport transport = true := by
  simp [pjmediaSdpTransportCmp, pjStricmpEq]

/-- The line of an answer that is rejected is rejected by the offerer too. -/
theorem processMAnswer_rejected {am : SdpMedia} (media : am.media = om.media)
    (transport : am.transport = om.transport) (rejected : am.port = 0) :
    processMAnswer om am false = (.success, pjmediaSdpMediaDeactivate om, am) := by
  rw [processMAnswer, if_neg (by simpa using media), transport, pjmediaSdpTransportCmp_self,
    if_neg (by simp), if_pos rejected]

/-- The offerer agrees with the answerer on a line. -/
theorem processMAnswer_agrees {offer : SdpSession} (suited : SuitedSessions offer initial)
    {am : SdpMedia} (member : om ∈ offer.media)
    (mapped : om.port ≠ 0 → ∀ fmt ∈ om.fmt, 96 ≤ payloadType fmt →
      (pjmediaSdpMediaFindAttr2 om rtpmap fmt).isSome = true) (h : Answered initial om am) :
    ∃ om' am', processMAnswer om am false = (.success, om', am') ∧ LineAgrees om' am := by
  have reject : am.media = om.media → am.transport = om.transport → am.port = 0 →
      ∃ om' am', processMAnswer om am false = (.success, om', am') ∧ LineAgrees om' am :=
    fun media transport rejected =>
      ⟨_, _, processMAnswer_rejected media transport rejected, iff_of_true rfl rejected,
        fun active => absurd rejected active⟩
  rcases h with rfl | ⟨im, imMember, media, transport, matched⟩
  · have ⟨port, media, transport⟩ := sdpMediaCloneDeactivate_line om om initial
    exact reject media transport port
  by_cases inactive : om.port = 0
  · rw [matchOffer, if_pos inactive] at matched
    cases matched
    have ⟨port, media, transport⟩ := sdpMediaCloneDeactivate_line om im initial
    exact reject media transport port
  by_cases unwilling : im.port = 0
  · rw [matchOffer, if_neg inactive, if_pos unwilling] at matched
    cases matched
    exact reject media.symm transport.symm unwilling
  have fit := suited.lines om member inactive im imMember unwilling media transport
  obtain ⟨pts, chosen, nonempty, rfl⟩ := matchOffer_chosen fit (suited.media om member inactive)
    inactive unwilling matched
  have line : (buildAnswer om im pts).port = im.port ∧
      (buildAnswer om im pts).media = im.media ∧
      (buildAnswer om im pts).transport = im.transport :=
    updateMediaDirection_line om _
  have ⟨port, media', transport'⟩ := line
  have ⟨attr', answer', processed⟩ :=
    chosen.processFormats_eq fit nonempty (mapped inactive)
  have kept := (updateMediaDirection_line (buildAnswer om im pts) om).1
  have compared : processMAnswer om (buildAnswer om im pts) false =
      processFormats (updateMediaDirection (buildAnswer om im pts) om)
        (buildAnswer om im pts) := by
    rw [processMAnswer, if_neg (by simp [media', media]), transport', ← transport,
      pjmediaSdpTransportCmp_self, if_neg (by simp), if_neg (by rwa [port]), if_neg inactive]
    rfl
  exact ⟨_, _, compared.trans processed, iff_of_false (by rwa [kept]) (by rwa [port]),
    fun _ => rfl⟩

/-! ## Sessions -/

theorem findAnswerMedia_some {used : List Nat} {media : List SdpMedia} :
    ∀ {j : Nat} {status : Status} {k : Nat} {am : SdpMedia},
      (findAnswerMedia .default initial used om j media status).1 = some (k, am) →
      ∃ im ∈ media, om.media = im.media ∧ om.transport = im.transport ∧
        matchOffer .default om im initial = .ok am := by
  induction media with
  | nil => intro j status k am h; contradiction
  | cons im rest ih =>
    intro j status k am h
    rw [findAnswerMedia] at h
    split at h
    · next same =>
      split at h
      · next answer matched =>
        cases h
        exact ⟨im, by simp, same.1, same.2.1, matched⟩
      · have ⟨other, member, found⟩ := ih h
        exact ⟨other, by simp [member], found⟩
    · have ⟨other, member, found⟩ := ih h
      exact ⟨other, by simp [member], found⟩

/-- Each line of the offer is answered with one line. -/
theorem answerMedia_answered {offer : List SdpMedia} :
    ∀ (used : List Nat) (status : Status),
      List.Forall₂ (Answered initial) offer
        (answerMedia .default initial offer used status).1 := by
  induction offer with
  | nil => exact fun _ _ => .nil
  | cons om rest ih =>
    intro used status
    rw [answerMedia]
    generalize search : findAnswerMedia .default initial used om 0 initial.media status = found
    have ⟨found, status'⟩ := found
    cases found with
    | none => exact .cons (.inl rfl) (ih _ _)
    | some answered =>
      have ⟨k, am⟩ := answered
      have first : (findAnswerMedia .default initial used om 0 initial.media status).1 =
          some (k, am) := by rw [search]
      exact .cons (.inr (findAnswerMedia_some first)) (ih _ _)

theorem processMedia_agrees {sdp : SdpSession} {offer answer : List SdpMedia}
    (h : List.Forall₂ (fun om am => ∃ om' am',
      processMAnswer om am false = (.success, om', am') ∧ LineAgrees om' am) offer answer) :
    (processMedia sdp false offer answer).status = .success ∧
      List.Forall₂ LineAgrees (processMedia sdp false offer answer).offer answer ∧
      ((∃ am ∈ answer, am.port ≠ 0) → (processMedia sdp false offer answer).hasActive = true) := by
  induction h with
  | nil => exact ⟨rfl, .nil, by simp⟩
  | @cons om am offer answer line later ih =>
    have ⟨om', am', processed, agrees⟩ := line
    have ⟨success, lines, active⟩ := ih
    rw [processMedia, processed]
    dsimp only [Processed.cons]
    refine ⟨success, .cons agrees lines, ?_⟩
    rintro ⟨other, member, port⟩
    rcases mem_cons.mp member with rfl | member
    · have open' : om'.port ≠ 0 := fun closed => port (agrees.1.mp closed)
      simp [open']
    · simp [active ⟨other, member, port⟩]

theorem firstFailure_mem {statuses : List Status} (h : firstFailure statuses = .success) :
    ∀ status ∈ statuses, status = .success := by
  induction statuses with
  | nil => simp
  | cons status rest ih =>
    rw [firstFailure] at h
    split at h
    · next success => exact forall_mem_cons.mpr ⟨success, ih h⟩
    · next failure => exact absurd h failure

/-- A valid session has an rtpmap for each dynamic format of an active line. -/
theorem pjmediaSdpValidate_rtpmap {sdp : SdpSession} (h : pjmediaSdpValidate sdp = .success)
    {m : SdpMedia} (member : m ∈ sdp.media) (active : m.port ≠ 0) {fmt : Str} (listed : fmt ∈ m.fmt)
    (dynamic : 96 ≤ payloadType fmt) :
    (pjmediaSdpMediaFindAttr2 m rtpmap fmt).isSome = true := by
  have line : validateMedia sdp true m = .success :=
    firstFailure_mem h _ (mem_append_right _ (mem_map_of_mem member))
  have format : validateFormat m fmt = .success :=
    firstFailure_mem line _ (mem_append_right _ (mem_map_of_mem listed))
  have number : 96 ≤ pjStrtoul fmt := dynamic.trans (Nat.mod_le _ _)
  rw [validateFormat, if_pos (pjIsdigit_of_dynamic dynamic), if_pos ⟨active, number⟩] at format
  have last := firstFailure_mem format _ (mem_cons_of_mem _ (mem_singleton_self _))
  unfold check at last
  split at last
  · next present => exact present
  · contradiction

/-- The offerer agrees with the answer to its offer. -/
theorem processAnswer_agrees {offer capability answer : SdpSession}
    (suited : SuitedSessions offer capability) (valid : pjmediaSdpValidate offer = .success)
    (answered : List.Forall₂ (Answered capability) offer.media answer.media)
    (active : ∃ m ∈ answer.media, m.port ≠ 0) :
    (processAnswer offer answer false).1 = .success ∧
      List.Forall₂ LineAgrees (processAnswer offer answer false).2.1.media answer.media := by
  have lines : List.Forall₂ (fun om am => ∃ om' am',
      processMAnswer om am false = (.success, om', am') ∧ LineAgrees om' am)
      offer.media answer.media := by
    refine List.forall₂_iff_zip.mpr ⟨answered.length_eq, fun {om am} member => ?_⟩
    have line := (List.forall₂_iff_zip.mp answered).2 member
    have offered := (of_mem_zip member).1
    exact processMAnswer_agrees suited offered
      (fun active fmt listed dynamic =>
        pjmediaSdpValidate_rtpmap valid offered active listed dynamic) line
  have ⟨success, agrees, hasActive⟩ := @processMedia_agrees offer _ _ lines
  refine ⟨?_, agrees⟩
  rw [processAnswer]
  rw [if_neg (by simp [success]), if_pos (hasActive active)]

/-! ## Both sides -/

/-- The agent with the capability answers the offer with `ans`. -/
def Answers (capability offer ans : SdpSession) : Prop :=
  ∃ mem mem' allowAsym, createWRemoteOffer (some capability) offer = .ok mem ∧
    negotiate mem allowAsym = some (mem', { status := .success }) ∧
    read mem'.sessions mem'.neg.activeLocalSdp = some ans

/-- The agent with the offer ends with the session `active` after the answer `ans`. -/
def Completes (offer ans active : SdpSession) : Prop :=
  ∃ mem mem', createWLocalOffer offer = .ok mem ∧
    negotiate (setRemoteAnswer mem ans).1 false = some (mem', { status := .success }) ∧
    read mem'.sessions mem'.neg.activeLocalSdp = some active

/-- An answer that succeeds has a line for each line of a valid offer. -/
theorem Answers.answered {capability offer ans : SdpSession} (h : Answers capability offer ans) :
    pjmediaSdpValidate offer = .success ∧
      List.Forall₂ (Answered capability) offer.media ans.media := by
  have ⟨mem, mem', allowAsym, created, negotiated, hans⟩ := h
  unfold createWRemoteOffer at created
  split at created
  · contradiction
  dsimp only at created
  split at created
  · contradiction
  cases created
  have answer : negotiateLocalAnswer
      { sessions := [offer, capability, capability]
        neg := { Negotiator.zero .waitNego with
          negRemoteSdp := some 0, initialSdp := some 1, negLocalSdp := some 2 } } offer =
      some (mem', { status := .success }) := negotiated
  have local' : read [offer, capability, capability] (some 2) = some capability := rfl
  unfold negotiateLocalAnswer at answer
  rw [local'] at answer
  dsimp only at answer
  split at answer
  · next failure =>
    have ⟨_, report⟩ := Prod.mk.inj (Option.some.inj answer)
    exact absurd (Returned.mk.inj report).1 failure
  next success =>
    have ⟨versioned, _, finished⟩ := Option.map_eq_some_iff.mp answer
    rw [← (Prod.mk.inj finished).1] at hans
    change read (alloc _ _) (fresh _) = some ans at hans
    cases hans
    by_cases valid : pjmediaSdpValidate offer = .success
    · refine ⟨valid, ?_⟩
      rw [createAnswer, if_neg (by simp [valid])]
      exact answerMedia_answered [] .success
    · rw [createAnswer, if_pos valid] at success
      exact absurd (not_not.mp success) valid

/-- The offerer ends with the offer that `process_answer` has changed. -/
theorem Completes.of_processAnswer {offer ans : SdpSession}
    (valid : pjmediaSdpValidate offer = .success)
    (success : (processAnswer offer ans false).1 = .success) :
    Completes offer ans (processAnswer offer ans false).2.1 := by
  have created : createWLocalOffer offer = .ok
      { sessions := [offer, offer]
        neg := { Negotiator.zero .localOffer with initialSdp := some 0, negLocalSdp := some 1 } } :=
    if_neg (by simp [valid])
  let waiting : Memory :=
    { sessions := [offer, offer, ans]
      neg := { Negotiator.zero .waitNego with
        initialSdp := some 0, negLocalSdp := some 1, hasRemoteAnswer := true
        negRemoteSdp := some 2 } }
  have completed : (negotiateRemoteAnswer waiting ans false).2 = { status := .success } ∧
      read (negotiateRemoteAnswer waiting ans false).1.sessions
        (negotiateRemoteAnswer waiting ans false).1.neg.activeLocalSdp =
          some (processAnswer offer ans false).2.1 := by
    have offered : read waiting.sessions waiting.neg.negLocalSdp = some offer := rfl
    unfold negotiateRemoteAnswer
    rw [offered]
    dsimp only
    generalize processAnswer offer ans false = processed at *
    have ⟨status, active, answer⟩ := processed
    cases success
    exact ⟨rfl, rfl⟩
  refine ⟨_, (negotiateRemoteAnswer waiting ans false).1, created, ?_, completed.2⟩
  exact congrArg some (Prod.ext rfl completed.1)

theorem Completes.unique {offer ans active active' : SdpSession} (h : Completes offer ans active)
    (h' : Completes offer ans active') : active = active' := by
  have ⟨mem, last, created, completed, hactive⟩ := h
  have ⟨mem', last', created', completed', hactive'⟩ := h'
  cases Except.ok.inj (created.symm.trans created')
  cases Option.some.inj (completed.symm.trans completed')
  exact Option.some.inj (hactive.symm.trans hactive')

/-- An audio line with dynamic formats of one codec. -/
def speexMedia (fmt : List Str) : SdpMedia :=
  { rtpMedia audio 4000 fmt with
    attr := fmt.map fun fmt =>
      { name := rtpmap
        value := fmt ++ 32 :: ofChars ['s', 'p', 'e', 'e', 'x', '/', '8', '0', '0', '0'] } }

/-- An offer of one codec with two payload types. -/
def speexOffer : SdpSession := rtpSession 1 [speexMedia [ofChars ['9', '6'], ofChars ['9', '7']]]

/-- A capability with the same codec and another payload type. -/
def speexCapability : SdpSession := rtpSession 1 [speexMedia [ofChars ['9', '8']]]

/-- An offer of one codec with one payload type suits the capability. -/
theorem speexSuited :
    SuitedSessions (rtpSession 1 [speexMedia [ofChars ['9', '6']]]) speexCapability := by
  have plain : ∀ pt : Str, pt = ofChars ['9', '6'] ∨ pt = ofChars ['9', '8'] →
      Regular (speexMedia [pt]) ∧ Mapped (speexMedia [pt]) := by
    rintro pt hpt
    have digit : pjIsdigit (pt.headD 0) = true ∧ Decimal pt := by
      rcases hpt with rfl | rfl <;> exact ⟨by decide, fun _ => by decide⟩
    have channel : ∀ a ∈ (speexMedia [pt]).attr,
        isOne (pjmediaSdpAttrGetRtpmap a).param = false := by
      rcases hpt with rfl | rfl <;> decide +kernel
    exact ⟨⟨nodup_singleton pt, forall_mem_singleton.mpr digit.2,
        fun a member _ => channel a member⟩,
      ⟨forall_mem_singleton.mpr fun _ => ⟨pt, mem_singleton_self pt, digit.1, _, rfl⟩,
        pairwise_singleton _ _, by simp [speexMedia, maxSdpAttr, maxSdpFmt]⟩⟩
  constructor
  · refine forall_mem_singleton.mpr fun _ => forall_mem_singleton.mpr fun _ _ _ => ?_
    exact
      { offered := (plain _ (.inl rfl)).1
        capable := (plain _ (.inr rfl)).1
        mapped := (plain _ (.inr rfl)).2
        codecs := by decide +kernel
        static := by decide +kernel }
  · refine forall_mem_singleton.mpr fun _ => ⟨ofChars ['9', '6'], by decide, fun _ => ?_⟩
    decide +kernel

end Pjmedia.SdpNeg
