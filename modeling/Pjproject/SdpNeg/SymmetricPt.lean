import Mathlib.Data.List.Nodup
import Mathlib.Data.List.Pairwise
import Pjproject.SdpNeg.Codec

/-!
# The rtpmaps of an answer

`match_offer` builds the answer from a line of the capability: it moves the chosen formats to the
front, removes the others with their attributes, and gives the chosen ones the payload types of the
offer. Where each format of the capability has one rtpmap at most, and each rtpmap a format, the
rtpmap that the answer has for an offered payload type is the one of the format chosen for it.
-/

namespace Pjmedia.SdpNeg
open List Pj Sdp

/-- The rtpmap of a format. -/
def rtpmapOf (m : SdpMedia) (fmt : Str) : Option SdpRtpmap :=
  (pjmediaSdpMediaFindAttr2 m rtpmap fmt).map pjmediaSdpAttrGetRtpmap

/-- A format that begins with a digit is a number, without leading zeros. -/
def Decimal (fmt : Str) : Prop :=
  pjIsdigit (fmt.headD 0) = true → fmt = pjUtoa (payloadType fmt)

variable {fmt : Str}

/-- A payload type has one spelling. -/
theorem Decimal.eq {fmt' : Str} (h : Decimal fmt) (h' : Decimal fmt')
    (digit : pjIsdigit (fmt.headD 0) = true) (digit' : pjIsdigit (fmt'.headD 0) = true)
    (same : payloadType fmt = payloadType fmt') : fmt = fmt' := by
  rw [h digit, h' digit', same]

theorem Decimal.eq_of_dynamic {fmt' : Str} (h : Decimal fmt) (h' : Decimal fmt')
    (dynamic : 96 ≤ payloadType fmt) (same : payloadType fmt = payloadType fmt') : fmt = fmt' :=
  h.eq h' (pjIsdigit_of_dynamic dynamic) (pjIsdigit_of_dynamic (same ▸ dynamic)) same

theorem Decimal.token (h : Decimal fmt) (digit : pjIsdigit (fmt.headD 0) = true) :
    (∀ byte ∈ fmt, csToken byte = true) ∧ fmt ≠ [] := by
  rw [h digit]
  exact ⟨pjUtoa_token _, pjUtoa_ne_nil _⟩

/-- The rtpmaps of attributes have different payload types. -/
def SingleRtpmaps (attrs : List SdpAttr) : Prop :=
  attrs.Pairwise fun a b => a.name = rtpmap → b.name = rtpmap →
    payloadType a.value ≠ payloadType b.value

/-- Each rtpmap of a line is one of its formats, a space and the codec, and a format has one. -/
structure Mapped (m : SdpMedia) : Prop where
  listed : ∀ a ∈ m.attr, a.name = rtpmap → ∃ fmt ∈ m.fmt, pjIsdigit (fmt.headD 0) = true ∧
    ∃ codec, a.value = fmt ++ 32 :: codec
  single : SingleRtpmaps m.attr
  count : m.attr.length ≤ maxSdpAttr

/-! ## Removing attributes -/

variable {a : SdpAttr} {attrs : List SdpAttr}

theorem attrMatches_iff {name : Str} :
    attrMatches name fmt a = true ↔ a.name = name ∧ payloadType a.value = payloadType fmt := by
  simp [attrMatches]

section
variable (single : SingleRtpmaps attrs)
include single

/-- An rtpmap and its payload type tell which attribute it is. -/
theorem SingleRtpmaps.eq {b : SdpAttr} (ha : a ∈ attrs) (hb : b ∈ attrs) (named : a.name = rtpmap)
    (named' : b.name = rtpmap) (same : payloadType a.value = payloadType b.value) : a = b := by
  have symm : Std.Symm fun a b : SdpAttr => a.name = rtpmap → b.name = rtpmap →
      payloadType a.value ≠ payloadType b.value :=
    ⟨fun _ _ apart named named' => (apart named' named).symm⟩
  by_contra differ
  exact single.forall ha hb differ named named' same

theorem SingleRtpmaps.removeFoundAttr (name fmt : Str) :
    SingleRtpmaps (removeFoundAttr attrs name fmt) :=
  single.sublist eraseP_sublist

/-- The removal of an rtpmap leaves the others. -/
theorem SingleRtpmaps.mem_remove (named : a.name = rtpmap) (fmt : Str) :
    a ∈ Sdp.removeFoundAttr attrs rtpmap fmt ↔
      a ∈ attrs ∧ payloadType a.value ≠ payloadType fmt := by
  induction attrs with
  | nil => simp [Sdp.removeFoundAttr]
  | cons b attrs ih =>
    have ⟨first, later⟩ := pairwise_cons.mp single
    specialize ih later
    rw [Sdp.removeFoundAttr] at ih ⊢
    rw [eraseP_cons, cond_eq_ite]
    split
    · next matched =>
      have ⟨named', payload⟩ := attrMatches_iff.mp matched
      constructor
      · intro member
        exact ⟨mem_cons_of_mem _ member, fun same =>
          first a member named' named (payload.trans same.symm)⟩
      · rintro ⟨member, differ⟩
        rcases mem_cons.mp member with rfl | member
        · exact absurd payload differ
        · exact member
    · next unmatched =>
      rw [mem_cons, mem_cons, ih]
      constructor
      · rintro (rfl | ⟨member, differ⟩)
        · exact ⟨.inl rfl, fun same => unmatched (attrMatches_iff.mpr ⟨named, same⟩)⟩
        · exact ⟨.inr member, differ⟩
      · rintro ⟨rfl | member, differ⟩
        · exact .inl rfl
        · exact .inr ⟨member, differ⟩

end

/-- The removal of an `fmtp` leaves the rtpmaps. -/
theorem mem_removeFoundAttr_fmtp (named : a.name = rtpmap) (fmt : Str) :
    a ∈ removeFoundAttr attrs fmtp fmt ↔ a ∈ attrs := by
  have other : ¬attrMatches fmtp fmt a = true := by
    intro matched
    have equal : rtpmap = fmtp := named.symm.trans (attrMatches_iff.mp matched).1
    exact absurd equal (by decide)
  exact mem_eraseP_of_neg other

/-- The removal of formats leaves the rtpmaps of the others. -/
theorem SingleRtpmaps.mem_removeFormats {fmts : List Str} :
    ∀ {attrs : List SdpAttr}, SingleRtpmaps attrs → ∀ {a : SdpAttr}, a.name = rtpmap →
      (a ∈ fmts.foldl removeFormatAttrs attrs ↔
        a ∈ attrs ∧ ∀ fmt ∈ fmts, payloadType a.value ≠ payloadType fmt) := by
  induction fmts with
  | nil => simp
  | cons fmt fmts ih =>
    intro attrs single a named
    have removed : SingleRtpmaps (removeFormatAttrs attrs fmt) :=
      (single.removeFoundAttr rtpmap fmt).removeFoundAttr fmtp fmt
    have step : a ∈ removeFormatAttrs attrs fmt ↔
        a ∈ attrs ∧ payloadType a.value ≠ payloadType fmt :=
      (mem_removeFoundAttr_fmtp named fmt).trans (single.mem_remove named fmt)
    rw [foldl_cons, ih removed named, step, forall_mem_cons, and_assoc]

theorem foldl_removeFormatAttrs_sublist (fmts : List Str) :
    ∀ attrs : List SdpAttr, (fmts.foldl removeFormatAttrs attrs).Sublist attrs := by
  induction fmts with
  | nil => exact fun attrs => .refl attrs
  | cons fmt fmts ih =>
    intro attrs
    have first : (removeFormatAttrs attrs fmt).Sublist attrs :=
      eraseP_sublist.trans eraseP_sublist
    exact (ih _).trans first

/-! ## Rewriting payload types -/

variable {state : Rewritten}

/-- An attribute that begins with the old payload type begins with the new one. -/
theorem rewritePt_append (oldPt newPt text : Str) :
    rewritePt (oldPt ++ text) oldPt newPt = newPt ++ text := by
  rw [rewritePt, drop_left, take_of_length_le]
  simp only [length_append]
  omega

/-- The attribute `a` after the update of a payload type. -/
def rewrittenAttr (a : SdpAttr) (pt : Str × Str) : SdpAttr :=
  { a with value := rewritePt a.value pt.2 pt.1 }

/-- An rtpmap is rewritten if its payload type is that of the answer, and others are not. -/
theorem rewriteAttr_rtpmap (single : SingleRtpmaps state.attr) (named : a.name = rtpmap)
    (pt : Str × Str) :
    (a ∈ (rewriteAttr rtpmap pt.2 pt.1 state).attr ↔
      a ∈ state.attr ∧ payloadType a.value ≠ payloadType pt.2) ∧
    (a ∈ (rewriteAttr rtpmap pt.2 pt.1 state).tmp ↔ a ∈ state.tmp ∨
      ∃ b ∈ state.attr, b.name = rtpmap ∧ payloadType b.value = payloadType pt.2 ∧
        a = rewrittenAttr b pt) := by
  unfold rewriteAttr
  split
  · next missing =>
    have unmatched : ∀ b ∈ state.attr, b.name = rtpmap →
        payloadType b.value ≠ payloadType pt.2 := by
      intro b member named same
      exact absurd (attrMatches_iff.mpr ⟨named, same⟩) (find?_eq_none.mp missing b member)
    constructor
    · exact ⟨fun member => ⟨member, unmatched a member named⟩, And.left⟩
    · refine ⟨.inl, ?_⟩
      rintro (member | ⟨b, member, named, same, _⟩)
      · exact member
      · exact absurd same (unmatched b member named)
  · next found hfound =>
    have ⟨named', payload⟩ := attrMatches_iff.mp (find?_some hfound)
    have member := mem_of_find?_eq_some hfound
    refine ⟨single.mem_remove named pt.2, ?_⟩
    rw [mem_append, mem_singleton]
    refine or_congr_right ⟨fun equal => ⟨found, member, named', payload, equal⟩, ?_⟩
    rintro ⟨b, member', named'', same, equal⟩
    rw [single.eq member' member named'' named' (same.trans payload.symm)] at equal
    exact equal

/-- The update of an `fmtp` leaves the rtpmaps. -/
theorem rewriteAttr_fmtp (named : a.name = rtpmap) (pt : Str × Str) (state : Rewritten) :
    (a ∈ (rewriteAttr fmtp pt.2 pt.1 state).attr ↔ a ∈ state.attr) ∧
    (a ∈ (rewriteAttr fmtp pt.2 pt.1 state).tmp ↔ a ∈ state.tmp) := by
  unfold rewriteAttr
  split
  · exact ⟨.rfl, .rfl⟩
  · next found hfound =>
    refine ⟨mem_removeFoundAttr_fmtp named pt.2, ?_⟩
    rw [mem_append, mem_singleton]
    refine or_iff_left fun equal => ?_
    have other : a.name = fmtp := by
      rw [equal]
      exact (attrMatches_iff.mp (find?_some hfound)).1
    exact absurd (named.symm.trans other) (by decide)

theorem rewriteAttr_attr_sublist (name ptAnswer ptOffer : Str) (state : Rewritten) :
    (rewriteAttr name ptAnswer ptOffer state).attr.Sublist state.attr := by
  unfold rewriteAttr
  split
  · exact .refl _
  · exact eraseP_sublist

/-- An attribute that is taken out is kept in `a_tmp`. -/
theorem rewriteAttr_length (name ptAnswer ptOffer : Str) (state : Rewritten) :
    (rewriteAttr name ptAnswer ptOffer state).attr.length +
      (rewriteAttr name ptAnswer ptOffer state).tmp.length =
        state.attr.length + state.tmp.length := by
  unfold rewriteAttr
  split
  · rfl
  · next found hfound =>
    have member := mem_of_find?_eq_some hfound
    have removed : (removeFoundAttr state.attr name ptAnswer).length = state.attr.length - 1 :=
      length_eraseP_of_mem member (find?_some hfound)
    have positive := length_pos_of_mem member
    rw [removed, length_append, length_singleton]
    omega

/-- One round of `apply_answer_symmetric_pt`. -/
theorem rewriteFormat_rtpmap (single : SingleRtpmaps state.attr) (named : a.name = rtpmap)
    (pt : Str × Str) :
    (a ∈ (rewriteFormat state pt).attr ↔
      a ∈ state.attr ∧ (pt.2 ≠ pt.1 → payloadType a.value ≠ payloadType pt.2)) ∧
    (a ∈ (rewriteFormat state pt).tmp ↔ a ∈ state.tmp ∨ pt.2 ≠ pt.1 ∧
      ∃ b ∈ state.attr, b.name = rtpmap ∧ payloadType b.value = payloadType pt.2 ∧
        a = rewrittenAttr b pt) := by
  unfold rewriteFormat
  split
  · next equal => simp [equal]
  · next differ =>
    have ⟨attr, tmp⟩ := rewriteAttr_rtpmap single named pt
    have ⟨attr', tmp'⟩ := rewriteAttr_fmtp named pt (rewriteAttr rtpmap pt.2 pt.1 state)
    rw [attr', attr, tmp', tmp]
    simp [differ]

theorem rewriteFormat_attr_sublist (state : Rewritten) (pt : Str × Str) :
    (rewriteFormat state pt).attr.Sublist state.attr := by
  unfold rewriteFormat
  split
  · exact .refl _
  · exact (rewriteAttr_attr_sublist ..).trans (rewriteAttr_attr_sublist ..)

theorem foldl_rewriteFormat_length (pts : List (Str × Str)) :
    ∀ state : Rewritten, (pts.foldl rewriteFormat state).attr.length +
      (pts.foldl rewriteFormat state).tmp.length = state.attr.length + state.tmp.length := by
  induction pts with
  | nil => exact fun _ => rfl
  | cons pt pts ih =>
    intro state
    rw [foldl_cons, ih]
    unfold rewriteFormat
    split
    · rfl
    · rw [rewriteAttr_length, rewriteAttr_length]

/-- The loop of `apply_answer_symmetric_pt`, on formats that differ in their payload types if
they are rewritten. -/
theorem foldl_rewriteFormat {pts : List (Str × Str)} :
    ∀ {state : Rewritten}, SingleRtpmaps state.attr →
      (pts.Pairwise fun pt pt' => pt.2 ≠ pt.1 → pt'.2 ≠ pt'.1 →
        payloadType pt.2 ≠ payloadType pt'.2) →
      ∀ {a : SdpAttr}, a.name = rtpmap →
        (a ∈ (pts.foldl rewriteFormat state).attr ↔ a ∈ state.attr ∧
          ∀ pt ∈ pts, pt.2 ≠ pt.1 → payloadType a.value ≠ payloadType pt.2) ∧
        (a ∈ (pts.foldl rewriteFormat state).tmp ↔ a ∈ state.tmp ∨ ∃ pt ∈ pts, pt.2 ≠ pt.1 ∧
          ∃ b ∈ state.attr, b.name = rtpmap ∧ payloadType b.value = payloadType pt.2 ∧
            a = rewrittenAttr b pt) := by
  induction pts with
  | nil => simp
  | cons pt pts ih =>
    intro state single apart a named
    have ⟨first, later⟩ := pairwise_cons.mp apart
    have ⟨attr, tmp⟩ := ih (single.sublist (rewriteFormat_attr_sublist state pt)) later named
    have ⟨attr', tmp'⟩ := rewriteFormat_rtpmap single named pt
    rw [foldl_cons, attr, tmp, attr', tmp']
    constructor
    · rw [forall_mem_cons, and_assoc]
    · rw [or_assoc, exists_mem_cons_iff]
      refine or_congr_right (or_congr_right (exists_congr fun pt' => ?_))
      refine and_congr_right fun member => and_congr_right fun differ => exists_congr fun b => ?_
      -- An earlier round does not take the rtpmap of a later one.
      constructor
      · rintro ⟨kept, named', same, equal⟩
        exact ⟨((rewriteFormat_rtpmap single named' pt).1.mp kept).1, named', same, equal⟩
      · rintro ⟨present, named', same, equal⟩
        refine ⟨(rewriteFormat_rtpmap single named' pt).1.mpr ⟨present, fun rewritten => ?_⟩,
          named', same, equal⟩
        rw [same]
        exact (first pt' member rewritten differ).symm

/-! ## Choosing formats -/

/-- A format after those in place is swapped to the front. -/
theorem swapFormats_front (done : List Str) {left : List Str} {pt : Str} (member : pt ∈ left) :
    ∃ later, swapFormats (done ++ left) done.length (done.length + left.findIdx (· = pt)) =
      done ++ pt :: later ∧ (pt :: later).Perm left := by
  obtain ⟨before, after, rfl, notBefore⟩ := eq_append_cons_of_mem member
  have index : (before ++ pt :: after).findIdx (· = pt) = before.length := by
    rw [findIdx_append, findIdx_eq_length.mpr]
    · simp [findIdx_cons]
    · intro other otherMem
      simpa using ne_of_mem_of_not_mem otherMem notBefore
  rw [index]
  have set : ∀ (front back : List Str) (old new : Str),
      (front ++ old :: back).set front.length new = front ++ new :: back := by simp
  cases before with
  | nil => exact ⟨after, by simp [swapFormats], .refl _⟩
  | cons first before =>
    refine ⟨before ++ first :: after, ?_, ?_⟩
    · have second := set (done ++ pt :: before) after pt first
      simp only [append_assoc, cons_append, length_append, length_cons]
        at second ⊢
      simp [swapFormats, second]
    · calc
        (pt :: (before ++ first :: after)).Perm (pt :: first :: (before ++ after)) :=
          perm_middle.cons pt
        List.Perm _ (first :: pt :: (before ++ after)) := .swap ..
        List.Perm _ (first :: (before ++ pt :: after)) := perm_middle.symm.cons first

/-- Different formats are moved to the front in their order. -/
theorem arrangeFormats_front {pts : List Str} :
    ∀ (done : List Str) {left : List Str}, pts.Nodup → (∀ pt ∈ pts, pt ∈ left) →
      ∃ others, arrangeFormats (done ++ left) done.length pts = done ++ (pts ++ others) ∧
        (pts ++ others).Perm left := by
  induction pts with
  | nil => exact fun done left _ _ => ⟨left, rfl, .refl _⟩
  | cons pt pts ih =>
    intro done left nodup members
    have ⟨new, later⟩ := nodup_cons.mp nodup
    have ⟨left', swapped, perm⟩ := swapFormats_front done (members pt (by simp))
    have members' : ∀ other ∈ pts, other ∈ left' := by
      intro other member
      have present := perm.mem_iff.mpr (members other (by simp [member]))
      exact mem_of_ne_of_mem (ne_of_mem_of_not_mem member new) present
    have ⟨others, arranged, perm'⟩ := ih (done ++ [pt]) later members'
    refine ⟨others, ?_, (perm'.cons pt).trans perm⟩
    rw [arrangeFormats, drop_left, swapped]
    simpa using arranged

/-- A line that lists its formats once each, spells its payload types in decimal, and leaves out
the channel count of one. -/
structure Regular (m : SdpMedia) : Prop where
  nodup : m.fmt.Nodup
  decimal : ∀ fmt ∈ m.fmt, Decimal fmt
  channels : ∀ a ∈ m.attr, a.name = rtpmap → isOne (pjmediaSdpAttrGetRtpmap a).param = false

/-- An offered line and a line of the capability in which a codec has one payload type: the
dynamic formats of the offer have different codecs, and none has the codec of an rtpmap that the
capability has for a static payload type. -/
structure Suited (offer capability : SdpMedia) : Prop where
  offered : Regular offer
  capable : Regular capability
  mapped : Mapped capability
  codecs : ∀ fmt ∈ offer.fmt, ∀ fmt' ∈ offer.fmt, 96 ≤ payloadType fmt →
    96 ≤ payloadType fmt' → ∀ r ∈ rtpmapOf offer fmt, ∀ r' ∈ rtpmapOf offer fmt',
      SameCodec r r' → fmt = fmt'
  static : ∀ fmt ∈ offer.fmt, 96 ≤ payloadType fmt → ∀ r ∈ rtpmapOf offer fmt,
    ∀ a ∈ capability.attr, a.name = rtpmap → payloadType a.value < 96 →
      ¬SameCodec r (pjmediaSdpAttrGetRtpmap a)

/-- A format of the offer and a format of the capability match. -/
def Matches (offer capability : SdpMedia) (pt : Str × Str) : Prop :=
  pt.2 ∈ capability.fmt ∧
    (payloadType pt.1 < 96 ∧ pt.2 = pt.1 ∨
      96 ≤ payloadType pt.1 ∧ 96 ≤ payloadType pt.2 ∧
        ∃ r ∈ rtpmapOf offer pt.1, ∃ r' ∈ rtpmapOf capability pt.2, SameCodec r r')

/-- Formats of the offer, in its order, that match formats of the capability. -/
structure Chosen (offer capability : SdpMedia) (pts : List (Str × Str)) : Prop where
  sublist : (pts.map Prod.fst).Sublist offer.fmt
  pairs : ∀ pt ∈ pts, Matches offer capability pt

section Chosen
variable {offer capability : SdpMedia} {pts : List (Str × Str)}

variable {pt : Str × Str}

theorem Chosen.mem_offer (chosen : Chosen offer capability pts) (member : pt ∈ pts) :
    pt.1 ∈ offer.fmt :=
  chosen.sublist.subset (mem_map_of_mem member)

section
variable (suited : Suited offer capability) (chosen : Chosen offer capability pts)
include suited chosen

theorem Chosen.eq_of_fst {pt' : Str × Str} (member : pt ∈ pts) (member' : pt' ∈ pts)
    (same : pt.1 = pt'.1) : pt = pt' :=
  inj_on_of_nodup_map (suited.offered.nodup.sublist chosen.sublist) member member' same

/-- A format of the capability is chosen for one format of the offer. -/
theorem Chosen.eq_of_snd {pt' : Str × Str} (member : pt ∈ pts) (member' : pt' ∈ pts)
    (same : pt.2 = pt'.2) : pt = pt' := by
  apply chosen.eq_of_fst suited member member'
  obtain ⟨_, ⟨low, kept⟩ | ⟨high, high2, r, hr, s, hs, codec⟩⟩ := chosen.pairs pt member
  · obtain ⟨_, ⟨low', kept'⟩ | ⟨high', high2', _⟩⟩ := chosen.pairs pt' member'
    · rw [← kept, ← kept', same]
    · rw [← same, kept] at high2'
      omega
  · obtain ⟨_, ⟨low', kept'⟩ | ⟨high', high2', r', hr', s', hs', codec'⟩⟩ :=
      chosen.pairs pt' member'
    · rw [same, kept'] at high2
      omega
    · have found : s = s' := Option.mem_unique hs (same ▸ hs')
      exact suited.codecs _ (chosen.mem_offer member) _ (chosen.mem_offer member') high high' r hr
        r' hr' (codec.trans (found ▸ codec'.symm))

theorem Chosen.nodup_snd : (pts.map Prod.snd).Nodup := by
  have nodup : pts.Nodup := List.Nodup.of_map _ (suited.offered.nodup.sublist chosen.sublist)
  exact nodup.map_on fun _ member _ member' same => chosen.eq_of_snd suited member member' same

end

/-- A format that is rewritten is dynamic on both sides. -/
theorem Matches.dynamic (h : Matches offer capability pt) (differ : pt.2 ≠ pt.1) :
    96 ≤ payloadType pt.1 ∧ 96 ≤ payloadType pt.2 := by
  obtain ⟨_, ⟨_, kept⟩ | ⟨high, high2, _⟩⟩ := h
  · exact absurd kept differ
  · exact ⟨high, high2⟩

/-- The attributes of the answer before the update of the direction. -/
def answerAttr (capability : SdpMedia) (pts : List (Str × Str)) (others : List Str) :
    List SdpAttr :=
  let rewritten :=
    pts.foldl rewriteFormat { attr := others.foldl removeFormatAttrs capability.attr, tmp := [] }
  rewritten.attr ++ rewritten.tmp

section
variable (suited : Suited offer capability) (chosen : Chosen offer capability pts)
include suited chosen

/-- `match_offer` answers with the chosen formats, and leaves out the other ones. -/
theorem Chosen.buildAnswer_eq :
    ∃ others, (pts.map Prod.snd ++ others).Perm capability.fmt ∧
      buildAnswer offer capability pts = updateMediaDirection offer
        { capability with fmt := pts.map Prod.fst, attr := answerAttr capability pts others } := by
  have members : ∀ fmt ∈ pts.map Prod.snd, fmt ∈ capability.fmt := by
    intro fmt member
    obtain ⟨pt, ptMember, rfl⟩ := mem_map.mp member
    exact (chosen.pairs pt ptMember).1
  have ⟨others, arranged, perm⟩ :=
    arrangeFormats_front [] (chosen.nodup_snd suited) members
  refine ⟨others, perm, ?_⟩
  simp only [nil_append, length_nil] at arranged
  have front : (pts.map Prod.snd ++ others).take pts.length = pts.map Prod.snd :=
    take_left' (by simp)
  have back : (pts.map Prod.snd ++ others).drop pts.length = others :=
    drop_left' (by simp)
  have fmt : List.zipWith (fun (fmt : Str) (pt : Str × Str) => if pt.2 = pt.1 then fmt else pt.1)
      (pts.map Prod.snd) pts = pts.map Prod.fst := by
    clear * -
    induction pts with
    | nil => rfl
    | cons pt pts ih =>
      rw [map_cons, zipWith_cons_cons, ih, map_cons]
      split
      · next equal => rw [equal]
      · rfl
  have count := foldl_rewriteFormat_length pts
    { attr := others.foldl removeFormatAttrs capability.attr, tmp := [] }
  have removed := (foldl_removeFormatAttrs_sublist others capability.attr).length_le
  have room := suited.mapped.count
  dsimp only at count
  rw [buildAnswer, arranged, front, back, applyAnswerSymmetricPt, fmt]
  rw [foldl_addAttr (by rw [count, length_nil]; omega)]
  rfl

/-- Formats that are rewritten have different payload types in the capability. -/
theorem Chosen.apart :
    pts.Pairwise fun pt pt' => pt.2 ≠ pt.1 → pt'.2 ≠ pt'.1 →
      payloadType pt.2 ≠ payloadType pt'.2 := by
  have nodup : pts.Nodup := List.Nodup.of_map _ (suited.offered.nodup.sublist chosen.sublist)
  refine nodup.imp_of_mem fun {pt pt'} member member' different differ _ same => ?_
  have dynamic := ((chosen.pairs pt member).dynamic differ).2
  have decimal := suited.capable.decimal _ (chosen.pairs pt member).1
  have decimal' := suited.capable.decimal _ (chosen.pairs pt' member').1
  exact different (chosen.eq_of_snd suited member member'
    (decimal.eq_of_dynamic decimal' dynamic same))

end

section others
variable {others : List Str}

section
variable (suited : Suited offer capability) (chosen : Chosen offer capability pts)
include suited chosen

/-- The rtpmaps of the answer are those of the capability that stay and those rewritten. -/
theorem Chosen.mem_answerAttr (named : a.name = rtpmap) :
    a ∈ answerAttr capability pts others ↔
      (a ∈ capability.attr ∧ (∀ fmt ∈ others, payloadType a.value ≠ payloadType fmt) ∧
        ∀ pt ∈ pts, pt.2 ≠ pt.1 → payloadType a.value ≠ payloadType pt.2) ∨
      ∃ pt ∈ pts, pt.2 ≠ pt.1 ∧ ∃ b ∈ capability.attr, b.name = rtpmap ∧
        (∀ fmt ∈ others, payloadType b.value ≠ payloadType fmt) ∧
        payloadType b.value = payloadType pt.2 ∧ a = rewrittenAttr b pt := by
  have single := suited.mapped.single
  have left : SingleRtpmaps (others.foldl removeFormatAttrs capability.attr) :=
    single.sublist (foldl_removeFormatAttrs_sublist others capability.attr)
  have start : SingleRtpmaps
      (Rewritten.mk (others.foldl removeFormatAttrs capability.attr) []).attr := left
  have ⟨attr, tmp⟩ := foldl_rewriteFormat start (chosen.apart suited) named
  rw [answerAttr, mem_append, attr, tmp, single.mem_removeFormats named, and_assoc]
  simp only [not_mem_nil, false_or]
  refine or_congr_right (exists_congr fun pt => and_congr_right fun _ => and_congr_right fun _ =>
    exists_congr fun b => ?_)
  constructor
  · rintro ⟨present, named', same, equal⟩
    have ⟨member, kept⟩ := (single.mem_removeFormats named').mp present
    exact ⟨member, named', kept, same, equal⟩
  · rintro ⟨member, named', kept, same, equal⟩
    exact ⟨(single.mem_removeFormats named').mpr ⟨member, kept⟩, named', same, equal⟩

section
variable (perm : (pts.map Prod.snd ++ others).Perm capability.fmt)
include perm

/-- An rtpmap of the answer is the one of a chosen format, with the payload type of the offer. -/
theorem Chosen.rtpmap_of_mem (member : a ∈ answerAttr capability pts others)
    (named : a.name = rtpmap) :
    ∃ pt ∈ pts, ∃ codec, a.value = pt.1 ++ 32 :: codec ∧
      { a with value := pt.2 ++ 32 :: codec } ∈ capability.attr := by
  rcases (chosen.mem_answerAttr suited named).mp member with
    ⟨present, notOther, notRewritten⟩ | ⟨pt, ptMember, differ, b, present, bNamed, _, same, rfl⟩
  · have ⟨fmt, listed, _, codec, text⟩ := suited.mapped.listed a present named
    have payload : payloadType a.value = payloadType fmt := by rw [text, payloadType_space]
    rcases mem_append.mp (perm.mem_iff.mpr listed) with chosenFmt | other
    · obtain ⟨pt, ptMember, rfl⟩ := mem_map.mp chosenFmt
      have equal : pt.2 = pt.1 := by
        by_contra differ
        exact notRewritten pt ptMember differ payload
      refine ⟨pt, ptMember, codec, equal ▸ text, ?_⟩
      rw [← text]
      exact present
    · exact absurd payload (notOther fmt other)
  · have ⟨fmt, listed, _, codec, text⟩ := suited.mapped.listed b present bNamed
    have payload : payloadType fmt = payloadType pt.2 := by
      rw [← same, text, payloadType_space]
    have ⟨ptListed, _⟩ := chosen.pairs pt ptMember
    have dynamic := ((chosen.pairs pt ptMember).dynamic differ).2
    have equal : fmt = pt.2 := (suited.capable.decimal _ listed).eq_of_dynamic
      (suited.capable.decimal _ ptListed) (payload ▸ dynamic) payload
    rw [equal] at text
    refine ⟨pt, ptMember, codec, ?_, ?_⟩
    · rw [rewrittenAttr, text, rewritePt_append]
    · rw [rewrittenAttr, ← text]
      exact present

/-- The rtpmap of a chosen dynamic format is in the answer. -/
theorem Chosen.mem_of_rtpmap (ptMember : pt ∈ pts) (dynamic : 96 ≤ payloadType pt.2) {b : SdpAttr}
    (member : b ∈ capability.attr) (named : b.name = rtpmap)
    (payload : payloadType b.value = payloadType pt.2) :
    ∃ a ∈ answerAttr capability pts others, a.name = rtpmap ∧
      payloadType a.value = payloadType pt.1 := by
  have decimal := suited.capable.decimal _ (chosen.pairs pt ptMember).1
  have nodup : (pts.map Prod.snd ++ others).Nodup := perm.nodup_iff.mpr suited.capable.nodup
  have notOther : ∀ fmt ∈ others, payloadType b.value ≠ payloadType fmt := by
    intro fmt other same
    have listed : fmt ∈ capability.fmt := perm.subset (mem_append_right _ other)
    have equal : pt.2 = fmt := decimal.eq_of_dynamic (suited.capable.decimal _ listed) dynamic
      (payload.symm.trans same)
    exact disjoint_of_nodup_append nodup (mem_map_of_mem ptMember) (equal ▸ other)
  by_cases differ : pt.2 = pt.1
  · refine ⟨b, (chosen.mem_answerAttr suited named).mpr (.inl ⟨member, notOther, ?_⟩), named,
      differ ▸ payload⟩
    intro pt' ptMember' rewritten same
    have decimal' := suited.capable.decimal _ (chosen.pairs pt' ptMember').1
    have equal := decimal.eq_of_dynamic decimal' dynamic (payload.symm.trans same)
    rw [← chosen.eq_of_snd suited ptMember ptMember' equal] at rewritten
    exact rewritten differ
  · have ⟨fmt, listed, _, codec, text⟩ := suited.mapped.listed b member named
    have same : payloadType fmt = payloadType pt.2 := by
      rw [← payload, text, payloadType_space]
    have equal : fmt = pt.2 := (suited.capable.decimal _ listed).eq_of_dynamic decimal
      (same ▸ dynamic) same
    rw [equal] at text
    have named' : (rewrittenAttr b pt).name = rtpmap := named
    refine ⟨rewrittenAttr b pt, (chosen.mem_answerAttr suited named').mpr
      (.inr ⟨pt, ptMember, differ, b, member, named, notOther, payload, rfl⟩), named', ?_⟩
    rw [rewrittenAttr, text, rewritePt_append, payloadType_space]

end

end

end others

/-! ## The update of the direction -/

theorem find_rtpmap_removeAllAttr (m : SdpMedia) {name : Str} (other : rtpmap ≠ name) (fmt : Str) :
    pjmediaSdpAttrFind (pjmediaSdpMediaRemoveAllAttr m name).attr rtpmap fmt =
      pjmediaSdpAttrFind m.attr rtpmap fmt := by
  rw [pjmediaSdpAttrFind, pjmediaSdpMediaRemoveAllAttr, find?_filter]
  congr 1
  funext a
  cases matched : attrMatches rtpmap fmt a with
  | false => simp
  | true => simp [(attrMatches_iff.mp matched).1, other]

theorem find_rtpmap_addAttr (attrs : List SdpAttr) {new : SdpAttr} (other : new.name ≠ rtpmap)
    (fmt : Str) :
    pjmediaSdpAttrFind (addAttr attrs new) rtpmap fmt = pjmediaSdpAttrFind attrs rtpmap fmt := by
  rw [addAttr]
  split
  · have unmatched : attrMatches rtpmap fmt new = false := by simp [attrMatches, other]
    simp [pjmediaSdpAttrFind, find?_append, unmatched]
  · rfl

/-- The direction of a line is not in its rtpmaps. -/
theorem find_rtpmap_updateMediaDirection (remote m : SdpMedia) (fmt : Str) :
    pjmediaSdpAttrFind (updateMediaDirection remote m).attr rtpmap fmt =
      pjmediaSdpAttrFind m.attr rtpmap fmt := by
  have removed : pjmediaSdpAttrFind (removeAllMediaDirections m).attr rtpmap fmt =
      pjmediaSdpAttrFind m.attr rtpmap fmt := by
    simp only [removeAllMediaDirections, foldl_cons, foldl_nil]
    rw [find_rtpmap_removeAllAttr _ (by decide), find_rtpmap_removeAllAttr _ (by decide),
      find_rtpmap_removeAllAttr _ (by decide), find_rtpmap_removeAllAttr _ (by decide)]
  unfold updateMediaDirection
  dsimp only
  split
  · rfl
  · generalize answeredDirection remote (mediaDirection m) = dir
    cases dir with
    | none => exact (find_rtpmap_addAttr _ (by decide) fmt).trans removed
    | encoding => exact (find_rtpmap_addAttr _ (by decide) fmt).trans removed
    | decoding => exact (find_rtpmap_addAttr _ (by decide) fmt).trans removed
    | encodingDecoding => exact removed

theorem updateMediaDirection_fmt (remote m : SdpMedia) :
    (updateMediaDirection remote m).fmt = m.fmt := by
  unfold updateMediaDirection
  dsimp only
  split <;> rfl

/-! ## The rtpmaps of the answer -/

theorem rtpmapOf_eq_some {m : SdpMedia} {r : SdpRtpmap} (h : r ∈ rtpmapOf m fmt) :
    ∃ a ∈ m.attr, a.name = rtpmap ∧ payloadType a.value = payloadType fmt ∧
      r = pjmediaSdpAttrGetRtpmap a := by
  obtain ⟨a, found, rfl⟩ := Option.map_eq_some_iff.mp h
  have ⟨named, payload⟩ := attrMatches_iff.mp (find?_some found)
  exact ⟨a, mem_of_find?_eq_some found, named, payload, rfl⟩

section
variable (suited : Suited offer capability) (chosen : Chosen offer capability pts)
include suited chosen

/-- The answer lists the chosen formats of the offer. -/
theorem Chosen.buildAnswer_fmt : (buildAnswer offer capability pts).fmt = pts.map Prod.fst := by
  have ⟨others, _, built⟩ := chosen.buildAnswer_eq suited
  rw [built, updateMediaDirection_fmt]

/-- An rtpmap that the answer has for a static payload type is one of the capability. -/
theorem Chosen.rtpmapOf_static (low : payloadType fmt < 96) {s : SdpRtpmap}
    (h : s ∈ rtpmapOf (buildAnswer offer capability pts) fmt) :
    ∃ a ∈ capability.attr, a.name = rtpmap ∧ payloadType a.value < 96 ∧
      s = pjmediaSdpAttrGetRtpmap a := by
  have ⟨others, perm, built⟩ := chosen.buildAnswer_eq suited
  rw [rtpmapOf, pjmediaSdpMediaFindAttr2, built, find_rtpmap_updateMediaDirection] at h
  obtain ⟨a, member, named, payload, rfl⟩ := rtpmapOf_eq_some h
  have ⟨pt, ptMember, codec, text, present⟩ := chosen.rtpmap_of_mem suited perm member named
  rw [← payload, text, payloadType_space] at low
  have kept : pt.2 = pt.1 := by
    by_contra differ
    have dynamic := ((chosen.pairs pt ptMember).dynamic differ).1
    omega
  rw [kept, ← text] at present
  exact ⟨a, present, named, by rwa [text, payloadType_space], rfl⟩

/-- The answer has the codec of the offer for a dynamic payload type. -/
theorem Chosen.rtpmapOf_dynamic (ptMember : pt ∈ pts) (dynamic : 96 ≤ payloadType pt.1) :
    ∃ r ∈ rtpmapOf offer pt.1, ∃ s ∈ rtpmapOf (buildAnswer offer capability pts) pt.1,
      SameCodec r s ∧ isOne s.param = false := by
  have ⟨others, perm, built⟩ := chosen.buildAnswer_eq suited
  obtain ⟨listed, ⟨low, _⟩ | ⟨_, high, r, hr, r', hr', codec⟩⟩ := chosen.pairs pt ptMember
  · omega
  refine ⟨r, hr, ?_⟩
  obtain ⟨b, bMember, bNamed, bPayload, rfl⟩ := rtpmapOf_eq_some hr'
  have ⟨a, member, named, payload⟩ :=
    chosen.mem_of_rtpmap suited perm ptMember high bMember bNamed bPayload
  have matched : attrMatches rtpmap pt.1 a = true := attrMatches_iff.mpr ⟨named, payload⟩
  have ⟨a', found⟩ := Option.isSome_iff_exists.mp
    (find?_isSome.mpr ⟨a, member, matched⟩)
  have foundAnswer : pjmediaSdpMediaFindAttr2 (buildAnswer offer capability pts) rtpmap pt.1 =
      some a' := by
    rw [pjmediaSdpMediaFindAttr2, built, find_rtpmap_updateMediaDirection]
    exact found
  refine ⟨pjmediaSdpAttrGetRtpmap a', by rw [rtpmapOf, foundAnswer]; rfl, ?_⟩
  -- The rtpmap found in the answer is the one of the capability but for the payload type.
  have ⟨named', payload'⟩ := attrMatches_iff.mp (find?_some found)
  have ⟨pt', ptMember', text, value, present⟩ :=
    chosen.rtpmap_of_mem suited perm (mem_of_find?_eq_some found) named'
  have decimal := suited.offered.decimal _ (chosen.mem_offer ptMember)
  have samePt : pt = pt' := by
    apply chosen.eq_of_fst suited ptMember ptMember'
    have same : payloadType pt.1 = payloadType pt'.1 := by
      rw [← payload', value, payloadType_space]
    exact decimal.eq_of_dynamic (suited.offered.decimal _ (chosen.mem_offer ptMember')) dynamic
      same
  rw [← samePt] at value present
  have sameAttr : { a' with value := pt.2 ++ 32 :: text } = b := by
    apply suited.mapped.single.eq present bMember named' bNamed
    rw [payloadType_space, bPayload]
  have ⟨token, nonempty⟩ := decimal.token (pjIsdigit_of_dynamic dynamic)
  have ⟨token', nonempty'⟩ :=
    (suited.capable.decimal _ listed).token (pjIsdigit_of_dynamic high)
  have rewritten : pjmediaSdpAttrGetRtpmap a' = { pjmediaSdpAttrGetRtpmap b with pt := pt.1 } := by
    rw [← sameAttr]
    have spelled : a' = { a' with value := pt.1 ++ 32 :: text } := by rw [← value]
    rw [spelled]
    exact getRtpmap_space token nonempty token' nonempty' text
  rw [rewritten]
  exact ⟨codec, suited.capable.channels b bMember bNamed⟩

end

end Chosen

end Pjmedia.SdpNeg
