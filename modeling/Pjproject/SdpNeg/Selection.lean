import Pjproject.SdpNeg.Agreement

/-!
# The formats that an answer selects

`match_offer` goes over the formats of the master, which is the offer or the capability as the
options say, and looks up each in the slave. It selects the first codec with a match, or all if
several are allowed, the first telephone event and the first format that is not a number. The
formats it selects in the capability are then moved to the front, where each is searched for among
those that are left.
-/

namespace Pjmedia.SdpNeg
open Option List Pj Sdp

/-- The kinds of formats that `match_offer` counts apart. -/
inductive FormatKind
  | codec
  | telephoneEvent
  | other
deriving DecidableEq, Repr

/-- The kind of a format of the master. -/
def formatKind (master : SdpMedia) (fmt : Str) : FormatKind :=
  if pjIsdigit (fmt.headD 0) then
    if payloadType fmt < 96 then .codec
    else if (rtpmapOf master fmt).any fun r => pjStricmpEq r.encName telephoneEvent then
      .telephoneEvent
    else .codec
  else .other

/-- The payload types in the offer and in the answer of a format of the master, if the slave has
a match. -/
def formatMatch (options : Options) (master slave : SdpMedia) (fmt : Str) : Option (Str × Str) :=
  if pjIsdigit (fmt.headD 0) then
    if payloadType fmt < 96 then
      (slave.fmt.find? fun slaveFmt =>
        payloadType slaveFmt = payloadType fmt && pjIsdigit (slaveFmt.headD 0)).map fun slaveFmt =>
          (slaveFmt, slaveFmt)
    else (rtpmapOf master fmt).bind fun r =>
      (findMatching slave r).map fun slaveFmt => matchedPair options fmt slaveFmt
  else if fmt ∈ slave.fmt then some (matchedPair options fmt fmt) else none

/-- A format of the master is selected after the formats `before` it: it is one of several codecs,
or none of its kind has a match before it. -/
def opensAfter (options : Options) (master slave : SdpMedia) (before : List Str) (fmt : Str) :
    Bool :=
  (options.answerWithMultipleCodecs && formatKind master fmt = .codec) ||
    before.all fun earlier =>
      formatKind master earlier ≠ formatKind master fmt ||
        (formatMatch options master slave earlier).isNone

/-- What is selected for the format of the master at an index. -/
def selectedAt (options : Options) (master slave : SdpMedia) (i : Nat) : Option (Str × Str) :=
  (master.fmt[i]?).bind fun fmt =>
    if opensAfter options master slave (master.fmt.take i) fmt then
      formatMatch options master slave fmt
    else none

/-- A format of a kind has a match among `before`. -/
def hasMatch (options : Options) (master slave : SdpMedia) (before : List Str) (kind : FormatKind) :
    Bool :=
  before.any fun fmt => formatKind master fmt = kind && (formatMatch options master slave fmt).isSome

/-- The flag of a kind. -/
def Matched.found (found : Matched) : FormatKind → Bool
  | .codec => found.foundMatchingCodec
  | .telephoneEvent => found.foundMatchingTelephoneEvent
  | .other => found.foundMatchingOther

section loop
variable {options : Options} {master slave : SdpMedia}

theorem opensAfter_eq (before : List Str) (fmt : Str) :
    opensAfter options master slave before fmt =
      ((options.answerWithMultipleCodecs && formatKind master fmt = .codec) ||
        !hasMatch options master slave before (formatKind master fmt)) := by
  unfold opensAfter hasMatch
  rw [not_any_eq_all_not]
  congr 2
  funext earlier
  cases formatMatch options master slave earlier <;> simp

/-- A round of the loop selects a match of a kind that is still open, and takes down that the kind
has a match. -/
structure Selects (options : Options) (kind : FormatKind) (pair : Option (Str × Str))
    (found found' : Matched) : Prop where
  pts : found'.pts = found.pts ++
    (if (options.answerWithMultipleCodecs && kind = .codec) || !found.found kind then pair
      else none).toList
  flags : ∀ each, found'.found each = (found.found each || (kind = each && pair.isSome))

variable {found found' : Matched}

variable {kind : FormatKind}

/-- The loop goes on without a match. -/
theorem Selects.none (pts : found'.pts = found.pts)
    (flags : ∀ each, found'.found each = found.found each) :
    Selects options kind none found found' := by
  refine ⟨by simp [pts], fun each => ?_⟩
  rw [flags each, isSome_none, Bool.and_false, Bool.or_false]

/-- The loop goes on for a kind that has been found. -/
theorem Selects.closed (pair : Option (Str × Str))
    (single : (options.answerWithMultipleCodecs && kind = .codec) = false)
    (done : found.found kind = true) (pts : found'.pts = found.pts)
    (flags : ∀ each, found'.found each = found.found each) :
    Selects options kind pair found found' := by
  refine ⟨by simp [pts, single, done], fun each => ?_⟩
  rw [flags each]
  by_cases same : kind = each
  · rw [← same, done, Bool.true_or]
  · simp [same]

/-- The loop adds a match. -/
theorem Selects.some {kind : FormatKind} {pair : Str × Str}
    (opened : ((options.answerWithMultipleCodecs && kind = .codec) || !found.found kind) = true)
    (pts : found'.pts = found.pts ++ [pair])
    (flags : ∀ each, found'.found each = (found.found each || kind = each)) :
    Selects options kind (.some pair) found found' := by
  refine ⟨by simp only [pts, opened, if_true, toList_some], fun each => ?_⟩
  rw [flags each, isSome_some, Bool.and_true]

theorem codec_opens
    (opened : ¬(!options.answerWithMultipleCodecs && found.foundMatchingCodec) = true) :
    ((options.answerWithMultipleCodecs && FormatKind.codec = .codec) ||
      !found.found .codec) = true := by
  rw [Matched.found]
  cases several : options.answerWithMultipleCodecs with
  | true => rfl
  | false => simpa [several] using opened

theorem matchStatic_selects (fmt : Str) (found : Matched) :
    Selects options .codec ((slave.fmt.find? fun slaveFmt =>
        payloadType slaveFmt = payloadType fmt && pjIsdigit (slaveFmt.headD 0)).map fun slaveFmt =>
          (slaveFmt, slaveFmt)) found (matchStatic options slave fmt found) := by
  have same : ∀ each, Matched.found { found with masterHasCodec := true } each =
      found.found each := by
    intro each
    cases each <;> rfl
  unfold matchStatic
  dsimp only
  split
  · next closed =>
    have ⟨single, done⟩ := Bool.and_eq_true_iff.mp closed
    exact .closed _ (by simpa using single) done rfl same
  · next opened =>
    split
    · next missing =>
      rw [missing]
      exact .none rfl same
    · next slaveFmt there =>
      rw [there]
      refine .some (codec_opens opened) rfl fun each => ?_
      cases each <;> simp [Matched.found]

theorem matchOther_selects (fmt : Str) (found : Matched) :
    Selects options .other (if fmt ∈ slave.fmt then some (matchedPair options fmt fmt) else none)
      found (matchOther options slave fmt found) := by
  have same : ∀ each, Matched.found { found with masterHasOther := true } each =
      found.found each := by
    intro each
    cases each <;> rfl
  unfold matchOther
  by_cases closed : found.foundMatchingOther = true
  · rw [if_pos closed]
    exact .closed _ (by simp) closed rfl same
  · rw [if_neg closed]
    split
    · refine .some (by simpa [Matched.found] using closed) rfl fun each => ?_
      cases each <;> simp [Matched.found]
    · exact .none rfl same

theorem matchDynamic_selects {fmt : Str} {r : SdpRtpmap} (mapped : rtpmapOf master fmt = some r)
    (round : matchDynamic options master slave fmt found = some found') :
    Selects options (if pjStricmpEq r.encName telephoneEvent then .telephoneEvent else .codec)
      ((findMatching slave r).map fun slaveFmt => matchedPair options fmt slaveFmt)
      found found' := by
  obtain ⟨a, there, rfl⟩ := map_eq_some_iff.mp mapped
  unfold matchDynamic at round
  rw [there] at round
  simp only [bind_eq_bind, bind_some, Option.pure_def] at round
  split at round
  · next event =>
    rw [if_pos event]
    split at round
    · next closed =>
      cases round
      exact .closed _ (by simp) closed rfl fun _ => rfl
    · next opened =>
      split at round
      · next missing =>
        cases round
        rw [missing]
        exact .none rfl fun _ => rfl
      · next slaveFmt matched =>
        cases round
        rw [matched]
        refine .some (by simpa [Matched.found] using opened) rfl fun each => ?_
        cases each <;> simp [Matched.found]
  · next codec =>
    rw [if_neg codec]
    have same : ∀ each, Matched.found { found with masterHasCodec := true } each =
        found.found each := by
      intro each
      cases each <;> rfl
    split at round
    · next closed =>
      cases round
      have ⟨single, done⟩ := Bool.and_eq_true_iff.mp closed
      exact .closed _ (by simpa using single) done rfl same
    · next opened =>
      split at round
      · next missing =>
        cases round
        rw [missing]
        exact .none rfl same
      · next slaveFmt matched =>
        cases round
        rw [matched]
        refine .some (codec_opens opened) rfl fun each => ?_
        cases each <;> simp [Matched.found]

/-- One round of the loop. -/
theorem matchFormat_selects {fmt : Str}
    (round : matchFormat options master slave fmt found = some found') :
    Selects options (formatKind master fmt) (formatMatch options master slave fmt) found found' := by
  unfold matchFormat at round
  unfold formatKind formatMatch
  split at round
  · next digit =>
    rw [if_pos digit, if_pos digit]
    split at round
    · next static =>
      cases round
      rw [if_pos static, if_pos static]
      exact matchStatic_selects fmt found
    · next dynamic =>
      rw [if_neg dynamic, if_neg dynamic]
      cases mapped : rtpmapOf master fmt with
      | none =>
        have missing : pjmediaSdpMediaFindAttr2 master rtpmap fmt = none :=
          map_eq_none_iff.mp mapped
        rw [matchDynamic, missing] at round
        cases round
      | some r => exact matchDynamic_selects mapped round
  · next letters =>
    cases round
    rw [if_neg letters, if_neg letters]
    exact matchOther_selects fmt found

theorem hasMatch_append (before : List Str) (fmt : Str) (kind : FormatKind) :
    hasMatch options master slave (before ++ [fmt]) kind =
      (hasMatch options master slave before kind ||
        (formatKind master fmt = kind && (formatMatch options master slave fmt).isSome)) := by
  rw [hasMatch, any_append, any_cons, any_nil, Bool.or_false]
  rfl

/-- The loop over the formats after `before` selects at each index what is to be selected. -/
theorem matchFormats_pts {fmts : List Str} : ∀ {before : List Str} {found found' : Matched},
    master.fmt = before ++ fmts →
    (∀ kind, found.found kind = hasMatch options master slave before kind) →
    matchFormats options master slave fmts found = some found' →
    found'.pts = found.pts ++
      (List.range' before.length fmts.length).filterMap (selectedAt options master slave) := by
  induction fmts with
  | nil =>
    intro before found found' _ _ ends
    cases ends
    exact (append_nil _).symm
  | cons fmt rest ih =>
    intro before found found' lists flags ends
    have ⟨middle, round, ends⟩ := bind_eq_some_iff.mp ends
    have one := matchFormat_selects round
    have lists' : master.fmt = (before ++ [fmt]) ++ rest := by
      rw [lists, append_assoc, singleton_append]
    have flags' : ∀ kind, middle.found kind = hasMatch options master slave (before ++ [fmt]) kind := by
      intro kind
      rw [one.flags kind, flags kind, hasMatch_append]
    have here : selectedAt options master slave before.length =
        if (options.answerWithMultipleCodecs && formatKind master fmt = .codec) ||
          !found.found (formatKind master fmt)
        then formatMatch options master slave fmt else none := by
      rw [selectedAt, lists, getElem?_append_right le_rfl, Nat.sub_self,
        take_left, getElem?_cons_zero, bind_some, opensAfter_eq, flags]
    have later := ih lists' flags' ends
    rw [length_append, length_singleton] at later
    rw [later, one.pts, ← here, append_assoc, length_cons, range'_succ,
      filterMap_cons]
    cases selectedAt options master slave before.length <;> rfl

end loop

/-! ## Moving the selected formats to the front -/

/-- The loop that moves formats to the front finds each among those that are left. -/
def FindsAll (fmt : List Str) (i : Nat) : List Str → Prop
  | [] => True
  | pt :: rest => pt ∈ fmt.drop i ∧
    FindsAll (swapFormats fmt i (i + (fmt.drop i).findIdx (· = pt))) (i + 1) rest

theorem findsAll_front {pts : List Str} : ∀ (done : List Str) {left : List Str}, pts.Nodup →
    (∀ pt ∈ pts, pt ∈ left) → FindsAll (done ++ left) done.length pts := by
  induction pts with
  | nil => exact fun _ _ _ _ => trivial
  | cons pt pts ih =>
    intro done left nodup members
    have ⟨new, later⟩ := nodup_cons.mp nodup
    have ⟨left', swapped, perm⟩ := swapFormats_front done (members pt mem_cons_self)
    have members' : ∀ other ∈ pts, other ∈ left' := by
      intro other member
      have present := perm.mem_iff.mpr (members other (mem_cons_of_mem _ member))
      exact mem_of_ne_of_mem (ne_of_mem_of_not_mem member new) present
    have rest := ih (done ++ [pt]) later members'
    rw [FindsAll, drop_left, swapped]
    refine ⟨members pt mem_cons_self, ?_⟩
    rw [length_append, length_singleton, append_assoc, singleton_append] at rest
    exact rest

/-- The side whose order decides, and the other one. -/
def masterSlave (options : Options) (offer preanswer : SdpMedia) : SdpMedia × SdpMedia :=
  if options.preferRemoteCodecOrder then (offer, preanswer) else (preanswer, offer)

/-- Each format of the capability is selected once, and found when it is moved to the front; the
formats so selected come first, each for another format of the offer. -/
structure SelectsOnce (offer preanswer : SdpMedia) (pts : List (Str × Str)) : Prop where
  nodup : (pts.map Prod.snd).Nodup
  listed : ∀ fmt ∈ pts.map Prod.snd, fmt ∈ preanswer.fmt
  finds : FindsAll preanswer.fmt 0 (pts.map Prod.snd)
  front : (arrangeFormats preanswer.fmt 0 (pts.map Prod.snd)).take pts.length = pts.map Prod.snd
  offeredNodup : (pts.map Prod.fst).Nodup
  offered : ∀ fmt ∈ pts.map Prod.fst, fmt ∈ offer.fmt

/-- No two formats of the master are selected with the same format of the offer or of the
capability, and what is selected is written as in the lists. -/
structure Separable (options : Options) (offer preanswer : SdpMedia) : Prop where
  distinct : ∀ (i j : Nat) (pt pt' : Str × Str), i < j →
    selectedAt options (masterSlave options offer preanswer).1
      (masterSlave options offer preanswer).2 i = some pt →
    selectedAt options (masterSlave options offer preanswer).1
      (masterSlave options offer preanswer).2 j = some pt' →
    pt.1 ≠ pt'.1 ∧ pt.2 ≠ pt'.2
  listed : ∀ (i : Nat) (pt : Str × Str),
    selectedAt options (masterSlave options offer preanswer).1
      (masterSlave options offer preanswer).2 i = some pt →
    pt.1 ∈ offer.fmt ∧ pt.2 ∈ preanswer.fmt

/-- What is selected at the indices of the master is in a relation if the list is. -/
theorem pairwise_selected {options : Options} {master slave : SdpMedia}
    {relation : Str × Str → Str × Str → Prop} :
    ((List.range' 0 master.fmt.length).filterMap
        (selectedAt options master slave)).Pairwise relation ↔
      ∀ (i j : Nat) (pt pt' : Str × Str), i < j → selectedAt options master slave i = some pt →
        selectedAt options master slave j = some pt' → relation pt pt' := by
  have inside : ∀ i pt, selectedAt options master slave i = some pt → i < master.fmt.length := by
    intro i pt selected
    have ⟨fmt, there, _⟩ := bind_eq_some_iff.mp selected
    exact (List.getElem?_eq_some_iff.mp there).1
  rw [pairwise_filterMap, pairwise_iff_getElem]
  simp only [length_range', getElem_range', Nat.zero_add, Nat.one_mul]
  constructor
  · intro h i j pt pt' less first second
    exact h i j (inside i pt first) (inside j pt' second) less pt first pt' second
  · intro h i j _ _ less pt first pt' second
    exact h i j pt pt' less first second

/-- Several codecs in the answer, in the order of the offer. -/
def severalCodecs : Options := { preferRemoteCodecOrder := true, answerWithMultipleCodecs := true }

end Pjmedia.SdpNeg
