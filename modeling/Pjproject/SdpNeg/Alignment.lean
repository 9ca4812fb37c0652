import Pjproject.SdpNeg.Safety

/-!
# The lines of the active sessions

An answer may have another number of lines than the offer, and other media types. The lines of the
offer that it does not answer are disabled, and those it answers are paired with its lines in
order. An answer that `create_answer` makes, and an answer that follows the offer, pairs all.
-/

namespace Pjmedia.SdpNeg
open Pj Sdp Heap

/-- The media types of lines. -/
def mediaTypes (media : List SdpMedia) : List Str := media.map SdpMedia.media

/-- The local lines are paired in order with remote lines of the same type, but for some that
are disabled. -/
inductive Paired : List SdpMedia → List SdpMedia → Prop
  | nil (extra : List SdpMedia) : Paired [] extra
  | pair {left right : SdpMedia} {locals remotes : List SdpMedia}
      (same : left.media = right.media) (later : Paired locals remotes) :
    Paired (left :: locals) (right :: remotes)
  | disabled {left : SdpMedia} {locals remotes : List SdpMedia} (port : left.port = 0)
      (later : Paired locals remotes) : Paired (left :: locals) remotes

/-- An answer has the media types of the offer, as far as both go. -/
def InOrder : List SdpMedia → List SdpMedia → Prop
  | om :: offer, am :: answer => om.media = am.media ∧ InOrder offer answer
  | _, _ => True

/-- Lines of the same types are paired. -/
theorem Paired.of_types {locals remotes : List SdpMedia}
    (same : mediaTypes locals = mediaTypes remotes) : Paired locals remotes := by
  induction locals generalizing remotes with
  | nil => exact .nil _
  | cons left locals ih =>
    cases remotes with
    | nil => contradiction
    | cons right remotes =>
      have ⟨first, later⟩ := List.cons.inj same
      exact .pair first (ih later)

/-! ## Processing an answer -/

variable {sdp : SdpSession} {allowAsym : Bool} {offer : List SdpMedia}

theorem updateMediaDirection_media (remote localMedia : SdpMedia) :
    (updateMediaDirection remote localMedia).media = localMedia.media := by
  unfold updateMediaDirection
  dsimp only
  split <;> rfl

theorem processFormats_media (offer answer : SdpMedia) :
    (processFormats offer answer).2.1.media = offer.media ∧
      (processFormats offer answer).2.2.media = answer.media := by
  unfold processFormats
  split
  · split <;> exact ⟨rfl, rfl⟩
  · exact ⟨rfl, rfl⟩

/-- A media keeps its type. -/
theorem processMAnswer_media (offer answer : SdpMedia) (allowAsym : Bool) :
    (processMAnswer offer answer allowAsym).2.1.media = offer.media ∧
      (processMAnswer offer answer allowAsym).2.2.media = answer.media := by
  have formats := processFormats_media (updateMediaDirection answer offer) answer
  rw [updateMediaDirection_media] at formats
  unfold processMAnswer
  split
  · exact ⟨rfl, rfl⟩
  split
  · exact ⟨rfl, rfl⟩
  split
  · exact ⟨rfl, rfl⟩
  split
  · exact ⟨rfl, rfl⟩
  split
  · exact ⟨updateMediaDirection_media answer offer, rfl⟩
  · exact formats

theorem removeUnanswered_status (answer : SdpMedia) (fmts : List Str) :
    ∀ (kept : List (Str × Nat)) (attr : List SdpAttr),
      (removeUnanswered answer kept fmts attr).1 = .success ∨
        (removeUnanswered answer kept fmts attr).1 = .ebug := by
  induction fmts with
  | nil => exact fun _ _ => .inl rfl
  | cons fmt rest ih =>
    intro kept attr
    unfold removeUnanswered
    split
    · exact .inr rfl
    · split
      · exact ih _ _
      · exact ih _ _

/-- Formats do not mismatch media types. -/
theorem processFormats_status (offer answer : SdpMedia) :
    (processFormats offer answer).1 ≠ .einvansmedia := by
  have answered := removeUnanswered_status answer offer.fmt [] offer.attr
  unfold processFormats
  split
  · split <;> nofun
  · next status kept attr _ removed =>
    rcases answered with success | bug
    · exact fun _ => by simp_all
    · simp_all

/-- The types of a media mismatch exactly if its status says so. -/
theorem processMAnswer_mismatch (offer answer : SdpMedia) (allowAsym : Bool) :
    (processMAnswer offer answer allowAsym).1 = .einvansmedia ↔ answer.media ≠ offer.media := by
  unfold processMAnswer
  split
  · next differ => exact iff_of_true rfl differ
  · next same =>
    refine iff_of_false ?_ same
    split
    · nofun
    split
    · nofun
    split
    · nofun
    split
    · dsimp only
      split <;> exact nofun
    · exact processFormats_status _ _

/-- One round of the loop of `process_answer` that ends in success skips a line of the offer or
pairs it with the line of the answer. -/
theorem processMedia_cons {om am : SdpMedia} {answer : List SdpMedia}
    (success : (processMedia sdp allowAsym (om :: offer) (am :: answer)).status = .success) :
    (am.media ≠ om.media ∧ ∃ om', om'.port = 0 ∧ om'.media = om.media ∧
      processMedia sdp allowAsym (om :: offer) (am :: answer) =
        (processMedia sdp allowAsym offer (am :: answer)).cons om' [] false) ∨
    (am.media = om.media ∧ ∃ om' am' active, om'.media = om.media ∧ am'.media = am.media ∧
      processMedia sdp allowAsym (om :: offer) (am :: answer) =
        (processMedia sdp allowAsym offer answer).cons om' [am'] active) := by
  have mismatch := processMAnswer_mismatch om am allowAsym
  have ⟨offered, answered⟩ := processMAnswer_media om am allowAsym
  have unchanged : am.media ≠ om.media → (processMAnswer om am allowAsym).2.2 = am := by
    intro differ
    rw [processMAnswer, if_pos differ]
  rw [processMedia] at success ⊢
  generalize processMAnswer om am allowAsym = result at *
  have ⟨status, om', am'⟩ := result
  cases status with
  | einvansmedia =>
    have differ := mismatch.mp rfl
    have kept : am' = am := unchanged differ
    rw [kept]
    exact .inl ⟨differ, pjmediaSdpMediaDeactivate om', rfl, offered, rfl⟩
  | eansnomedia =>
    have same : am.media = om.media := by
      by_contra differ
      exact nomatch mismatch.mpr differ
    exact .inr ⟨same, pjmediaSdpMediaDeactivate om', pjmediaSdpMediaDeactivate am', false, offered,
      answered, rfl⟩
  | success =>
    have same : am.media = om.media := by
      by_contra differ
      exact nomatch mismatch.mpr differ
    exact .inr ⟨same, om', am', _, offered, answered, rfl⟩
  | _ => contradiction

theorem sdpMediaCloneDeactivate_media (remMed localMed : SdpMedia) (sdp : SdpSession) :
    (sdpMediaCloneDeactivate remMed localMed sdp).media = remMed.media := by
  unfold sdpMediaCloneDeactivate
  dsimp only
  split <;> rfl

/-- The loop of `process_answer` pairs the lines. -/
theorem processMedia_paired :
    ∀ {answer : List SdpMedia}, (processMedia sdp allowAsym offer answer).status = .success →
      Paired (processMedia sdp allowAsym offer answer).offer
        (processMedia sdp allowAsym offer answer).answer := by
  induction offer with
  | nil => exact fun _ => .nil _
  | cons om offer ih =>
    intro answer success
    cases answer with
    | nil => exact .pair (sdpMediaCloneDeactivate_media om om sdp).symm (ih success)
    | cons am answer =>
      rcases processMedia_cons success with
        ⟨_, om', port, _, round⟩ | ⟨same, om', am', _, offered, answered, round⟩
      · rw [round] at success ⊢
        exact .disabled port (ih success)
      · rw [round] at success ⊢
        exact .pair (offered.trans (same.symm.trans answered.symm)) (ih success)

/-- An answer in the order of the offer is paired with all lines of the offer, and keeps the
lines that it has more. -/
theorem processMedia_inOrder :
    ∀ {answer : List SdpMedia}, InOrder offer answer →
      (processMedia sdp allowAsym offer answer).status = .success →
        mediaTypes (processMedia sdp allowAsym offer answer).offer = mediaTypes offer ∧
          mediaTypes (processMedia sdp allowAsym offer answer).answer =
            mediaTypes offer ++ mediaTypes (answer.drop offer.length) := by
  induction offer with
  | nil => exact fun _ _ => ⟨rfl, rfl⟩
  | cons om offer ih =>
    intro answer ordered success
    cases answer with
    | nil =>
      have ordered : InOrder offer [] := by cases offer <;> trivial
      have later := ih ordered success
      have first := sdpMediaCloneDeactivate_media om om sdp
      rw [List.drop_nil] at later ⊢
      exact ⟨congrArg (om.media :: ·) later.1, congrArg₂ (· :: ·) first later.2⟩
    | cons am answer =>
      have ⟨same, ordered⟩ := ordered
      rcases processMedia_cons success with
        ⟨differ, _⟩ | ⟨_, om', am', _, offered, answered, round⟩
      · exact absurd same.symm differ
      · rw [round] at success ⊢
        have ⟨offers, answers⟩ := ih ordered success
        exact ⟨congrArg₂ (· :: ·) offered offers,
          congrArg₂ (· :: ·) (answered.trans same.symm) answers⟩

theorem processAnswer_success {offer remote active answer : SdpSession}
    (success : processAnswer offer remote allowAsym = (.success, active, answer)) :
    (processMedia offer allowAsym offer.media remote.media).status = .success ∧
      active.media = (processMedia offer allowAsym offer.media remote.media).offer ∧
        answer.media = (processMedia offer allowAsym offer.media remote.media).answer := by
  rw [processAnswer, Prod.mk.injEq, Prod.mk.injEq] at success
  obtain ⟨status, rfl, rfl⟩ := success
  refine ⟨?_, rfl, rfl⟩
  by_contra failed
  rw [if_pos failed] at status
  exact failed status

/-! ## Creating an answer -/

variable {options : Options}

/-- `match_offer` keeps the type of the offer if the capability has it. -/
theorem matchOffer_media {offer preanswer answer : SdpMedia}
    (same : offer.media = preanswer.media)
    (matched : matchOffer options offer preanswer sdp = .ok answer) :
    answer.media = offer.media := by
  unfold matchOffer at matched
  split at matched
  · obtain rfl := Except.ok.inj matched
    exact sdpMediaCloneDeactivate_media offer preanswer sdp
  · split at matched
    · obtain rfl := Except.ok.inj matched
      exact same.symm
    · dsimp only at matched
      split at matched
      · contradiction
      · split_ifs at matched
        obtain rfl := Except.ok.inj matched
        rw [buildAnswer, updateMediaDirection_media]
        exact same.symm

theorem findAnswerMedia_media {initial : SdpSession} {used : List Nat} {om am : SdpMedia}
    {medias : List SdpMedia} :
    ∀ {j found : Nat} {status status' : Status},
      findAnswerMedia options initial used om j medias status = (some (found, am), status') →
        am.media = om.media := by
  induction medias with
  | nil => nofun
  | cons im rest ih =>
    intro j found status status' h
    unfold findAnswerMedia at h
    split at h
    · next fits =>
      split at h
      · next am' matched =>
        obtain ⟨_, rfl⟩ := Prod.mk.inj (Option.some.inj (congrArg Prod.fst h))
        exact matchOffer_media fits.1 matched
      · exact ih h
    · exact ih h

/-- An answer has the media types of the offer. -/
theorem answerMedia_media (options : Options) (initial : SdpSession) (offer : List SdpMedia) :
    ∀ (used : List Nat) (status : Status),
      mediaTypes (answerMedia options initial offer used status).1 = mediaTypes offer := by
  induction offer with
  | nil => exact fun _ _ => rfl
  | cons om rest ih =>
    intro used status
    unfold answerMedia
    cases result : findAnswerMedia options initial used om 0 initial.media status with
    | mk found status' =>
      cases found with
      | none =>
        exact congrArg₂ (· :: ·) (sdpMediaCloneDeactivate_media om om initial) (ih used status')
      | some found =>
        have ⟨j, am⟩ := found
        exact congrArg₂ (· :: ·) (findAnswerMedia_media result) (ih (j :: used) status')

theorem createAnswer_media {initial offer answer : SdpSession}
    (success : createAnswer options initial offer = (.success, answer)) :
    mediaTypes answer.media = mediaTypes offer.media := by
  unfold createAnswer at success
  split at success
  · next invalid =>
    exact absurd (congrArg Prod.fst success) invalid
  · obtain rfl := congrArg Prod.snd success
    exact answerMedia_media options initial offer.media [] .success

/-! ## Runs -/

/-- The lines of the active sessions, where both are set, are in a relation. -/
def Negotiation.Relates (relation : List SdpMedia → List SdpMedia → Prop) (n : Negotiation) : Prop :=
  ∀ active ∈ n.activeLocal, ∀ remote ∈ n.activeRemote, relation active.media remote.media

/-- The remote answer that a call negotiates is in a relation with the pending offer. -/
def Negotiation.Answers (relation : List SdpMedia → List SdpMedia → Prop) (n : Negotiation)
    (c : Call) : Prop :=
  ∀ allowAsym, c = .negotiate allowAsym → n.hasRemoteAnswer = true →
    ∀ offer ∈ n.negLocal, ∀ answer ∈ n.negRemote, relation offer.media answer.media

section
variable {relation answers : List SdpMedia → List SdpMedia → Prop}
  (aligned : ∀ locals remotes, mediaTypes locals = mediaTypes remotes → relation locals remotes)
  (processed : ∀ sdp allowAsym offer answer, answers offer answer →
    (processMedia sdp allowAsym offer answer).status = .success →
    relation (processMedia sdp allowAsym offer answer).offer
      (processMedia sdp allowAsym offer answer).answer)
include aligned processed

/-- A relation of lines of the same types, which `process_answer` establishes for the answers that
are negotiated, holds of the active sessions. -/
theorem Negotiation.Relates.step {n n' : Negotiation} {c : Call} {rep : Report}
    (h : n.Relates relation) (answered : n.Answers answers c) (step : n.Step c n' rep) :
    n'.Relates relation := by
  cases step with
  | @processed allowAsym offer remote active answer pending remoteAnswer localSet remoteSet success =>
    have ordered := answered allowAsym rfl remoteAnswer offer localSet remote remoteSet
    have done := processed offer allowAsym offer.media remote.media ordered
    have ⟨ended, lines⟩ := processAnswer_success success
    intro active' isActive remote' isRemote
    obtain rfl := Option.some.inj isActive
    obtain rfl := Option.some.inj isRemote
    rw [lines.1, lines.2]
    exact done ended
  | @answered allowAsym initial remote answer versioned pending localAnswer localSet remoteSet success =>
    intro active isActive remote' isRemote
    obtain rfl := Option.some.inj isActive
    obtain rfl := Option.some.inj isRemote
    have same := createAnswer_media success
    exact aligned _ _ same
  | cancelledLocal =>
    intro active isActive remote isRemote
    obtain ⟨before, set, rfl⟩ := Option.map_eq_some_iff.mp isActive
    exact h before set remote isRemote
  | _ => exact h

/-- Along a run whose remote answers are in a relation with the offers, the active sessions are in
the relation that `process_answer` establishes. -/
theorem relates_always {mem : Memory} (started : Started mem) {calls : List Call}
    (answered : Run.Meets exec (fun mem c => ∀ held ∈ mem, held.view.Answers answers c)
      (some mem) calls) :
    Run.Always exec (fun mem => ∀ held ∈ mem, held.view.Relates relation) (some mem) calls := by
  have first : Keeps (Negotiation.Relates relation) (some mem) := by
    intro held same
    obtain rfl := Option.some.inj same
    have ⟨n, start, holds⟩ := started.holds
    rw [holds.view]
    refine ⟨holds.proper, ?_⟩
    cases start <;> exact fun _ unset => nomatch unset
  have kept : ∀ (mem : Option Memory) (c : Call), Keeps (Negotiation.Relates relation) mem →
      (∀ held ∈ mem, held.view.Answers answers c) →
        Keeps (Negotiation.Relates relation) (exec mem c) := by
    intro mem c keeps answered
    refine keeps.exec fun held set n rep called relates => ?_
    exact relates.step aligned processed (answered held set) (Negotiation.call_step called)
  exact (Run.always kept first answered).imp fun mem keeps held set => (keeps held set).2

end

/-- The lines of the active sessions are paired but for disabled ones. Along a run whose answers
follow the offers as far as both go, the remote lines begin with the types of the local ones. If
no answer has more lines than the offer, they are the same types. -/
theorem active_aligned {mem : Memory} (started : Started mem) (calls : List Call) :
    Run.Always exec (fun mem => ∀ held ∈ mem, held.view.Relates Paired) (some mem) calls ∧
      (Run.Meets exec (fun mem c => ∀ held ∈ mem, held.view.Answers InOrder c) (some mem) calls →
        Run.Always exec (fun mem => ∀ held ∈ mem, held.view.Relates fun locals remotes =>
          mediaTypes locals <+: mediaTypes remotes) (some mem) calls) ∧
      (Run.Meets exec (fun mem c => ∀ held ∈ mem, held.view.Answers (fun offer answer =>
          InOrder offer answer ∧ answer.length ≤ offer.length) c) (some mem) calls →
        Run.Always exec (fun mem => ∀ held ∈ mem, held.view.Relates fun locals remotes =>
          mediaTypes locals = mediaTypes remotes) (some mem) calls) := by
  refine ⟨?_, ?_, ?_⟩
  · refine @relates_always Paired (fun _ _ => True) (fun _ _ => Paired.of_types) ?_ mem started
      calls ?_
    · exact fun sdp allowAsym offer answer _ success => processMedia_paired success
    · exact Run.meets_of_forall (fun _ _ _ _ _ _ _ _ _ _ _ => trivial) _ _
  · refine relates_always (fun locals remotes same => same ▸ List.prefix_rfl) ?_ started
    intro sdp allowAsym offer answer ordered success
    have ⟨offers, answers⟩ := processMedia_inOrder ordered success
    rw [offers, answers]
    exact List.prefix_append _ _
  · refine relates_always (fun locals remotes same => same) ?_ started
    intro sdp allowAsym offer answer ⟨ordered, short⟩ success
    have ⟨offers, answers⟩ := processMedia_inOrder ordered success
    rw [offers, answers, List.drop_eq_nil_of_le short]
    exact (List.append_nil _).symm

/-- `"video"`. -/
def video : Str := ofChars ['v', 'i', 'd', 'e', 'o']

/-- An audio line with the format 0. -/
def pcmuMedia : SdpMedia := rtpMedia audio 3000 [ofChars ['0']]

/-- A video line with the format 31. -/
def h261Media : SdpMedia := rtpMedia video 4000 [ofChars ['3', '1']]

/-- An offer of audio and video that is answered with two audio lines. -/
theorem active_misaligned : ∃ mem, createWLocalOffer (rtpSession 1 [pcmuMedia, h261Media]) = .ok mem ∧
    ¬Run.Always exec (fun mem => ∀ held ∈ mem, held.view.Relates fun locals remotes =>
      mediaTypes locals = mediaTypes remotes) (some mem)
      [.setRemoteAnswer (rtpSession 1 [pcmuMedia, pcmuMedia]), .negotiate false] := by
  refine ⟨_, rfl, fun aligned => ?_⟩
  have last := aligned.last
  unfold Negotiation.Relates at last
  revert last
  decide +kernel

/-- The lines of an exchange that is answered in order. -/
theorem active_aligned_answered : ∃ mem,
    createWLocalOffer (rtpSession 1 [pcmuMedia, h261Media]) = .ok mem ∧
      Run.Always exec (fun mem => ∀ held ∈ mem, held.view.Relates Paired) (some mem)
        [.setRemoteAnswer (rtpSession 1 [pcmuMedia]), .negotiate false] :=
  ⟨_, rfl, (active_aligned (@Started.localOffer (rtpSession 1 [pcmuMedia, h261Media]) _ rfl) _).1⟩

end Pjmedia.SdpNeg
