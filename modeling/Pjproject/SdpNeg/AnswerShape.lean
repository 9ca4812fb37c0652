import Mathlib.Data.List.ReduceOption
import Pjproject.SdpNeg.Alignment

/-!
# The lines of an answer

`create_answer` goes over the lines of the offer once and marks in `media_used` each line of the
capability that it takes. So an answer has a line for each offered line, and says for each which
line of the capability it is made of, if any.
-/

namespace Pjmedia.SdpNeg
open List Pj Sdp

/-- What the answer to an offered line is made of: the line of the capability at an index, or a
copy of the offered line with port zero. -/
def AnsweredBy (options : Options) (initial : SdpSession) (om am : SdpMedia) : Option Nat → Prop
  | none => am = sdpMediaCloneDeactivate om om initial
  | some j => ∃ im, initial.media[j]? = some im ∧ matchOffer options om im initial = .ok am

/-- An answer, with the indices that its lines are made of. -/
structure AnswerLines (options : Options) (initial : SdpSession) (offer answer : List SdpMedia)
    (uses : List (Option Nat)) : Prop where
  count : answer.length = offer.length
  useCount : uses.length = offer.length
  answered : ∀ (i : Nat) (om am : SdpMedia) (use : Option Nat), offer[i]? = some om →
    answer[i]? = some am → uses[i]? = some use → AnsweredBy options initial om am use

/-- The search finds a line that is not used yet, at its index. -/
theorem findAnswerMedia_found {options : Options} {initial : SdpSession} {used : List Nat}
    {om am : SdpMedia} {medias : List SdpMedia} :
    ∀ {before : List SdpMedia} {found : Nat} {status status' : Status},
      initial.media = before ++ medias →
      findAnswerMedia options initial used om before.length medias status =
        (some (found, am), status') →
      found ∉ used ∧ AnsweredBy options initial om am (some found) := by
  induction medias with
  | nil => nofun
  | cons im rest ih =>
    intro before found status status' lines h
    have later : initial.media = (before ++ [im]) ++ rest := by
      rw [lines, append_assoc, singleton_append]
    have index : (before ++ [im]).length = before.length + 1 := length_append
    unfold findAnswerMedia at h
    rw [← index] at h
    split at h
    · next fits =>
      split at h
      · next am' matched =>
        obtain ⟨rfl, rfl⟩ := Prod.mk.inj (Option.some.inj (congrArg Prod.fst h))
        have here : initial.media[before.length]? = some im := by
          rw [lines, getElem?_append_right (Nat.le_refl _), Nat.sub_self]
          rfl
        exact ⟨fits.2.2, im, here, matched⟩
      · exact ih later h
    · exact ih later h

/-- The lines of an answer are made of different lines of the capability, none of them used
before. -/
theorem answerMedia_uses (options : Options) (initial : SdpSession) (offer : List SdpMedia) :
    ∀ (used : List Nat) (status : Status), ∃ uses,
      AnswerLines options initial offer (answerMedia options initial offer used status).1 uses ∧
        uses.reduceOption.Nodup ∧ ∀ j ∈ uses.reduceOption, j ∉ used := by
  induction offer with
  | nil =>
    intro used status
    exact ⟨[], ⟨rfl, rfl, nofun⟩, nodup_nil, nofun⟩
  | cons om rest ih =>
    intro used status
    unfold answerMedia
    cases result : findAnswerMedia options initial used om 0 initial.media status with
    | mk found status' =>
      cases found with
      | none =>
        obtain ⟨uses, lines, nodup, unused⟩ := ih used status'
        refine ⟨none :: uses, ⟨congrArg (· + 1) lines.count, congrArg (· + 1) lines.useCount, ?_⟩,
          nodup, unused⟩
        intro i om' am' j offered answered made
        cases i with
        | zero =>
          cases offered
          cases answered
          cases made
          rfl
        | succ i => exact lines.answered i om' am' j offered answered made
      | some found =>
        obtain ⟨index, am⟩ := found
        obtain ⟨unusedIndex, made'⟩ := @findAnswerMedia_found _ _ _ _ _ _ [] _ _ _ rfl result
        obtain ⟨uses, lines, nodup, unused⟩ := ih (index :: used) status'
        have new : index ∉ uses.reduceOption :=
          fun among => unused index among mem_cons_self
        refine ⟨some index :: uses,
          ⟨congrArg (· + 1) lines.count, congrArg (· + 1) lines.useCount, ?_⟩, ?_, ?_⟩
        · intro i om' am' j offered answered made
          cases i with
          | zero =>
            cases offered
            cases answered
            cases made
            exact made'
          | succ i => exact lines.answered i om' am' j offered answered made
        · exact nodup_cons.mpr ⟨new, nodup⟩
        · rw [reduceOption_cons_of_some, forall_mem_cons]
          exact ⟨unusedIndex, fun j among later => unused j among (mem_cons_of_mem _ later)⟩

theorem sdpMediaCloneDeactivate_port (remMed localMed : SdpMedia) (sdp : SdpSession) :
    (sdpMediaCloneDeactivate remMed localMed sdp).port = 0 := by
  unfold sdpMediaCloneDeactivate
  dsimp only
  split <;> rfl

/-- A rejected line is answered with a rejected one. -/
theorem AnsweredBy.port {options : Options} {initial : SdpSession} {om am : SdpMedia}
    {use : Option Nat} (h : AnsweredBy options initial om am use) (rejected : om.port = 0) :
    am.port = 0 := by
  cases use with
  | none =>
    rw [show am = sdpMediaCloneDeactivate om om initial from h]
    exact sdpMediaCloneDeactivate_port om om initial
  | some j =>
    have ⟨im, _, matched⟩ := h
    rw [matchOffer, if_pos rejected] at matched
    rw [← Except.ok.inj matched]
    exact sdpMediaCloneDeactivate_port om im initial

/-- The answer to a valid offer has a line of the same type for each offered line, made of a line
of the capability that no other line of the answer is made of, or of none. A line with port zero
is answered with port zero. -/
theorem createAnswer_shape {options : Options} {initial offer : SdpSession}
    (valid : pjmediaSdpValidate offer = .success) :
    mediaTypes (createAnswer options initial offer).2.media = mediaTypes offer.media ∧
      (∃ uses, AnswerLines options initial offer.media
          (createAnswer options initial offer).2.media uses ∧ uses.reduceOption.Nodup) ∧
      ∀ (i : Nat) (om am : SdpMedia), offer.media[i]? = some om →
        (createAnswer options initial offer).2.media[i]? = some am → om.port = 0 → am.port = 0 := by
  have filled : (createAnswer options initial offer).2.media =
      (answerMedia options initial offer.media [] .success).1 := by
    unfold createAnswer
    rw [if_neg (not_not_intro valid)]
  rw [filled]
  have ⟨uses, lines, nodup, _⟩ := answerMedia_uses options initial offer.media [] .success
  refine ⟨answerMedia_media options initial offer.media [] .success, ⟨uses, lines, nodup⟩, ?_⟩
  intro i om am offered answered rejected
  have bound : i < uses.length := by
    have inside := (List.getElem?_eq_some_iff.mp offered).1
    rw [lines.useCount]
    exact inside
  have made := lines.answered i om am _ offered answered (getElem?_eq_getElem bound)
  exact made.port rejected

/-- The answer to an offer of audio and a rejected video line. -/
theorem createAnswer_shape_rejected :
    pjmediaSdpValidate (rtpSession 1 [pcmuMedia, { h261Media with port := 0 }]) = .success ∧
      ∀ am, (createAnswer .default (rtpSession 1 [h261Media, pcmuMedia])
        (rtpSession 1 [pcmuMedia, { h261Media with port := 0 }])).2.media[1]? = some am →
        am.port = 0 := by
  have valid : pjmediaSdpValidate (rtpSession 1 [pcmuMedia, { h261Media with port := 0 }]) =
      .success := by decide
  exact ⟨valid, fun am answered => (createAnswer_shape valid).2.2 1 _ am rfl answered rfl⟩

end Pjmedia.SdpNeg
