import Pjproject.Sdp.RoundTrip
import Pjproject.SdpNeg.CreateAnswer

/-!
# The codecs of formats

`match_offer` and `process_m_answer` compare rtpmaps each in a way of its own. The two ways differ
on a channel count of one, which only one of them knows to be the default. On rtpmaps that leave it
out both compare the codecs.
-/

namespace Pjmedia.SdpNeg
open Pj Sdp

/-- Two rtpmaps name one codec. -/
def SameCodec (left right : SdpRtpmap) : Prop :=
  pjStricmpEq left.encName right.encName = true ∧ left.clockRate = right.clockRate ∧
    pjStricmpEq left.param right.param = true

instance (left right : SdpRtpmap) : Decidable (SameCodec left right) := inferInstanceAs
  (Decidable (_ ∧ _ ∧ _))

theorem pjStricmpEq_symm {left right : Str} (h : pjStricmpEq left right = true) :
    pjStricmpEq right left = true := by
  simp only [pjStricmpEq, Bool.and_eq_true, decide_eq_true_eq] at h ⊢
  exact ⟨h.1.symm, h.2.symm⟩

theorem pjStricmpEq_trans {left middle right : Str} (h : pjStricmpEq left middle = true)
    (h' : pjStricmpEq middle right = true) : pjStricmpEq left right = true := by
  simp only [pjStricmpEq, Bool.and_eq_true, decide_eq_true_eq] at h h' ⊢
  exact ⟨h.1.trans h'.1, h.2.trans h'.2⟩

variable {right : SdpRtpmap}

theorem SameCodec.symm {left : SdpRtpmap} (h : SameCodec left right) :
    SameCodec right left :=
  ⟨pjStricmpEq_symm h.1, h.2.1.symm, pjStricmpEq_symm h.2.2⟩

theorem SameCodec.trans {left middle : SdpRtpmap} (h : SameCodec left middle)
    (h' : SameCodec middle right) : SameCodec left right :=
  ⟨pjStricmpEq_trans h.1 h'.1, h.2.1.trans h'.2.1, pjStricmpEq_trans h.2.2 h'.2.2⟩

/-- `match_offer` compares the codecs. -/
theorem rtpmapMatches_iff {masterMap slaveMap : SdpRtpmap} (master : isOne masterMap.param = false)
    (slave : isOne slaveMap.param = false) :
    rtpmapMatches masterMap slaveMap = true ↔ SameCodec masterMap slaveMap := by
  simp [rtpmapMatches, SameCodec, master, slave, and_assoc]

/-- `process_m_answer` compares the codecs. -/
theorem rtpmapAnswers_iff {offered answered : SdpRtpmap} (h : isOne answered.param = false) :
    rtpmapAnswers offered answered = true ↔ SameCodec offered answered := by
  simp [rtpmapAnswers, SameCodec, h, and_assoc]

/-! ## Payload types in text -/

/-- A number ends at a space. -/
theorem strtoulFrom_space (value : Nat) (str rest : Str) :
    strtoulFrom value (str ++ 32 :: rest) = strtoulFrom value str := by
  induction str generalizing value with
  | nil => simp [strtoulFrom, pjIsdigit]
  | cons byte str ih =>
    rw [List.cons_append, strtoulFrom, strtoulFrom]
    split
    · exact ih _
    · rfl

theorem payloadType_space (fmt rest : Str) : payloadType (fmt ++ 32 :: rest) = payloadType fmt := by
  rw [payloadType, payloadType, pjStrtoul, strtoulFrom_space]
  rfl

/-- A format that is not a number reads as zero. -/
theorem payloadType_other {fmt : Str} (h : pjIsdigit (fmt.headD 0) = false) :
    payloadType fmt = 0 := by
  cases fmt with
  | nil => rfl
  | cons byte rest =>
    rw [List.headD_cons] at h
    simp [payloadType, pjStrtoul, strtoulFrom, h]

/-- A dynamic payload type is a number. -/
theorem pjIsdigit_of_dynamic {fmt : Str} (dynamic : 96 ≤ payloadType fmt) :
    pjIsdigit (fmt.headD 0) = true := by
  cases digit : pjIsdigit (fmt.headD 0) with
  | true => rfl
  | false =>
    rw [payloadType_other digit] at dynamic
    contradiction

/-- The codec of an rtpmap does not depend on its payload type. -/
theorem getRtpmap_space {name name' fmt fmt' : Str} (token : ∀ byte ∈ fmt, csToken byte = true)
    (nonempty : fmt ≠ []) (token' : ∀ byte ∈ fmt', csToken byte = true) (nonempty' : fmt' ≠ [])
    (rest : Str) :
    pjmediaSdpAttrGetRtpmap { name := name, value := fmt ++ 32 :: rest } =
      { pjmediaSdpAttrGetRtpmap { name := name', value := fmt' ++ 32 :: rest } with pt := fmt } := by
  have first : ∀ {fmt : Str}, (∀ byte ∈ fmt, csToken byte = true) → fmt ≠ [] →
      pjScanGet csToken (pjScanInit (fmt ++ 32 :: rest) true) =
        some (fmt, ({ rest := 32 :: rest, skipWs := true } : Scanner).autoskip) := by
    intro fmt token nonempty
    have ⟨take, drop⟩ := takeWhile_stop csToken token 32 (by decide) rest
    obtain ⟨byte, later, rfl⟩ := List.exists_cons_of_ne_nil nonempty
    have matched : csToken byte = true := token byte (by simp)
    have solid : isSpace byte = false := by
      have space : byte ≠ 32 := fun equal => absurd (equal ▸ matched) (by decide)
      have tab : byte ≠ 9 := fun equal => absurd (equal ▸ matched) (by decide)
      simp [isSpace, space, tab]
    have init : pjScanInit (byte :: later ++ 32 :: rest) true =
        { rest := byte :: later ++ 32 :: rest, skipWs := true } := by
      simp [pjScanInit, pjScanSkipWhitespace, solid]
    rw [init, pjScanGet, List.cons_append, Scanner.peek_zero, if_pos matched, ← List.cons_append]
    simp only [take, drop]
  unfold pjmediaSdpAttrGetRtpmap
  rw [first token nonempty, first token' nonempty']
  dsimp only
  generalize pjScanGet csToken _ = second
  rcases second with _ | ⟨encName, scanner⟩
  · rfl
  dsimp only
  generalize pjScanGetChar scanner = slash
  split
  · split
    · rfl
    · rfl
  · rfl

end Pjmedia.SdpNeg
