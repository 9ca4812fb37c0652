import Mathlib.Tactic.Ring

/-!
# RTP sequence number control

`pjmedia_rtp_seq_session` and its three operations, over the fixed-width words of
the source. Comparisons written between `int` operands in C are comparisons of
naturals here, so the absence of a wrap in `max_seq + 1` is kept.

The main result compares two runs: adding a constant to every received number
changes no status and no `diff` exactly when neither run meets the wrap from
65535 to 0 while the source is still on probation.
-/

namespace Pjmedia.Rtp

/-- `RTP_SEQ_MOD`. -/
def rtpSeqMod : UInt32 := (1 : UInt32) <<< 16

/-- `MAX_DROPOUT`. -/
def maxDropout : Nat := 3000

/-- `MAX_MISORDER`. -/
def maxMisorder : Nat := 100

/-- `MIN_SEQUENTIAL`. -/
def minSequential : UInt32 := 2

/-- `struct pjmedia_rtp_seq_session`. -/
structure RtpSeqSession where
  /-- Highest sequence number seen. -/
  maxSeq : UInt16
  /-- Shifted count of sequence number cycles. -/
  cycles : UInt32
  /-- Base sequence number. -/
  baseSeq : UInt32
  /-- Last bad sequence number plus one. -/
  badSeq : UInt32
  /-- Packets in sequence still needed until the source is valid. -/
  probation : UInt32
deriving DecidableEq, Repr

/-- `struct pjmedia_rtp_status`: the flag bits and `diff`. -/
structure RtpStatus where
  /-- General flag: the packet should not be processed. -/
  bad : Bool := false
  /-- Invalid payload type. -/
  badpt : Bool := false
  /-- Invalid SSRC. -/
  badssrc : Bool := false
  /-- Duplicate packet. -/
  dup : Bool := false
  /-- Packet out of order. -/
  outorder : Bool := false
  /-- The session is on probation. -/
  probation : Bool := false
  /-- The base sequence has been adjusted after a large jump. -/
  restart : Bool := false
  /-- Sequence number difference from the previous packet. -/
  diff : UInt16 := 0
deriving DecidableEq, Repr

/-- `pjmedia_rtp_seq_restart`. -/
def seqRestart (sess : RtpSeqSession) (seq : UInt16) : RtpSeqSession :=
  { sess with
    baseSeq := seq.toUInt32
    maxSeq := seq
    badSeq := rtpSeqMod + 1
    cycles := 0 }

/-- `pjmedia_rtp_seq_init`. -/
def seqInit (sess : RtpSeqSession) (seq : UInt16) : RtpSeqSession :=
  { seqRestart sess seq with
    maxSeq := seq - 1
    probation := minSequential }

/-- `pjmedia_rtp_seq_update`: the new session and the status it reports. -/
def seqUpdate (sess : RtpSeqSession) (seq : UInt16) : RtpSeqSession × RtpStatus :=
  let udelta := seq - sess.maxSeq
  if sess.probation ≠ 0 then
    -- `sess->max_seq + 1` is computed in `int`, so it is 65536 after 65535.
    if seq.toNat = sess.maxSeq.toNat + 1 then
      let probation := sess.probation - 1
      ({ sess with probation := probation, maxSeq := seq },
        { diff := 1, probation := decide (probation ≠ 0) })
    else
      ({ sess with probation := minSequential - 1, maxSeq := seq },
        { probation := true, bad := true, dup := decide (seq = sess.maxSeq),
          outorder := decide (seq ≠ sess.maxSeq) })
  else if udelta = 0 then
    (sess, { dup := true })
  else if udelta.toNat < maxDropout then
    ({ sess with
        cycles := if seq < sess.maxSeq then sess.cycles + rtpSeqMod else sess.cycles
        maxSeq := seq },
      { diff := udelta })
  else if udelta.toNat ≤ rtpSeqMod.toNat - maxMisorder then
    if seq.toUInt32 = sess.badSeq then
      (seqRestart sess seq, { restart := true, probation := true, diff := 1 })
    else
      ({ sess with badSeq := (seq.toUInt32 + 1) &&& (rtpSeqMod - 1) },
        { bad := true, outorder := true })
  else
    (sess, { outorder := true })

/-- The statuses of a run of updates. -/
def seqUpdates (sess : RtpSeqSession) : List UInt16 → List RtpStatus
  | [] => []
  | seq :: rest => (seqUpdate sess seq).2 :: seqUpdates (seqUpdate sess seq).1 rest

/-- `pjmedia_rtp_seq_init` on the first number received, then one update for every
number, the first included. -/
def seqTrack (sess : RtpSeqSession) : List UInt16 → List RtpStatus
  | [] => []
  | first :: rest => seqUpdates (seqInit sess first) (first :: rest)

/-! ## One step of two translated sessions -/

variable {c : UInt16} {left right : RtpSeqSession}

/-- The in-sequence test of the probation branch holds for the successor modulo
2¹⁶, except for the successor of 65535. -/
theorem inSequence_iff (seq last : UInt16) :
    seq.toNat = last.toNat + 1 ↔ seq = last + 1 ∧ seq ≠ 0 := by
  have hseq := seq.toNat_lt
  have hlast := last.toNat_lt
  rw [← UInt16.toNat_inj, Ne, ← UInt16.toNat_inj, UInt16.toNat_add]
  simp only [UInt16.toNat_one, UInt16.toNat_zero]
  omega

/-- The number remembered after a bad jump is the successor modulo 2¹⁶. -/
theorem badSeq_successor (seq : UInt16) :
    (seq.toUInt32 + 1) &&& (rtpSeqMod - 1) = (seq + 1).toUInt32 := by
  have hseq := seq.toNat_lt
  apply UInt32.toNat_inj.mp
  have mask : (rtpSeqMod - 1).toNat = 2 ^ 16 - 1 := by decide
  rw [UInt32.toNat_and, mask, Nat.and_two_pow_sub_one_eq_mod, UInt32.toNat_add,
    UInt16.toNat_toUInt32, UInt16.toNat_toUInt32, UInt16.toNat_add]
  simp only [UInt32.toNat_one, UInt16.toNat_one]
  omega

/-- Widening keeps distinct sequence numbers distinct. -/
theorem toUInt32_inj (left right : UInt16) : left.toUInt32 = right.toUInt32 ↔ left = right := by
  rw [← UInt32.toNat_inj, UInt16.toNat_toUInt32, UInt16.toNat_toUInt32, UInt16.toNat_inj]

/-- No sequence number equals the initial value of `bad_seq`. -/
theorem toUInt32_ne_initial (seq : UInt16) : seq.toUInt32 ≠ rtpSeqMod + 1 := by
  intro h
  have hnat := congrArg UInt32.toNat h
  rw [UInt16.toNat_toUInt32, show (rtpSeqMod + 1).toNat = 65537 by decide] at hnat
  have := seq.toNat_lt
  omega

/-- The two `bad_seq` fields of translated sessions: both initial, or both remembered
numbers at the same distance. -/
inductive BadSeqTranslated (c : UInt16) : UInt32 → UInt32 → Prop
  | initial : BadSeqTranslated c (rtpSeqMod + 1) (rtpSeqMod + 1)
  | remembered (seq : UInt16) : BadSeqTranslated c seq.toUInt32 (seq + c).toUInt32

/-- The second session is the first with every sequence number moved by `c`. The
fields `cycles` and `base_seq` are not compared: no status depends on them. -/
structure Translated (c : UInt16) (left right : RtpSeqSession) : Prop where
  maxSeq : right.maxSeq = left.maxSeq + c
  badSeq : BadSeqTranslated c left.badSeq right.badSeq
  probation : right.probation = left.probation

/-- Translated numbers are compared alike with translated `bad_seq` fields. -/
theorem BadSeqTranslated.eq_iff {left right : UInt32} (h : BadSeqTranslated c left right)
    (seq : UInt16) :
    (seq + c).toUInt32 = right ↔ seq.toUInt32 = left := by
  cases h with
  | initial => simp only [toUInt32_ne_initial]
  | remembered old =>
    rw [toUInt32_inj, toUInt32_inj]
    constructor <;> intro h <;> grind

section
variable (h : Translated c left right)
include h

/-- The distance of a number from the highest one is the same in both sessions. -/
theorem Translated.udelta (seq : UInt16) : seq + c - right.maxSeq = seq - left.maxSeq := by
  rw [h.maxSeq]
  grind

/-- A validated source: one update reports the same status and keeps the sessions
translated, whatever the number. -/
theorem seqUpdate_translated_valid (valid : left.probation = 0) (seq : UInt16) :
    (seqUpdate right (seq + c)).2 = (seqUpdate left seq).2 ∧
      Translated c (seqUpdate left seq).1 (seqUpdate right (seq + c)).1 := by
  have hvalid : right.probation = 0 := h.probation.trans valid
  simp only [seqUpdate, valid, hvalid, ne_eq, not_true_eq_false, if_false, h.udelta]
  split
  · exact ⟨rfl, h⟩
  · split
    · exact ⟨rfl, ⟨rfl, h.badSeq, rfl⟩⟩
    · split
      · simp only [h.badSeq.eq_iff]
        split
        · exact ⟨rfl, ⟨rfl, .initial, h.probation⟩⟩
        · refine ⟨rfl, ⟨h.maxSeq, ?_, rfl⟩⟩
          simp only [badSeq_successor]
          rw [show seq + c + 1 = seq + 1 + c by grind]
          exact .remembered (seq + 1)
      · exact ⟨rfl, h⟩

/-- A source on probation: the same holds when the number is not the successor of
the highest one across the wrap, in either session. -/
theorem seqUpdate_translated_probation (probation : left.probation ≠ 0) (seq : UInt16)
    (inside : seq = left.maxSeq + 1 → seq ≠ 0 ∧ seq + c ≠ 0) :
    (seqUpdate right (seq + c)).2 = (seqUpdate left seq).2 ∧
      Translated c (seqUpdate left seq).1 (seqUpdate right (seq + c)).1 := by
  have successor : seq + c = right.maxSeq + 1 ↔ seq = left.maxSeq + 1 := by
    rw [h.maxSeq]
    constructor <;> intro e <;> grind
  have same : seq + c = right.maxSeq ↔ seq = left.maxSeq := by
    rw [h.maxSeq]
    constructor <;> intro e <;> grind
  simp only [seqUpdate, probation, ne_eq, not_false_eq_true, if_true,
    inSequence_iff, successor, same, h.probation]
  by_cases next : seq = left.maxSeq + 1
  · have bounds := inside next
    simp only [next] at bounds ⊢
    simp only [bounds.1, bounds.2, not_false_eq_true, and_self, if_true, true_and]
    exact ⟨rfl, h.badSeq, rfl⟩
  · simp only [next, false_and, if_false, true_and]
    exact ⟨rfl, h.badSeq, rfl⟩

end

/-! ## Runs -/

variable {sess : RtpSeqSession}

/-- The first number that follows its predecessor modulo 2¹⁶, starting after `last`. -/
def firstInSequence (last : UInt16) : List UInt16 → Option UInt16
  | [] => none
  | seq :: rest => if seq = last + 1 then some seq else firstInSequence seq rest

/-- The run does not start at 0, and the number that ends its probation is not 0: the
in-sequence test never meets the successor of 65535. -/
def ProbationAvoidsWrap : List UInt16 → Prop
  | [] => True
  | first :: rest => first ≠ 0 ∧ firstInSequence first rest ≠ some 0

instance (seqs : List UInt16) : Decidable (ProbationAvoidsWrap seqs) := by
  cases seqs <;> unfold ProbationAvoidsWrap <;> infer_instance

/-- An update keeps a validated source validated. -/
theorem seqUpdate_keeps_valid (valid : sess.probation = 0) (seq : UInt16) :
    (seqUpdate sess seq).1.probation = 0 := by
  simp only [seqUpdate, valid, ne_eq, not_true_eq_false, if_false]
  repeat' split
  all_goals first | rfl | exact valid

/-- The last probation packet validates the source exactly when it is in sequence. -/
theorem seqUpdate_probation (last : sess.probation = 1) (seq : UInt16) :
    (seqUpdate sess seq).1.maxSeq = seq ∧
      (seqUpdate sess seq).1.probation = if seq = sess.maxSeq + 1 ∧ seq ≠ 0 then 0 else 1 := by
  simp only [seqUpdate, last, inSequence_iff]
  by_cases next : seq = sess.maxSeq + 1 ∧ seq ≠ 0
  · rw [if_pos next]
    exact ⟨rfl, (if_pos next).symm⟩
  · rw [if_neg next]
    exact ⟨rfl, (if_neg next).symm⟩

/-- On probation a packet is bad exactly when it is not in sequence. -/
theorem seqUpdate_probation_bad (last : sess.probation = 1) (seq : UInt16) :
    (seqUpdate sess seq).2.bad = true ↔ ¬(seq = sess.maxSeq + 1 ∧ seq ≠ 0) := by
  simp only [seqUpdate, last, inSequence_iff]
  by_cases next : seq = sess.maxSeq + 1 ∧ seq ≠ 0
  · rw [if_pos next]
    exact ⟨fun e => absurd e Bool.false_ne_true, fun e => absurd next e⟩
  · rw [if_neg next]
    exact ⟨fun _ => next, fun _ => rfl⟩

/-- From validated sessions, translated runs report the same statuses. -/
theorem seqUpdates_translated_valid (seqs : List UInt16) (h : Translated c left right)
    (valid : left.probation = 0) :
    seqUpdates right (seqs.map (· + c)) = seqUpdates left seqs := by
  induction seqs generalizing left right with
  | nil => rfl
  | cons seq rest ih =>
    have ⟨status, next⟩ := seqUpdate_translated_valid h valid seq
    simp only [List.map_cons, seqUpdates, status]
    rw [ih next (seqUpdate_keeps_valid valid seq)]

/-- From sessions one packet short of validation, translated runs that both avoid the
wrap report the same statuses. -/
theorem seqUpdates_translated_probation (seqs : List UInt16) (h : Translated c left right)
    (last : left.probation = 1) (leftAvoids : firstInSequence left.maxSeq seqs ≠ some 0)
    (rightAvoids : firstInSequence right.maxSeq (seqs.map (· + c)) ≠ some 0) :
    seqUpdates right (seqs.map (· + c)) = seqUpdates left seqs := by
  induction seqs generalizing left right with
  | nil => rfl
  | cons seq rest ih =>
    have successor : seq + c = right.maxSeq + 1 ↔ seq = left.maxSeq + 1 := by
      rw [h.maxSeq]
      constructor <;> intro e <;> grind
    simp only [List.map_cons, firstInSequence, successor] at leftAvoids rightAvoids
    have inside : seq = left.maxSeq + 1 → seq ≠ 0 ∧ seq + c ≠ 0 := by
      intro next
      simp only [next, if_true, ne_eq, Option.some.injEq] at leftAvoids rightAvoids ⊢
      exact ⟨leftAvoids, rightAvoids⟩
    have ⟨status, next⟩ := seqUpdate_translated_probation h (by rw [last]; decide) seq inside
    have ⟨leftMax, leftProbation⟩ := seqUpdate_probation last seq
    simp only [List.map_cons, seqUpdates, status]
    by_cases validated : seq = left.maxSeq + 1
    · rw [if_pos ⟨validated, (inside validated).1⟩] at leftProbation
      rw [seqUpdates_translated_valid rest next leftProbation]
    · rw [if_neg (fun e => validated e.1)] at leftProbation
      simp only [validated, if_false] at leftAvoids rightAvoids
      rw [ih next leftProbation (by rw [leftMax]; exact leftAvoids)
        (by rw [next.maxSeq, leftMax]; exact rightAvoids)]

/-- When the left run meets the wrap at the end of its probation, the right run, moved
by a nonzero constant, does not meet it there and the statuses differ. -/
theorem seqUpdates_differ (moved : c ≠ 0) (seqs : List UInt16) (h : Translated c left right)
    (last : left.probation = 1) (wraps : firstInSequence left.maxSeq seqs = some 0) :
    seqUpdates right (seqs.map (· + c)) ≠ seqUpdates left seqs := by
  induction seqs generalizing left right with
  | nil => simp [firstInSequence] at wraps
  | cons seq rest ih =>
    simp only [firstInSequence] at wraps
    simp only [List.map_cons, seqUpdates, ne_eq, List.cons.injEq, not_and]
    by_cases next : seq = left.maxSeq + 1
    · rw [if_pos next, Option.some.injEq] at wraps
      intro status
      have successor : seq + c = right.maxSeq + 1 ∧ seq + c ≠ 0 := by
        rw [h.maxSeq, wraps]
        constructor <;> grind
      have hlast : right.probation = 1 := h.probation.trans last
      have leftBad := (seqUpdate_probation_bad last seq).mpr (fun e => e.2 wraps)
      rw [← status] at leftBad
      exact absurd successor ((seqUpdate_probation_bad hlast (seq + c)).mp leftBad)
    · rw [if_neg next] at wraps
      have ⟨_, translated⟩ := seqUpdate_translated_probation h (by rw [last]; decide) seq
        (fun e => absurd e next)
      have ⟨leftMax, leftProbation⟩ := seqUpdate_probation last seq
      rw [if_neg (fun e => next e.1)] at leftProbation
      exact fun _ => ih translated leftProbation (by rw [leftMax]; exact wraps)

/-- The first update of a fresh session leaves one probation packet to go and remembers
the number; its status says whether the number was 0. -/
theorem seqUpdate_init (sess : RtpSeqSession) (first : UInt16) :
    (seqUpdate (seqInit sess first) first).1.maxSeq = first ∧
      (seqUpdate (seqInit sess first) first).1.badSeq = rtpSeqMod + 1 ∧
      (seqUpdate (seqInit sess first) first).1.probation = 1 ∧
      (seqUpdate (seqInit sess first) first).2 =
        if first = 0 then { probation := true, bad := true, outorder := true }
        else { probation := true, diff := 1 } := by
  have successor : first = first - 1 + 1 := by grind
  have different : first ≠ first - 1 := by
    intro e
    have : (1 : UInt16) = 0 := by grind
    contradiction
  simp only [seqUpdate, seqInit, seqRestart, inSequence_iff, ← successor]
  by_cases zero : first = 0
  · subst zero
    exact ⟨rfl, rfl, rfl, rfl⟩
  · simp [zero, minSequential]

/-- Initialised sessions after their first update are translated. -/
theorem seqUpdate_init_translated (c : UInt16) (left right : RtpSeqSession) (first : UInt16) :
    Translated c (seqUpdate (seqInit left first) first).1
      (seqUpdate (seqInit right (first + c)) (first + c)).1 := by
  have ⟨leftMax, leftBad, leftProbation, _⟩ := seqUpdate_init left first
  have ⟨rightMax, rightBad, rightProbation, _⟩ := seqUpdate_init right (first + c)
  refine ⟨by rw [leftMax, rightMax], ?_, by rw [leftProbation, rightProbation]⟩
  rw [leftBad, rightBad]
  exact .initial

/-- A run that meets the wrap on probation is told apart from every other translate. -/
theorem seqTrack_differ (moved : c ≠ 0) (left right : RtpSeqSession) (seqs : List UInt16)
    (same : seqTrack right (seqs.map (· + c)) = seqTrack left seqs) :
    ProbationAvoidsWrap seqs := by
  cases seqs with
  | nil => trivial
  | cons first rest =>
    have ⟨leftMax, _, leftProbation, leftStatus⟩ := seqUpdate_init left first
    have ⟨_, _, _, rightStatus⟩ := seqUpdate_init right (first + c)
    simp only [List.map_cons, seqTrack, seqUpdates, List.cons.injEq] at same
    refine ⟨fun zero => ?_, fun wraps => ?_⟩
    · have nonzero : first + c ≠ 0 := by rw [zero]; grind
      have status := same.1
      rw [leftStatus, rightStatus, if_pos zero, if_neg nonzero] at status
      exact absurd (congrArg RtpStatus.bad status) (by decide)
    · exact seqUpdates_differ moved rest (seqUpdate_init_translated c left right first)
        leftProbation (by rw [leftMax]; exact wraps) same.2

/-- Moving every sequence number by `c` leaves every status and `diff` of the run as it
was exactly when `c` is 0 modulo 2¹⁶ or both runs avoid the wrap while on probation. -/
theorem seqTrack_translate_iff (left right : RtpSeqSession) (seqs : List UInt16) (c : UInt16) :
    seqTrack right (seqs.map (· + c)) = seqTrack left seqs ↔
      c = 0 ∨ (ProbationAvoidsWrap seqs ∧ ProbationAvoidsWrap (seqs.map (· + c))) := by
  constructor
  · intro same
    by_cases zero : c = 0
    · exact .inl zero
    · have back : (seqs.map (· + c)).map (· + -c) = seqs := by
        rw [List.map_map]
        conv_rhs => rw [← List.map_id seqs]
        apply List.map_congr_left
        intro seq _
        grind
      have moved : -c ≠ 0 := by
        intro e
        apply zero
        grind
      refine .inr ⟨seqTrack_differ zero left right seqs same, ?_⟩
      apply seqTrack_differ moved right left
      rw [back]
      exact same.symm
  · rintro (zero | ⟨leftAvoids, rightAvoids⟩)
    · subst zero
      have same : seqs.map (· + (0 : UInt16)) = seqs := by simp
      rw [same]
      cases seqs with
      | nil => rfl
      | cons first rest => rfl
    · cases seqs with
      | nil => rfl
      | cons first rest =>
        have ⟨leftMax, _, leftProbation, leftStatus⟩ := seqUpdate_init left first
        have ⟨rightMax, _, _, rightStatus⟩ := seqUpdate_init right (first + c)
        have statuses := seqUpdates_translated_probation rest
          (seqUpdate_init_translated c left right first) leftProbation
          (by rw [leftMax]; exact leftAvoids.2) (by rw [rightMax]; exact rightAvoids.2)
        simp only [List.map_cons, seqTrack, seqUpdates, statuses]
        rw [leftStatus, rightStatus, if_neg leftAvoids.1, if_neg rightAvoids.1]

/-- A stream that starts at 65535 and crosses the wrap in sequence is reported otherwise
than the same stream started at 1. -/
theorem seqTrack_wrap_differs :
    seqTrack ⟨0, 0, 0, 0, 0⟩ ([65535, 0, 1, 2].map (· + 2)) ≠
      seqTrack ⟨0, 0, 0, 0, 0⟩ [65535, 0, 1, 2] := by
  decide

end Pjmedia.Rtp
