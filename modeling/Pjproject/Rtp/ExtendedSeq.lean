import Pjproject.Lib.Run
import Pjproject.Pjlib.Int
import Pjproject.Rtp.SeqSession

/-!
# Extended sequence numbers

The packets of a source have indices without bound, of which the wire carries the last 16 bits.
As long as each index is near the highest one so far, `cycles` and `max_seq` of a validated
session follow the highest index modulo 2³², and the status of each packet is the one its
index calls for.
-/

namespace Pjmedia.Rtp
open Pj

/-- The sequence number of a packet index. -/
def wireSeq (index : Int) : UInt16 := UInt16.ofInt index

/-- `cycles` plus `max_seq`. -/
def extendedSeq (sess : RtpSeqSession) : UInt32 := sess.cycles + sess.maxSeq.toUInt32

/-- The index is neither too far behind the highest one nor too far ahead of it. -/
def Near (highest index : Int) : Prop := -99 ≤ index - highest ∧ index - highest ≤ 2999

instance (highest index : Int) : Decidable (Near highest index) :=
  inferInstanceAs (Decidable (_ ∧ _))

/-- The status of a packet with a near index. -/
def nearStatus (highest index : Int) : RtpStatus :=
  { dup := index = highest, outorder := index < highest
    diff := UInt16.ofInt (max 0 (index - highest)) }

/-- A validated session whose highest index is `highest`, from a start with the extended number
`base` and the index `first`. -/
structure Tracks (base : UInt32) (first : Int) (sess : RtpSeqSession) (highest : Int) : Prop where
  valid : sess.probation = 0
  maxSeq : sess.maxSeq = wireSeq highest
  extended : extendedSeq sess = base + UInt32.ofInt (highest - first)

/-- The distance of a sequence number from another one is the distance of the indices. -/
theorem wireSeq_sub (index highest : Int) :
    (wireSeq index - wireSeq highest).toNat = ((index - highest) % 2 ^ 16).toNat := by
  have left := toNat_ofInt16 index
  have right := toNat_ofInt16 highest
  rw [wireSeq, wireSeq, UInt16.toNat_sub, left, right]
  omega

variable {sess : RtpSeqSession}

/-- A number ahead of the highest one is less than it exactly where the cycle ends. -/
theorem extendedSeq_ahead {highest index : Int} (maxSeq : sess.maxSeq = wireSeq highest)
    (ahead : highest ≤ index) (near : index - highest ≤ 2999) :
    extendedSeq
        { sess with
          cycles := if wireSeq index < sess.maxSeq then sess.cycles + rtpSeqMod else sess.cycles
          maxSeq := wireSeq index } =
      extendedSeq sess + UInt32.ofInt (index - highest) := by
  have old := toNat_ofInt16 highest
  have new := toNat_ofInt16 index
  have delta := toNat_ofInt32 (index - highest)
  have cycle : rtpSeqMod.toNat = 2 ^ 16 := by decide
  have cycles := sess.cycles.toNat_lt
  apply UInt32.toNat_inj.mp
  simp only [extendedSeq, maxSeq, wireSeq, UInt32.toNat_add, UInt16.toNat_toUInt32,
    UInt16.lt_iff_toNat_lt]
  split
  · rw [UInt32.toNat_add, cycle]
    omega
  · omega

/-- One update with a near index. -/
theorem seqUpdate_near {base : UInt32} {first highest index : Int}
    (h : Tracks base first sess highest) (near : Near highest index) :
    Tracks base first (seqUpdate sess (wireSeq index)).1 (max highest index) ∧
      (seqUpdate sess (wireSeq index)).2 = nearStatus highest index := by
  have ⟨valid, maxSeq, extended⟩ := h
  have ⟨behind, ahead⟩ := near
  have delta := wireSeq_sub index highest
  rw [← maxSeq] at delta
  have limit : rtpSeqMod.toNat - maxMisorder = 65436 := by decide
  dsimp only [seqUpdate]
  rw [if_neg (not_not.mpr valid)]
  simp only [← UInt16.toNat_inj, UInt16.toNat_zero, limit, maxDropout, delta]
  rcases Int.lt_trichotomy index highest with lower | same | higher
  · rw [if_neg (by omega), if_neg (by omega), if_neg (by omega)]
    have highest_eq : max highest index = highest := by omega
    have status : nearStatus highest index = { outorder := true } := by
      have no_diff : max 0 (index - highest) = 0 := by omega
      simp [nearStatus, lower, no_diff, show index ≠ highest by omega, UInt16.ofInt]
    rw [highest_eq, status]
    exact ⟨⟨valid, maxSeq, extended⟩, rfl⟩
  · rw [if_pos (by omega)]
    have highest_eq : max highest index = highest := by omega
    have status : nearStatus highest index = { dup := true } := by
      simp [nearStatus, same, UInt16.ofInt]
    rw [highest_eq, status]
    exact ⟨⟨valid, maxSeq, extended⟩, rfl⟩
  · rw [if_neg (by omega), if_pos (by omega)]
    have highest_eq : max highest index = index := by omega
    have moved := extendedSeq_ahead maxSeq (by omega) ahead
    have diff : wireSeq index - sess.maxSeq = UInt16.ofInt (max 0 (index - highest)) := by
      apply UInt16.toNat_inj.mp
      have value := toNat_ofInt16 (max 0 (index - highest))
      omega
    have status : nearStatus highest index =
        { diff := UInt16.ofInt (max 0 (index - highest)) } := by
      simp [nearStatus, show ¬index < highest by omega, show index ≠ highest by omega]
    rw [highest_eq, status, diff]
    refine ⟨⟨valid, rfl, ?_⟩, rfl⟩
    have total : highest - first + (index - highest) = index - first := by omega
    rw [moved, extended, UInt32.add_assoc, ← UInt32.ofInt_add, total]

/-! ## Runs -/

/-- A session after one update for each index. -/
def seqFeed (sess : RtpSeqSession) (indices : List Int) : RtpSeqSession :=
  indices.foldl (fun sess index => (seqUpdate sess (wireSeq index)).1) sess

/-- Updates with near indices keep the session tracking the highest one. -/
theorem seqFeed_tracks {base : UInt32} {first : Int} (indices : List Int) {highest : Int}
    (h : Tracks base first sess highest) (near : Run.Meets max Near highest indices) :
    Tracks base first (seqFeed sess indices) (indices.foldl max highest) := by
  induction indices generalizing sess highest with
  | nil => exact h
  | cons index rest ih => exact ih (seqUpdate_near h near.1).1 near.2

/-- After every update of a validated session with near indices, `cycles` plus `max_seq` follow the
highest index, and the status is the one of the index. -/
theorem seqUpdate_extended {sess : RtpSeqSession} (valid : sess.probation = 0) {initial : Int}
    (maxSeq : sess.maxSeq = wireSeq initial) (before : List Int) (index : Int)
    (near : Run.Meets max Near initial (before ++ [index])) :
    extendedSeq (seqUpdate (seqFeed sess before) (wireSeq index)).1 =
        extendedSeq sess + UInt32.ofInt ((before ++ [index]).foldl max initial - initial) ∧
      ((seqUpdate (seqFeed sess before) (wireSeq index)).2.diff.toNat : Int) =
        max 0 (index - before.foldl max initial) ∧
      ((seqUpdate (seqFeed sess before) (wireSeq index)).2.dup = true ↔
        index = before.foldl max initial) ∧
      ((seqUpdate (seqFeed sess before) (wireSeq index)).2.outorder = true ↔
        index < before.foldl max initial) ∧
      (seqUpdate (seqFeed sess before) (wireSeq index)).2.bad = false ∧
      (seqUpdate (seqFeed sess before) (wireSeq index)).2.restart = false := by
  have start : Tracks (extendedSeq sess) initial sess initial :=
    ⟨valid, maxSeq, by simp [UInt32.ofInt]⟩
  have ⟨earlier, last⟩ := Run.meets_append.mp near
  have ⟨tracks, status⟩ := seqUpdate_near (seqFeed_tracks before start earlier) last.1
  have highest : (before ++ [index]).foldl max initial = max (before.foldl max initial) index := by
    rw [List.foldl_append]
    rfl
  have diff := toNat_ofInt16 (max 0 (index - before.foldl max initial))
  have bound := last.1.2
  rw [status, highest]
  refine ⟨tracks.extended, ?_, by simp [nearStatus], by simp [nearStatus], rfl, rfl⟩
  rw [nearStatus, diff]
  omega

/-- A number that crosses the wrap twice, once late. -/
theorem seqUpdate_extended_wrapped :
    extendedSeq (seqUpdate (seqFeed ⟨65534, 0, 0, 0, 0⟩ [65537]) (wireSeq 65535)).1 =
      extendedSeq ⟨65534, 0, 0, 0, 0⟩ + UInt32.ofInt 3 :=
  (@seqUpdate_extended ⟨65534, 0, 0, 0, 0⟩ rfl 65534 (by decide) [65537] 65535 (by decide)).1

end Pjmedia.Rtp
