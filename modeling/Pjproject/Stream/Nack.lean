import Pjproject.Rtp.FbRoundTrip

/-!
# Generic NACKs of a stream

The end of `on_rx_rtp` in `stream.c`, which requests the packets of a gap, and `build_rtcp_fb`, which
puts the request into a packet.
-/

namespace Pjmedia.Stream
open Pj Rtp Traced

/-- The loop over the bitmask, with so many turns. -/
def blpOnes : Nat → UInt16
  | 0 => 0
  | turns + 1 => blpOnes turns <<< 1 ||| 1

/-- `rtcp_fb_nack` after a packet that is found `diff` behind the highest one, if one is built. -/
def onRxRtpNack (received : Nat) (sendRtcpFbNack : Bool) (seq diff : Nat) : Option RtcpFbNack :=
  if 10 ≤ received ∧ 1 < diff ∧ sendRtcpFbNack ∧ diff ≤ seq then
    some { pid := (seq : Int) - diff + 1, blp := blpOnes (diff - 1) }
  else none

/-- `build_rtcp_fb`: the buffer and the length, if something is built, and the NACK that is left. -/
def buildRtcpFb (order : ByteOrder) (session : RtcpSession) (sendRtcpFbNack : Bool)
    (nack : RtcpFbNack) (buf : List UInt8) :
    Except FbError (Option (List UInt8 × Nat) × RtcpFbNack) :=
  if sendRtcpFbNack ∧ 0 ≤ nack.pid then do
    let built ← rtcpFbBuildNack order session buf [nack]
    return (some built, { nack with pid := -1 })
  else return (none, nack)

/-- The packets that a NACK requests. -/
def Requested (nack : RtcpFbNack) (seq : Int) : Prop :=
  seq = nack.pid ∨ ∃ i < 16, nack.blp.toNat.testBit i = true ∧ seq = nack.pid + i + 1

/-- A turn adds a bit, as long as there is one. -/
theorem testBit_blpOnes {turns i : Nat} (few : turns ≤ 17) (bit : i < 16) :
    (blpOnes turns).toNat.testBit i = decide (i < turns) := by
  have each : ∀ (turns : Fin 18) (i : Fin 16),
      (blpOnes turns).toNat.testBit i = decide (i.val < turns) := by decide
  exact each ⟨turns, by omega⟩ ⟨i, bit⟩

/-- The packets that are requested for a gap of up to 17 packets are those of the gap exactly if it
is that long: for a shorter one, the packet behind it is requested too. -/
theorem nack_exact_iff {received seq diff : Nat} {sendRtcpFbNack : Bool} {nack : RtcpFbNack}
    (built : onRxRtpNack received sendRtcpFbNack seq diff = some nack) (near : diff - 1 ≤ 17) :
    (∀ lost : Int, Requested nack lost ↔ (seq : Int) - diff + 1 ≤ lost ∧ lost ≤ seq - 1) ↔
      diff = 18 := by
  unfold onRxRtpNack at built
  split at built
  · next gap =>
    cases built
    constructor
    · intro exact
      by_contra short
      have bit := testBit_blpOnes near (i := diff - 2) (by omega)
      have behind := (exact seq).mp (.inr ⟨diff - 2, by omega, by simpa [bit] using by omega, by
        dsimp only
        omega⟩)
      omega
    · rintro rfl lost
      constructor
      · intro asked
        rcases asked with rfl | ⟨i, bit, -, rfl⟩
        all_goals
          dsimp only
          omega
      · intro inside
        by_cases first : lost = (seq : Int) - 17
        · exact .inl (by dsimp only; omega)
        · obtain ⟨i, rfl⟩ : ∃ i : Nat, lost = (seq : Int) - 17 + i + 1 :=
            ⟨(lost - seq + 16).toNat, by omega⟩
          have bit : i < 16 := by omega
          refine .inr ⟨i, bit, ?_, by dsimp only; omega⟩
          rw [testBit_blpOnes near bit]
          exact decide_eq_true (by omega)
  · cases built

/-- The longest gap for which the request is exact. -/
theorem nack_exact_longest :
    ∃ nack, onRxRtpNack 10 true 100 18 = some nack ∧
      ∀ lost : Int, Requested nack lost ↔ (100 : Int) - 18 + 1 ≤ lost ∧ lost ≤ 100 - 1 :=
  ⟨_, rfl, (@nack_exact_iff 10 100 18 true _ rfl (by decide)).mpr rfl⟩

/-- The packet after one that is lost is requested, though it has been received. -/
theorem nack_requests_received :
    onRxRtpNack 10 true 100 2 = some ⟨99, 1⟩ ∧ Requested ⟨99, 1⟩ 100 :=
  ⟨rfl, .inr ⟨0, by decide, by decide, rfl⟩⟩

/-- A request asks for as many packets behind its first as the loop turned, up to 16. -/
theorem requested_blpOnes {asked : Int} (pid : Int) (turns : Nat) :
    Requested ⟨pid, blpOnes turns⟩ asked ↔ pid ≤ asked ∧ asked ≤ pid + min turns 16 := by
  have bits : ∀ i < 16, (blpOnes turns).toNat.testBit i = decide (i < turns) := by
    intro i bit
    by_cases few : turns ≤ 17
    · exact testBit_blpOnes few bit
    · have full : ∀ more, blpOnes (16 + more) = 0xffff := by
        intro more
        induction more with
        | zero => decide
        | succ more ih => rw [← Nat.add_assoc, blpOnes, ih]; decide
      have all : blpOnes turns = blpOnes 16 := by
        rw [show turns = 16 + (turns - 16) by omega, full]
        decide
      rw [all, testBit_blpOnes (by decide) bit]
      exact decide_eq_decide.mpr (by omega)
  constructor
  · rintro (rfl | ⟨i, bit, one, rfl⟩)
    · omega
    · have turn := of_decide_eq_true ((bits i bit).symm.trans one)
      dsimp only
      omega
  · rintro ⟨low, high⟩
    by_cases first : asked = pid
    · exact .inl first
    · have turn : (asked - pid - 1).toNat < turns := by omega
      refine .inr ⟨(asked - pid - 1).toNat, by omega, ?_, by dsimp only; omega⟩
      rw [bits _ (by omega)]
      exact decide_eq_true turn

/-- A request that is built is sent once. Wherever its packet arrives, it is read as one for the
packets from the first that is lost to the sixteenth behind it, or to the one that was received. -/
theorem nack_arrives {order : ByteOrder} {session : RtcpSession} {received seq diff : Nat}
    {sends : Bool} {nack left : RtcpFbNack} {buf : List UInt8} {out : Option (List UInt8 × Nat)}
    (built : onRxRtpNack received sends seq diff = some nack) (word : seq < 2 ^ 16)
    (done : buildRtcpFb order session sends nack buf = .ok (out, left)) :
    (∃ packet len, out = some (packet, len) ∧
      ∀ mem address cnt, Holds mem address packet → 1 ≤ cnt → ∃ told,
        (rtcpFbParseNack mem address len cnt).result = .ok [told] ∧
          ∀ asked : Int, Requested told asked ↔
            (seq : Int) - diff < asked ∧ asked ≤ min (seq : Int) (seq - diff + 17)) ∧
      ∀ buf', buildRtcpFb order session sends left buf' = .ok (none, left) := by
  unfold onRxRtpNack at built
  split at built
  · next gap =>
    cases built
    have low : (0 : Int) ≤ (seq : Int) - diff + 1 := by omega
    rw [buildRtcpFb, if_pos ⟨gap.2.2.1, low⟩] at done
    cases packed : rtcpFbBuildNack order session buf
        [{ pid := (seq : Int) - diff + 1, blp := blpOnes (diff - 1) }] with
    | error status =>
      rw [packed] at done
      cases done
    | ok packet =>
      rw [packed] at done
      cases done
      have past : ¬(0 : Int) ≤ -1 := by decide
      have pids : ∀ entry ∈ [RtcpFbNack.mk ((seq : Int) - diff + 1) (blpOnes (diff - 1))],
          0 ≤ entry.pid ∧ entry.pid < 2 ^ 16 := by
        intro entry member
        rw [List.mem_singleton.mp member]
        dsimp only
        omega
      refine ⟨⟨packet.1, packet.2, rfl, fun mem address cnt holds room => ⟨_, ?_, fun asked =>
        (requested_blpOnes ((seq : Int) - diff + 1) (diff - 1)).trans (by omega)⟩⟩,
        fun buf' => if_neg fun again => past again.2⟩
      exact rtcpFbNack_roundTrips order session pids (show 2 + 1 < 2 ^ 16 by decide) room buf _ _
        packed mem address holds
  · cases built

/-- A gap of two packets: the request has both and the packet that was received. -/
theorem nack_arrives_gap :
    ∃ packet len left, buildRtcpFb .big sampleSession true ⟨98, 3⟩ (List.replicate 16 0) =
      .ok (some (packet, len), left) ∧ ∀ mem, Holds mem 0 packet → ∃ told,
        (rtcpFbParseNack mem 0 len 1).result = .ok [told] ∧
          ∀ asked : Int, Requested told asked ↔ (100 : Int) - (3 : Nat) < asked ∧ asked ≤ 100 := by
  have ⟨⟨packet, len, same, read⟩, _⟩ := @nack_arrives .big sampleSession 10 100 3 true ⟨98, 3⟩ _
    (List.replicate 16 0) _ rfl (by decide) rfl
  cases same
  exact ⟨_, _, _, rfl, fun mem holds => read mem 0 1 holds (by decide)⟩

end Pjmedia.Stream
