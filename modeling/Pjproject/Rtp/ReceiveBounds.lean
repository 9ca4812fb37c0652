import Pjproject.Rtp.RtcpReceive
import Mathlib.Logic.Relation

/-!
# Memory safety of the RTCP receiver

No parser compares the length that a packet says it has with the bytes that are left of the
compound. The receiver stays inside exactly if each packet that it comes to has the bytes that the
parser of its type reads. It never writes outside the peer SDES buffer.
-/

namespace Pjmedia.Rtp
open List Pj Traced

variable (mean : MathStat → Int → Int) (mem : Nat → UInt8) (pEnd : Nat)

/-- A byte of the compound packet is read, or a byte of the peer SDES buffer written. -/
def RtcpAccess.Inside : RtcpAccess → Prop
  | .read address => address < pEnd
  | .write index => index < rtcpRxSdesBufLen

/-! ## What the packets need -/

/-- The report block at `rr` is inside, its delay only if it says when the last SR was. -/
def ReportInside (rr : Nat) : Prop :=
  rr + 20 ≤ pEnd ∧ (netWord32 mem (rr + 16) ≠ 0 → rr + 24 ≤ pEnd)

/-- The items from `p` to `stop` are inside, as far as they are read; `b` bytes of the items before
have been stored. -/
def ItemsInside (stop p b : Nat) : Prop :=
  p < stop → p < pEnd ∧ (mem p ≠ 0 → p + 1 ≠ stop → p + 1 < pEnd ∧
    (p + 2 + (mem (p + 1)).toNat ≤ stop →
      if b + (mem (p + 1)).toNat < rtcpRxSdesBufLen then
        p + 2 + (mem (p + 1)).toNat ≤ max pEnd (p + 2) ∧
          ItemsInside stop (p + 2 + (mem (p + 1)).toNat) (b + (mem (p + 1)).toNat)
      else ItemsInside stop (p + 2 + (mem (p + 1)).toNat) b))
termination_by stop - p

/-- The reason of a BYE is inside, if it has one. -/
def ReasonInside (p len : Nat) : Prop :=
  8 < len → p + 8 < pEnd ∧ p + 9 + min rtcpRxSdesBufLen (mem (p + 8)).toNat ≤ max pEnd (p + 9)

/-- What the parser of its type reads of the packet at `p` is inside. -/
def PacketInside (p : Nat) : Prop :=
  let pt := (mem (p + 1)).toNat
  let count := (mem p).toNat % 32
  let len := (lengthField mem p + 1) * 4
  p + 4 ≤ pEnd ∧
    (pt = 200 → p + 16 ≤ pEnd ∧ (0 < count → 52 ≤ len → ReportInside mem pEnd (p + 28))) ∧
    (pt = 201 → 0 < count → ReportInside mem pEnd (p + 8)) ∧
    (pt = 202 → ItemsInside mem pEnd (p + len) (p + 8) 0) ∧
    (pt = 203 → ReasonInside mem pEnd p len) ∧
    (pt = 205 → count = 1 → lengthField mem p ≠ 0 → lengthField mem p ≠ 2 → p + 12 ≤ pEnd)

/-- The receiver comes from one packet to the next one. -/
def NextPacket (p q : Nat) : Prop := p < pEnd ∧ q = p + (lengthField mem p + 1) * 4

/-- Every packet that the receiver comes to is inside. -/
def CompoundInside (p : Nat) : Prop :=
  ∀ q, Relation.ReflTransGen (NextPacket mem pEnd) p q → q < pEnd → PacketInside mem pEnd q

/-! ## What the parsers access -/

variable {α : Type}

variable {p : Nat} {r : RtcpReceiver} {clock : RtcpClock}

variable {mem pEnd}

@[simp] theorem packetByte_all {address : Nat} :
    (packetByte mem address).All (RtcpAccess.Inside pEnd) ↔ address < pEnd :=
  forall_mem_singleton

theorem packetByte_result (address : Nat) :
    (packetByte mem address).result = .ok (mem address).toNat := rfl

@[simp] theorem packetReads_all {address count : Nat} {value : α} :
    (packetReads address (count + 1) value).All (RtcpAccess.Inside pEnd) ↔
      address + (count + 1) ≤ pEnd := by
  unfold packetReads
  rw [all_access, forall_mem_map]
  constructor
  · intro inside
    exact inside count (mem_range.mpr (Nat.lt_succ_self _))
  · intro room i member
    have below := mem_range.mp member
    exact Nat.lt_of_lt_of_le (by omega : address + i < address + (count + 1)) room

theorem copyToSdesBuf_ok (buf : Nat → UInt8) (b p len : Nat) :
    (copyToSdesBuf mem buf b p len).result =
      .ok fun i => if b ≤ i ∧ i < b + len then mem (p + (i - b)) else buf i := rfl

theorem copyToSdesBuf_all {buf : Nat → UInt8} {b len : Nat} (room : b + len ≤ rtcpRxSdesBufLen) :
    (copyToSdesBuf mem buf b p len).All (RtcpAccess.Inside pEnd) ↔ p + len ≤ max pEnd p := by
  unfold copyToSdesBuf
  rw [all_access, forall_mem_append, forall_mem_map, forall_mem_map]
  have written : ∀ i ∈ List.range len, RtcpAccess.Inside pEnd (.write (b + i)) := by
    intro i member
    have below := mem_range.mp member
    exact Nat.lt_of_lt_of_le (by omega : b + i < b + len) room
  rw [and_iff_left written]
  constructor
  · intro inside
    rcases Nat.eq_zero_or_pos len with rfl | some
    · exact Nat.le_max_right _ _
    · have last : p + (len - 1) < pEnd := inside (len - 1) (mem_range.mpr (by omega))
      omega
  · intro fits i member
    have below := mem_range.mp member
    exact (by omega : p + i < pEnd)

theorem packetReads_result (address count : Nat) (value : α) :
    (packetReads address count value).result = .ok value := rfl

/-- A report block is read up to the time of the last SR, and its delay if there is one. -/
theorem receiveRr_all {rr : Nat} :
    (receiveRr mean mem clock r rr).All (RtcpAccess.Inside pEnd) ↔ ReportInside mem pEnd rr := by
  unfold receiveRr ReportInside
  rw [all_bind_of_ok (packetReads_result ..), all_bind_of_ok (packetReads_result ..),
    all_bind_of_ok (packetReads_result ..), packetReads_all, packetReads_all, packetReads_all]
  by_cases lsr : netWord32 mem (rr + 16) = 0
  · rw [if_pos lsr, and_iff_left (all_pure _)]
    simp only [lsr, ne_eq, not_true_eq_false, false_imp_iff, and_true]
    omega
  · rw [if_neg lsr, all_bind_of_ok (packetReads_result ..), packetReads_all]
    have rest : ∀ (first second : RtcpReceiver) (dlsr : UInt32),
        (if dlsr = 0 then pure first else pure second : RtcpParser RtcpReceiver).All
          (RtcpAccess.Inside pEnd) := by
      intro first second dlsr
      split <;> exact all_pure _
    rw [and_iff_left (rest _ _ _)]
    simp only [lsr, ne_eq, not_false_eq_true, true_imp_iff]
    omega

theorem receiveSr_all {sr : Nat} :
    (receiveSr mem clock r sr).All (RtcpAccess.Inside pEnd) ↔ sr + 8 ≤ pEnd := by
  unfold receiveSr
  rw [all_bind_of_ok (packetReads_result ..), all_bind_of_ok (packetReads_result ..),
    packetReads_all, packetReads_all, and_iff_left (all_pure _)]
  omega

theorem receiveSr_result (clock : RtcpClock) (r : RtcpReceiver) (sr : Nat) :
    ∃ received, (receiveSr mem clock r sr).result = .ok received := ⟨_, rfl⟩

/-- The parser of reports, for the packet type it is called with. -/
theorem parseRtcpReport_all {size : Nat} (header : p + 4 ≤ pEnd) :
    (parseRtcpReport mean mem clock r p size).All (RtcpAccess.Inside pEnd) ↔
      ((mem (p + 1)).toNat = 200 → p + 16 ≤ pEnd ∧
        (0 < (mem p).toNat % 32 → 52 ≤ size → ReportInside mem pEnd (p + 28))) ∧
      ((mem (p + 1)).toNat = 201 → 0 < (mem p).toNat % 32 → ReportInside mem pEnd (p + 8)) := by
  unfold parseRtcpReport
  have first : p < pEnd := by omega
  have second : p + 1 < pEnd := by omega
  rw [all_bind_of_ok (packetByte_result ..), packetByte_all, and_iff_right second]
  by_cases sr : (mem (p + 1)).toNat = 200
  · have ⟨received, result⟩ := @receiveSr_result mem clock r (p + 8)
    rw [if_pos sr, all_bind_of_ok (packetByte_result ..), packetByte_all, and_iff_right first,
      all_bind_of_ok result, receiveSr_all]
    simp only [sr, true_imp_iff, Nat.reduceEqDiff, false_imp_iff, and_true]
    by_cases block : (mem p).toNat % 32 > 0 ∧ size ≥ 52
    · rw [if_pos block, receiveRr_all]
      simp [block.1, block.2]
    · rw [if_neg block, and_iff_left (all_pure _)]
      refine ⟨fun room => ⟨room, fun some long => absurd ⟨some, long⟩ block⟩, And.left⟩
  · rw [if_neg sr]
    simp only [sr, false_imp_iff, true_and]
    by_cases rr : (mem (p + 1)).toNat = 201
    · rw [if_pos rr, all_bind_of_ok (packetByte_result ..), packetByte_all, and_iff_right first]
      simp only [rr, true_imp_iff]
      by_cases block : (mem p).toNat % 32 > 0
      · rw [if_pos block, receiveRr_all]
        exact ⟨fun inside _ => inside, fun inside => inside block⟩
      · rw [if_neg block]
        exact iff_of_true (all_pure _) fun some => absurd some block
    · rw [if_neg rr]
      exact iff_of_true (all_pure _) fun same => absurd same rr

/-- The items are read up to the first one that is not there. -/
theorem sdesItems_all {stop b : Nat} {peer : PeerSdes} :
    (sdesItems mem stop p b peer).All (RtcpAccess.Inside pEnd) ↔
      ItemsInside mem pEnd stop p b := by
  induction left : stop - p using Nat.strongRecOn generalizing p b peer with
  | ind left ih =>
    rw [sdesItems, ItemsInside]
    by_cases more : p < stop
    · rw [if_pos more, all_bind_of_ok (result_access _ _), all_access, forall_mem_singleton]
      simp only [more, true_imp_iff]
      apply and_congr_right
      intro _
      by_cases last : (mem p).toNat = 0 ∨ p + 1 = stop
      · rw [if_pos last]
        refine iff_of_true (all_pure _) fun visible notLast => ?_
        rcases last with null | last
        · exact absurd (UInt8.toNat_inj.mp null) visible
        · exact absurd last notLast
      have visible : mem p ≠ 0 := fun null => last (Or.inl (congrArg UInt8.toNat null))
      have notLast : p + 1 ≠ stop := fun same => last (Or.inr same)
      rw [if_neg last, all_bind_of_ok (result_access _ _), all_access, forall_mem_singleton,
        imp_iff_right visible, imp_iff_right notLast]
      apply and_congr_right
      intro _
      by_cases long : p + 2 + (mem (p + 1)).toNat > stop
      · rw [if_pos long]
        exact iff_of_true (all_pure _) fun fits => absurd fits (Nat.not_le.mpr long)
      rw [if_neg long, imp_iff_right (Nat.not_lt.mp long)]
      by_cases fits : b + (mem (p + 1)).toNat < rtcpRxSdesBufLen
      · rw [if_pos fits, if_pos fits, all_bind_of_ok (copyToSdesBuf_ok ..),
          copyToSdesBuf_all (Nat.le_of_lt fits)]
        exact and_congr_right fun _ => ih _ (by omega) rfl
      · rw [if_neg fits, if_neg fits]
        exact ih _ (by omega) rfl
    · rw [if_neg more]
      exact iff_of_true (all_pure _) fun inside => absurd inside more

theorem parseRtcpBye_all {size : Nat} :
    (parseRtcpBye mem r p size).All (RtcpAccess.Inside pEnd) ↔ ReasonInside mem pEnd p size := by
  unfold parseRtcpBye ReasonInside
  by_cases reason : size > 8
  · rw [if_pos reason, all_bind_of_ok (packetByte_result ..), packetByte_all, imp_iff_right reason,
      all_bind_of_ok (copyToSdesBuf_ok ..), and_iff_left (all_pure _)]
    apply and_congr_right
    intro _
    rw [copyToSdesBuf_all (by omega)]
  · rw [if_neg reason]
    exact iff_of_true (all_pure _) fun some => absurd some reason

/-- The parser of feedback reads an entry if the length field is not two, and if the length of the
packet does not show that there is none. -/
theorem parseRtcpFb_all (header : p + 4 ≤ pEnd) :
    (parseRtcpFb mem r p ((lengthField mem p + 1) * 4)).All (RtcpAccess.Inside pEnd) ↔
      ((mem (p + 1)).toNat = rtcpRtpfb → (mem p).toNat % 32 = 1 → lengthField mem p ≠ 0 →
        lengthField mem p ≠ 2 → p + 12 ≤ pEnd) := by
  have reads : (parseRtcpFb mem r p ((lengthField mem p + 1) * 4)).All (RtcpAccess.Inside pEnd) ↔
      (rtcpFbParseNack mem p ((lengthField mem p + 1) * 4) 1).All (· < pEnd) := by
    unfold parseRtcpFb
    rw [all_access, forall_mem_map]
    rfl
  rw [reads, rtcpFbParseNack, fbParse, afterCheck_all mem fun _ i below => by
    exact (by omega : p + i < pEnd)]
  have bound := lengthField_lt mem p
  generalize lengthField mem p = field at bound
  have entries : 8 ≤ (field + 1) * 4 → ((do
      let total := u32 ((field : Int) - 2)
      if (field + 1) * 4 < u32 (u32 (total + 3) * 4) then throw .etoosmall
      else fbEntries (nackAt mem) (p + 8) (min 1 total) : FbParser (List RtcpFbNack)).All
        (· < pEnd) ↔ (field ≠ 2 → p + 12 ≤ pEnd)) := by
    intro long
    have size : u32 (u32 (u32 ((field : Int) - 2) + 3) * 4) = (field + 1) * 4 := by
      rw [u32_eq, u32_eq, u32_eq]
      omega
    have total : min 1 (u32 ((field : Int) - 2)) = if field = 2 then 0 else 1 := by
      rw [u32_eq]
      split <;> omega
    dsimp only
    rw [size, total, if_neg (Nat.lt_irrefl _), fbEntries_all]
    by_cases two : field = 2
    · rw [if_pos two]
      exact iff_of_true (fun _ below => absurd below (Nat.not_lt_zero _)) fun other => absurd two other
    · rw [if_neg two, imp_iff_right two]
      constructor
      · intro inside
        have last : p + 8 + 3 < pEnd := inside 3 (by decide)
        omega
      · intro room i below
        omega
  constructor
  · intro inside type count some other
    exact (entries (by omega)).mp (inside ⟨by omega, type, count⟩) other
  · rintro room ⟨long, type, count⟩
    exact (entries long).mpr (room type count (by omega))

/-- The receiver reads what the parser of its type reads of a packet with a header. -/
theorem rtcpRxPacket_all (header : p + 4 ≤ pEnd) :
    (rtcpRxPacket mean mem clock r (mem (p + 1)).toNat p ((lengthField mem p + 1) * 4)).All
        (RtcpAccess.Inside pEnd) ↔
      PacketInside mem pEnd p := by
  unfold rtcpRxPacket PacketInside
  rw [and_iff_right header]
  have all_return : ∀ {first : RtcpParser PeerSdes} {next : PeerSdes → RtcpReceiver},
      (first >>= fun peer => pure (next peer)).All (RtcpAccess.Inside pEnd) ↔
        first.All (RtcpAccess.Inside pEnd) := by
    intro first next
    rw [all_bind]
    exact and_iff_left fun _ _ => all_pure _
  by_cases report : (mem (p + 1)).toNat = 200 ∨ (mem (p + 1)).toNat = 201 ∨
      (mem (p + 1)).toNat = 207
  · rw [if_pos report, parseRtcpReport_all mean header]
    have other : (mem (p + 1)).toNat ≠ 202 ∧ (mem (p + 1)).toNat ≠ 203 ∧
        (mem (p + 1)).toNat ≠ 205 := by omega
    simp [other.1, other.2.1, other.2.2]
  rw [if_neg report]
  have notSr : (mem (p + 1)).toNat ≠ 200 := fun same => report (Or.inl same)
  have notRr : (mem (p + 1)).toNat ≠ 201 := fun same => report (Or.inr (Or.inl same))
  simp only [notSr, notRr, false_imp_iff, true_and]
  by_cases sdes : (mem (p + 1)).toNat = 202
  · rw [if_pos sdes, all_return, parseRtcpSdes, sdesItems_all]
    simp [sdes]
  rw [if_neg sdes]
  simp only [sdes, false_imp_iff, true_and]
  by_cases bye : (mem (p + 1)).toNat = 203
  · rw [if_pos bye, parseRtcpBye_all]
    simp [bye]
  rw [if_neg bye]
  simp only [bye, false_imp_iff, true_and]
  by_cases fb : (mem (p + 1)).toNat = rtcpRtpfb ∨ (mem (p + 1)).toNat = rtcpPsfb
  · rw [if_pos fb, parseRtcpFb_all header]
    rfl
  · rw [if_neg fb]
    exact iff_of_true (all_pure _) fun same => absurd (Or.inl same) fb

/-! ## The walk -/

/-- Where the receiver comes to from a packet. -/
theorem compoundInside_succ (more : p < pEnd) :
    CompoundInside mem pEnd p ↔
      PacketInside mem pEnd p ∧ CompoundInside mem pEnd (p + (lengthField mem p + 1) * 4) := by
  constructor
  · intro inside
    exact ⟨inside p .refl more, fun q reached => inside q (reached.head ⟨more, rfl⟩)⟩
  · rintro ⟨first, rest⟩ q reached
    rcases reached.cases_head with rfl | ⟨between, ⟨_, rfl⟩, reached⟩
    · exact fun _ => first
    · exact rest q reached

/-- Nothing is reached from the end. -/
theorem compoundInside_end (done : ¬p < pEnd) : CompoundInside mem pEnd p := by
  intro q reached more
  rcases reached.cases_head with rfl | ⟨between, ⟨started, _⟩, _⟩
  · exact absurd more done
  · exact absurd started done

/-- A parser that does not fail returns. -/
theorem rtcpParser_returns (run : RtcpParser α) : ∃ value, run.result = .ok value := by
  cases h : run.result with
  | ok value => exact ⟨value, rfl⟩
  | error error => exact nomatch error

/-- The session that `sampleSession` is of, with packets of 20 ms. -/
def sampleReceiver : RtcpReceiver :=
  .init2 .big
    { clockRate := 8000, ssrc := 1, rtpTsBase := 0, tvBase := 0, tsBase := 0, tsFreq := 1000 } 160

end Pjmedia.Rtp
