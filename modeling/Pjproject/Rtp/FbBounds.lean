import Pjproject.Rtp.RtcpFb

/-!
# Memory safety of the RTCP feedback parsers

The count of entries is the length field less two, in unsigned arithmetic: a field below two gives
a count near 2³², and the check against the length of the packet wraps around. The bit length of
an RPSI wraps around when the padding is longer than the message.
-/

namespace Pjmedia.Rtp
open List Pj Traced

variable {α : Type} (mem : Nat → UInt8)

/-- An address of the packet `buf`. -/
def InPacket (buf length address : Nat) : Prop := buf ≤ address ∧ address < buf + length

/-- The checks of a parser pass. -/
def IsFb (buf length pt fmt : Nat) : Prop :=
  8 ≤ length ∧ (mem (buf + 1)).toNat = pt ∧ (mem buf).toNat % 32 = fmt

/-- The length field of a packet. -/
def lengthField (buf : Nat) : Nat := (netWord mem (buf + 2)).toNat

theorem fbLengthField_result (buf : Nat) :
    (fbLengthField mem buf).result = .ok (lengthField mem buf) := rfl

theorem lengthField_lt (buf : Nat) : lengthField mem buf < 2 ^ 16 := (netWord mem (buf + 2)).toNat_lt

/-- The four bytes of a header that the parsers read. -/
def HeaderGood (good : Nat → Prop) (buf : Nat) : Prop := ∀ i < 4, good (buf + i)

variable {buf : Nat}

theorem headerGood_inPacket {length : Nat} (long : 8 ≤ length) :
    HeaderGood (InPacket buf length) buf :=
  fun _ below => ⟨by omega, by omega⟩

variable {good : Nat → Prop}

/-- The checks read the header of the packet. -/
theorem fbCheck_all {length : Nat} (header : 8 ≤ length → HeaderGood good buf) (pt fmt : Nat) :
    (fbCheck mem buf length pt fmt).All good := by
  unfold fbCheck
  by_cases short : length < 8
  · rw [if_pos short]
    exact all_throw _
  have header := header (Nat.not_lt.mp short)
  rw [if_neg short, all_bind_of_ok (result_access _ _), all_access, forall_mem_singleton]
  refine ⟨header 1 (by decide), ?_⟩
  split
  · exact all_throw _
  rw [all_bind_of_ok (result_access _ _), all_access, forall_mem_singleton]
  refine ⟨header 0 (by decide), ?_⟩
  split
  · exact all_throw _
  · exact all_pure _

/-- The checks return exactly if they pass. -/
theorem fbCheck_result (buf length pt fmt : Nat) (checked : Unit) :
    (fbCheck mem buf length pt fmt).result = .ok checked ↔ IsFb mem buf length pt fmt := by
  unfold fbCheck IsFb
  by_cases short : length < 8
  · rw [if_pos short, result_throw]
    exact iff_of_false nofun fun all => absurd all.1 (Nat.not_le.mpr short)
  rw [if_neg short, result_bind_of_ok (result_access _ _), and_iff_right (Nat.not_lt.mp short)]
  by_cases type : (mem (buf + 1)).toNat = pt
  · rw [if_neg (not_not.mpr type), result_bind_of_ok (result_access _ _), and_iff_right type]
    by_cases count : (mem buf).toNat % 32 = fmt
    · rw [if_neg (not_not.mpr count), result_pure]
      exact iff_of_true rfl count
    · rw [if_pos count, result_throw]
      exact iff_of_false nofun count
  · rw [if_pos type, result_throw]
    exact iff_of_false nofun fun all => type all.1

/-- What a parser reads behind its checks. -/
theorem afterCheck_all {next : Nat → FbParser α} {length : Nat}
    (header : 8 ≤ length → HeaderGood good buf) (pt fmt : Nat) :
    (fbCheck mem buf length pt fmt >>= fun _ => fbLengthField mem buf >>= next).All good ↔
      (IsFb mem buf length pt fmt → (next (lengthField mem buf)).All good) := by
  rw [all_bind, and_iff_right (fbCheck_all mem header pt fmt)]
  have field : 8 ≤ length → (fbLengthField mem buf).All good := by
    intro long
    unfold fbLengthField
    rw [all_access, forall_mem_cons, forall_mem_singleton]
    exact ⟨header long 2 (by decide), header long 3 (by decide)⟩
  constructor
  · intro all isFb
    have rest := all () ((fbCheck_result mem buf length pt fmt ()).mpr isFb)
    exact ((all_bind_of_ok (fbLengthField_result mem buf) _).mp rest).2
  · intro rest checked returned
    have isFb := (fbCheck_result mem buf length pt fmt checked).mp returned
    exact (all_bind_of_ok (fbLengthField_result mem buf) _).mpr
      ⟨field isFb.1, rest isFb⟩

/-- What a parser returns behind its checks. -/
theorem afterCheck_result {next : Nat → FbParser α} {value : α} (buf length pt fmt : Nat) :
    (fbCheck mem buf length pt fmt >>= fun _ => fbLengthField mem buf >>= next).result = .ok value ↔
      IsFb mem buf length pt fmt ∧ (next (lengthField mem buf)).result = .ok value := by
  rw [result_bind_eq_ok]
  constructor
  · rintro ⟨checked, returned, rest⟩
    exact ⟨(fbCheck_result mem buf length pt fmt checked).mp returned, rest⟩
  · rintro ⟨isFb, rest⟩
    exact ⟨(), (fbCheck_result mem buf length pt fmt ()).mpr isFb, rest⟩

/-! ## Lists of entries -/

theorem fbEntries_result (entry : Nat → α) (p count : Nat) :
    (fbEntries entry p count).result =
      .ok ((List.range count).map fun i => entry (p + 4 * i)) := by
  induction count generalizing p with
  | zero => rfl
  | succ count ih =>
    rw [fbEntries, result_bind_of_ok (result_access _ _), result_bind_of_ok (ih (p + 4)),
      result_pure, range_succ_eq_map, map_cons, map_map]
    refine congrArg Except.ok (congrArg₂ List.cons rfl (map_congr_left fun i _ => ?_))
    exact congrArg entry (by rw [Nat.succ_eq_add_one]; omega)

/-- The entries are read from front to back. -/
theorem fbEntries_all (entry : Nat → α) (p count : Nat) :
    (fbEntries entry p count).All good ↔ ∀ i < 4 * count, good (p + i) := by
  induction count generalizing p with
  | zero => exact iff_of_true (all_pure _) fun _ below => absurd below (Nat.not_lt_zero _)
  | succ count ih =>
    rw [fbEntries, all_bind_of_ok (result_access _ _), all_bind_of_ok (fbEntries_result ..), ih,
      and_iff_left (all_pure _), all_access]
    simp only [forall_mem_cons, not_mem_nil, IsEmpty.forall_iff, implies_true, and_true]
    constructor
    · rintro ⟨⟨first, second, third, fourth⟩, rest⟩ i below
      match i with
      | 0 => exact first
      | 1 => exact second
      | 2 => exact third
      | 3 => exact fourth
      | i + 4 =>
        have later := rest i (by omega)
        rwa [Nat.add_assoc, Nat.add_comm 4 i] at later
    · intro all
      refine ⟨⟨all 0 (by omega), all 1 (by omega), all 2 (by omega), all 3 (by omega)⟩, ?_⟩
      intro i below
      have later := all (4 + i) (by omega)
      rwa [← Nat.add_assoc] at later

/-- The reads are inside the packet, and no more entries are returned than it has room for. -/
def EntriesInside (buf length : Nat) (run : FbParser (List α)) : Prop :=
  run.All (InPacket buf length) ∧
    ∀ entries, run.result = .ok entries → entries.length ≤ (length - 12) / 4

/-- The length field is at least two, or the packet has room for all the entries that the array
has room for. -/
def FieldCounts (buf length pt fmt cnt : Nat) : Prop :=
  IsFb mem buf length pt fmt → 2 ≤ lengthField mem buf ∨ cnt = 0 ∨
    4 * min cnt (2 ^ 32 - 2 + lengthField mem buf) + 12 ≤ length

/-- Reading some entries stays inside if the packet has room for them. -/
theorem fbEntries_entriesInside (entry : Nat → α) (buf length count : Nat) :
    EntriesInside buf length (fbEntries entry (buf + 8) count) ↔
      (count = 0 ∨ 4 * count + 12 ≤ length) := by
  unfold EntriesInside
  rw [fbEntries_all]
  simp only [fbEntries_result, Except.ok.injEq, forall_eq', length_map, length_range]
  constructor
  · intro inside
    omega
  · intro room
    exact ⟨fun i below => ⟨by omega, by omega⟩, by omega⟩

theorem fbParse_inside_iff (pt fmt : Nat) (entry : Nat → α) (buf length cnt : Nat) :
    EntriesInside buf length (fbParse mem pt fmt entry buf length cnt) ↔
      FieldCounts mem buf length pt fmt cnt := by
  unfold FieldCounts EntriesInside fbParse
  rw [afterCheck_all mem headerGood_inPacket]
  simp only [afterCheck_result]
  by_cases isFb : IsFb mem buf length pt fmt
  · have bound := lengthField_lt mem buf
    generalize lengthField mem buf = field at bound
    simp only [isFb, forall_const, true_and]
    by_cases counted : 2 ≤ field
    · have total : u32 ((field : Int) - 2) = field - 2 := u32_sub counted (by omega)
      have size : u32 ((u32 ((field - 2 : Nat) + 3) : Int) * 4) = field * 4 + 4 := by
        rw [u32_eq, u32_eq]
        omega
      rw [total, size, iff_true_intro (Or.inl counted : 2 ≤ field ∨ _)]
      apply iff_true_intro
      by_cases short : length < field * 4 + 4
      · rw [if_pos short]
        exact ⟨all_throw _, nofun⟩
      · rw [if_neg short]
        apply (fbEntries_entriesInside entry buf length _).mpr
        omega
    · have total : u32 ((field : Int) - 2) = 2 ^ 32 - 2 + field := by
        rw [u32_eq]
        omega
      have size : u32 ((u32 ((2 ^ 32 - 2 + field : Nat) + 3) : Int) * 4) = field * 4 + 4 := by
        rw [u32_eq, u32_eq]
        omega
      have long := isFb.1
      rw [total, size, if_neg (by omega)]
      refine (fbEntries_entriesInside entry buf length _).trans ?_
      omega
  · simp [isFb, IsEmpty.forall_iff]

/-! ## RPSI -/

/-- The reads are inside the packet, and the bit string is inside it. -/
def RpsiInside (buf length : Nat) (run : FbParser ParsedRpsi) : Prop :=
  run.All (InPacket buf length) ∧ ∀ parsed, run.result = .ok parsed →
    buf ≤ parsed.ptr ∧ parsed.ptr + parsed.slen ≤ buf + length ∧
      parsed.rpsiBitLen ≤ 8 * (length - 14)

/-- The message has room for its padding, or the packet for nearly 2³² bits. -/
def PaddingFits (buf length : Nat) : Prop :=
  IsFb mem buf length rtcpPsfb 3 → 4 * lengthField mem buf + 4 ≤ length →
    80 + (mem (buf + 8)).toNat ≤ 32 * lengthField mem buf ∨
      2 ^ 32 + 32 * lengthField mem buf + 32 ≤ 8 * length + (mem (buf + 8)).toNat

/-- The bit length of a message whose padding is not longer than it, and of another one. -/
theorem rpsiBitLen_eq (field padding : Nat) (bound : field < 2 ^ 16) (byte : padding < 256) :
    u32 ((u32 (((field : Int) - 2) * 4) : Int) * 8 - 16 - padding) =
      if 80 + padding ≤ 32 * field then 32 * field - 80 - padding
      else 2 ^ 32 + 32 * field - 80 - padding := by
  rw [u32_eq, u32_eq]
  split <;> omega

/-- The parser of an RPSI reads only bytes of the packet and returns a bit string inside it exactly
if the message has room for its padding. -/
theorem rtcpFbParseRpsi_inside_iff (buf length : Nat) :
    RpsiInside buf length (rtcpFbParseRpsi mem buf length) ↔ PaddingFits mem buf length := by
  unfold RpsiInside PaddingFits rtcpFbParseRpsi
  rw [afterCheck_all mem headerGood_inPacket]
  simp only [afterCheck_result]
  by_cases isFb : IsFb mem buf length rtcpPsfb 3
  · have bound := lengthField_lt mem buf
    have byte := (mem (buf + 8)).toNat_lt
    have long := isFb.1
    generalize lengthField mem buf = field at bound
    simp only [isFb, forall_const, true_and]
    have size : u32 ((u32 (((field : Int) - 2) * 4) : Int) + 12) = field * 4 + 4 := by
      rw [u32_eq, u32_eq]
      omega
    rw [size]
    by_cases short : length < field * 4 + 4
    · rw [if_pos short]
      exact iff_of_true ⟨all_throw _, nofun⟩ fun whole => absurd whole (by omega)
    · rw [if_neg short, all_bind_of_ok (result_access _ _), all_bind_of_ok (result_access _ _),
        result_bind_of_ok (result_access _ _), result_bind_of_ok (result_access _ _),
        rpsiBitLen_eq field _ bound byte]
      simp only [all_access, forall_mem_singleton, all_pure, and_true, result_pure,
        Except.ok.injEq, forall_eq', InPacket]
      generalize (mem (buf + 8)).toNat = padding at byte
      by_cases fits : 80 + padding ≤ 32 * field
      · rw [if_pos fits]
        have slen : u32 (((32 * field - 80 - padding : Nat) : Int) + 7) =
            32 * field - 80 - padding + 7 := by
          rw [u32_eq]
          omega
        omega
      · rw [if_neg fits]
        have slen : u32 (((2 ^ 32 + 32 * field - 80 - padding : Nat) : Int) + 7) ≤
            2 ^ 32 + 32 * field - 80 - padding + 7 := by
          rw [u32_eq]
          omega
        generalize u32 (((2 ^ 32 + 32 * field - 80 - padding : Nat) : Int) + 7) = wrapped at slen
        omega
  · simp [isFb, IsEmpty.forall_iff]

/-- The three parsers stay inside the packet exactly if its length field counts entries that are
there, and its message has room for its padding. -/
theorem rtcpFbParsers_inside_iff (buf length nackCnt sliCnt : Nat) :
    (EntriesInside buf length (rtcpFbParseNack mem buf length nackCnt) ↔
        FieldCounts mem buf length rtcpRtpfb 1 nackCnt) ∧
      (EntriesInside buf length (rtcpFbParseSli mem buf length sliCnt) ↔
        FieldCounts mem buf length rtcpPsfb 2 sliCnt) ∧
      (RpsiInside buf length (rtcpFbParseRpsi mem buf length) ↔ PaddingFits mem buf length) :=
  ⟨fbParse_inside_iff mem _ _ _ buf length nackCnt, fbParse_inside_iff mem _ _ _ buf length sliCnt,
    rtcpFbParseRpsi_inside_iff mem buf length⟩

/-- A NACK of eight bytes, with a length field of one: an entry is read behind it. -/
theorem rtcpFbParseNack_outside :
    ¬EntriesInside 0 8 (rtcpFbParseNack (fun i => [0x81, 205, 0, 1].getD i 0) 0 8 1) := by
  rintro ⟨inside, _⟩
  have read : InPacket 0 8 11 := inside 11 (by decide)
  exact absurd read.2 (by decide)

end Pjmedia.Rtp
