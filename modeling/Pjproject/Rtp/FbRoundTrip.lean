import Pjproject.Rtp.FbBounds

/-!
# RTCP feedback round trips

What a builder writes, the parser of the same message returns. The packet ID of a NACK is written
as 16 bits, so that only a sequence number is returned.
-/

namespace Pjmedia.Rtp
open List Pj Traced

variable {α : Type} {mem : Nat → UInt8}

/-! ## Headers -/

variable {order : ByteOrder}

variable {address : Nat}

/-- A word in network order is read back. -/
theorem netWord_of_holds {word : UInt16}
    (holds : Holds mem address (store16 order (pjHtons order word))) :
    netWord mem address = word := by
  have bound := word.toNat_lt
  apply UInt16.toNat_inj.mp
  cases order with
  | big =>
    obtain ⟨first, second, _⟩ := holds
    simp only [netWord, first, second, pjHtons, UInt16.toNat_ofNat', UInt8.toNat_ofNat']
    omega
  | little =>
    obtain ⟨first, second, _⟩ := holds
    have low : (word.toNat % 256 * 256 + word.toNat / 256) % 2 ^ 8 = word.toNat / 256 := by omega
    have high : (word.toNat % 256 * 256 + word.toNat / 256) / 256 % 2 ^ 8 = word.toNat % 256 := by
      omega
    simp only [netWord, first, second, pjHtons, swap16_toNat, UInt16.toNat_ofNat',
      UInt8.toNat_ofNat', low, high, Nat.div_add_mod']
    exact Nat.mod_eq_of_lt bound

theorem RtcpCommon.length_bytes (order : ByteOrder) (common : RtcpCommon) :
    (common.bytes order).length = 8 := by
  rw [bytes, length_cons, length_cons, length_append, length_store16,
    length_store32]

/-- A packet that a builder returns passes the checks of the parser of its type and FMT, and holds
the length and the control information that it was built with. -/
structure Built (mem : Nat → UInt8) (address pt fmt len : Nat) (fci : List UInt8) : Prop where
  isFb : IsFb mem address len pt fmt
  field : lengthField mem address = len / 4 - 1
  fci : Holds mem (address + 8) fci

theorem fbBuild_built {session : RtcpSession} {buf fci packet : List UInt8}
    {pt fmt len len' : Nat} (type : pt < 256) (count : fmt < 32) (words : 12 ≤ len)
    (fits : len / 4 - 1 < 2 ^ 16)
    (built : fbBuild order session buf pt fmt len fci = .ok (packet, len'))
    (holds : Holds mem address packet) : len' = len ∧ Built mem address pt fmt len fci := by
  unfold fbBuild at built
  by_cases small : len > buf.length
  · rw [if_pos small] at built
    cases built
  rw [if_neg small] at built
  cases built
  refine ⟨rfl, ?_⟩
  unfold overwrite at holds
  rw [holds_append, holds_append, RtcpCommon.length_bytes] at holds
  have ⟨⟨header, control⟩, _⟩ := holds
  have ⟨first, second, rest⟩ := header
  have length := (holds_append.mp rest).1
  dsimp only at first second length
  refine ⟨⟨by omega, ?_, ?_⟩, ?_, control⟩
  · rw [second, UInt8.toNat_ofNat']
    exact Nat.mod_eq_of_lt type
  · rw [first, UInt8.toNat_ofNat']
    omega
  · rw [lengthField, netWord_of_holds length, toNat_ofInt16]
    omega

/-! ## Entries -/

variable {cnt : Nat}

section
variable {entry : Nat → α} {bytes : α → List UInt8} {entries : List α}
  (four : ∀ value, (bytes value).length = 4)
  (back : ∀ value ∈ entries, ∀ address, Holds mem address (bytes value) → entry address = value)
include four back

/-- Bytes of entries, read at the address of each one. -/
theorem entries_of_holds (holds : Holds mem address (entries.flatMap bytes)) :
    (List.range entries.length).map (fun i => entry (address + 4 * i)) = entries := by
  induction entries generalizing address with
  | nil => rfl
  | cons value rest ih =>
    rw [flatMap_cons, holds_append, four] at holds
    have later := ih (fun value member => back value (mem_cons_of_mem _ member)) holds.2
    rw [length_cons, range_succ_eq_map, map_cons, map_map]
    apply congrArg₂ List.cons (back value mem_cons_self address holds.1)
    refine (map_congr_left fun i _ => ?_).trans later
    exact congrArg entry (by rw [Nat.succ_eq_add_one]; omega)

/-- A list of entries that is built is parsed. -/
theorem fbParse_of_built {pt fmt : Nat} (room : entries.length ≤ cnt)
    (fits : 2 + entries.length < 2 ^ 16)
    (built : Built mem address pt fmt (12 + 4 * entries.length) (entries.flatMap bytes)) :
    (fbParse mem pt fmt entry address (12 + 4 * entries.length) cnt).result = .ok entries := by
  have field : lengthField mem address = 2 + entries.length := by
    rw [built.field]
    omega
  have total : u32 (((2 + entries.length : Nat) : Int) - 2) = entries.length := by
    rw [u32_eq]
    omega
  have size : u32 ((u32 ((entries.length : Int) + 3) : Int) * 4) = 12 + 4 * entries.length := by
    rw [u32_eq, u32_eq]
    omega
  unfold fbParse
  rw [afterCheck_result]
  refine ⟨built.isFb, ?_⟩
  rw [field, total]
  dsimp only
  rw [size, if_neg (Nat.lt_irrefl _), Nat.min_eq_right room, fbEntries_result,
    entries_of_holds four back built.fci]

end

/-- Whatever buffer a packet is built in, it is parsed to what it was built from. -/
def RoundTrips (build : List UInt8 → Except FbError (List UInt8 × Nat))
    (parse : (Nat → UInt8) → Nat → Nat → Except FbError α) (value : α) : Prop :=
  ∀ buf packet len, build buf = .ok (packet, len) →
    ∀ mem address, Holds mem address packet → parse mem address len = .ok value

/-! ## NACK -/

theorem nackAt_of_holds {nack : RtcpFbNack} (low : 0 ≤ nack.pid) (high : nack.pid < 2 ^ 16)
    (holds : Holds mem address (nackBytes order nack)) :
    nackAt mem address = nack := by
  have ⟨pid, blp⟩ := holds_append.mp holds
  rw [length_store16] at blp
  have same : ((UInt16.ofInt nack.pid).toNat : Int) = nack.pid := by
    rw [toNat_ofInt16]
    omega
  rw [nackAt, netWord_of_holds pid, netWord_of_holds blp, same]

theorem rtcpFbNack_roundTrips (order : ByteOrder) (session : RtcpSession) {nack : List RtcpFbNack}
    (pids : ∀ entry ∈ nack, 0 ≤ entry.pid ∧ entry.pid < 2 ^ 16) (fits : 2 + nack.length < 2 ^ 16)
    (room : nack.length ≤ cnt) :
    RoundTrips (rtcpFbBuildNack order session · nack)
      (fun mem address len => (rtcpFbParseNack mem address len cnt).result) nack := by
  intro buf packet len built mem address holds
  unfold rtcpFbBuildNack at built
  split at built
  · cases built
  have words : u32 ((3 + nack.length) * 4) = 12 + 4 * nack.length := by
    rw [u32_eq]
    omega
  rw [words] at built
  obtain ⟨rfl, written⟩ := fbBuild_built (by decide) (by decide) (by omega) (by omega) built holds
  have four : ∀ entry, (nackBytes order entry).length = 4 := fun entry => by
    rw [nackBytes, length_append, length_store16, length_store16]
  exact fbParse_of_built four
    (fun entry member _ => nackAt_of_holds (pids entry member).1 (pids entry member).2) room fits
    written

/-! ## SLI -/

/-- The fields of an SLI fit in their bits. -/
structure RtcpFbSli.Fits (sli : RtcpFbSli) : Prop where
  first : sli.first.toNat < 2 ^ 13
  number : sli.number.toNat < 2 ^ 13
  pictId : sli.pictId.toNat < 2 ^ 6

/-- The low bits of a number. -/
theorem and_mask (bits value : Nat) : value &&& (2 ^ bits - 1) = value % 2 ^ bits :=
  Nat.and_two_pow_sub_one_eq_mod value bits

/-- Bits in front of others. -/
theorem or_eq_add {high low bits : Nat} (h : low < 2 ^ bits) :
    high * 2 ^ bits ||| low = high * 2 ^ bits + low := by
  rw [← Nat.shiftLeft_eq, Nat.shiftLeft_add_eq_or_of_lt h]

/-- The four bytes of an entry. -/
theorem sliBytes_toNat {sli : RtcpFbSli} (fits : sli.Fits) :
    (sliBytes sli).map UInt8.toNat =
      [sli.first.toNat / 32, sli.first.toNat % 32 * 8 + sli.number.toNat / 1024,
        sli.number.toNat / 4 % 256, sli.number.toNat % 4 * 64 + sli.pictId.toNat] := by
  have ⟨first, number, pictId⟩ := fits
  have byte (value : Nat) : value &&& 255 = value % 256 := and_mask 8 value
  have low5 (value : Nat) : value &&& 31 = value % 32 := and_mask 5 value
  have low3 (value : Nat) : value &&& 7 = value % 8 := and_mask 3 value
  have low2 (value : Nat) : value &&& 3 = value % 4 := and_mask 2 value
  have low6 (value : Nat) : value &&& 63 = value % 64 := and_mask 6 value
  simp only [sliBytes, map_cons, map_nil, UInt8.toNat_or, UInt8.toNat_and,
    UInt16.toNat_toUInt8, UInt16.toNat_and, UInt16.toNat_shiftRight, UInt16.toNat_shiftLeft,
    UInt16.reduceToNat, UInt8.reduceToNat, Nat.reduceMod, byte, low5, low3, low2, low6,
    Nat.shiftRight_eq_div_pow, Nat.shiftLeft_eq, Nat.reducePow]
  have high3 : sli.first.toNat % 32 * 8 % 65536 % 256 = sli.first.toNat % 32 * 2 ^ 3 := by omega
  have high2 : sli.number.toNat % 4 * 64 % 65536 % 256 = sli.number.toNat % 4 * 2 ^ 6 := by omega
  rw [high3, high2, or_eq_add (by omega), or_eq_add (by omega)]
  simp only [List.cons.injEq, and_true]
  refine ⟨?_, ?_, ?_, ?_⟩ <;> omega

/-- The high bits of a byte. -/
theorem high_bits (byte : UInt8) :
    ((byte &&& 0xF8) >>> 3).toNat = byte.toNat / 8 ∧
      ((byte &&& 0xC0) >>> 6).toNat = byte.toNat / 64 := by
  have bound := byte.toNat_lt
  have five (value : Nat) : value &&& 31 = value % 32 := and_mask 5 value
  have two (value : Nat) : value &&& 3 = value % 4 := and_mask 2 value
  simp only [UInt8.toNat_shiftRight, UInt8.toNat_and, UInt8.reduceToNat, Nat.reduceMod,
    Nat.shiftRight_and_distrib, Nat.reduceShiftRight, five, two]
  omega

theorem sliAt_of_holds {sli : RtcpFbSli} (fits : sli.Fits)
    (holds : Holds mem address (sliBytes sli)) : sliAt mem address = sli := by
  have ⟨first, second, third, fourth, _⟩ := holds
  have bytes := sliBytes_toNat fits
  simp only [sliBytes, map_cons, map_nil, List.cons.injEq, and_true] at bytes
  rw [← first, ← second, ← third, ← fourth] at bytes
  have ⟨first, second, third, fourth⟩ := bytes
  have ⟨firstFits, numberFits, pictIdFits⟩ := fits
  have low3 (value : Nat) : value &&& 7 = value % 8 := and_mask 3 value
  have low6 (value : Nat) : value &&& 63 = value % 64 := and_mask 6 value
  have five := (high_bits (mem (address + 1))).1
  have two := (high_bits (mem (address + 3))).2
  change (mem (address + 2)).toNat = _ at third
  change (mem (address + 3)).toNat = _ at fourth
  have first_eq : (sliAt mem address).first = sli.first := by
    apply UInt16.toNat_inj.mp
    simp only [sliAt, UInt16.toNat_add, UInt16.toNat_shiftLeft, UInt8.toNat_toUInt16, five,
      UInt16.reduceToNat, Nat.reduceMod, Nat.shiftLeft_eq]
    omega
  have number_eq : (sliAt mem address).number = sli.number := by
    apply UInt16.toNat_inj.mp
    simp only [sliAt, UInt16.toNat_add, UInt16.toNat_shiftLeft, UInt8.toNat_toUInt16, two,
      UInt16.reduceToNat, Nat.reduceMod, Nat.shiftLeft_eq, UInt8.toNat_and, UInt8.reduceToNat,
      low3]
    omega
  have pictId_eq : (sliAt mem address).pictId = sli.pictId := by
    apply UInt8.toNat_inj.mp
    simp only [sliAt, UInt8.toNat_and, UInt8.reduceToNat, low6]
    omega
  calc sliAt mem address
      = ⟨(sliAt mem address).first, (sliAt mem address).number, (sliAt mem address).pictId⟩ := rfl
    _ = ⟨sli.first, sli.number, sli.pictId⟩ := by rw [first_eq, number_eq, pictId_eq]

theorem rtcpFbSli_roundTrips (order : ByteOrder) (session : RtcpSession) {sli : List RtcpFbSli}
    (fields : ∀ entry ∈ sli, entry.Fits) (fits : 2 + sli.length < 2 ^ 16)
    (room : sli.length ≤ cnt) :
    RoundTrips (rtcpFbBuildSli order session · sli)
      (fun mem address len => (rtcpFbParseSli mem address len cnt).result) sli := by
  intro buf packet len built mem address holds
  unfold rtcpFbBuildSli at built
  split at built
  · cases built
  have words : u32 ((3 + sli.length) * 4) = 12 + 4 * sli.length := by
    rw [u32_eq]
    omega
  rw [words] at built
  obtain ⟨rfl, written⟩ := fbBuild_built (by decide) (by decide) (by omega) (by omega) built holds
  exact fbParse_of_built (fun _ => rfl)
    (fun entry member _ => sliAt_of_holds (fields entry member)) room fits written

/-! ## RPSI -/

variable {rpsi : RtcpFbRpsi}

/-- A message whose string has the bytes of its bits. -/
structure RtcpFbRpsi.Proper (rpsi : RtcpFbRpsi) : Prop where
  pt : rpsi.pt.toNat < 128
  length : rpsi.rpsi.length = (rpsi.rpsiBitLen + 7) / 8

/-- The whole bytes of a string and the one that its last bits are in. -/
theorem bitString_bytes (proper : rpsi.Proper) :
    rpsi.rpsi.take (rpsi.rpsiBitLen / 8) ++
        (if rpsi.rpsiBitLen % 8 ≠ 0 then [rpsi.rpsi.getD (rpsi.rpsiBitLen / 8) 0] else []) =
      rpsi.rpsi := by
  have length := proper.length
  by_cases whole : rpsi.rpsiBitLen % 8 ≠ 0
  · have last : rpsi.rpsiBitLen / 8 < rpsi.rpsi.length := by omega
    rw [if_pos whole, getD_eq_getElem?_getD, getElem?_eq_getElem last, Option.getD_some,
      take_append_getElem, take_of_length_le]
    omega
  · rw [if_neg whole, append_nil, take_of_length_le]
    omega

theorem rpsiBytes_eq (proper : rpsi.Proper) (padlen : Nat) :
    rpsiBytes rpsi padlen =
      UInt8.ofNat padlen :: (rpsi.pt &&& 0x7F) :: (rpsi.rpsi ++ List.replicate (padlen / 8) 0) := by
  rw [rpsiBytes, cons_append, cons_append, cons_append, cons_append,
    bitString_bytes proper]

/-- The parser of an RPSI, where its message has room for its padding. -/
theorem rtcpFbParseRpsi_result {len words padlen : Nat} (short : words < 2 ^ 16 - 2)
    (long : len = 12 + 4 * words) (isFb : IsFb mem address len rtcpPsfb 3)
    (field : lengthField mem address = 2 + words) (padding : (mem (address + 8)).toNat = padlen)
    (room : 16 + padlen ≤ 32 * words) :
    (rtcpFbParseRpsi mem address len).result =
      .ok { pt := mem (address + 9) &&& 0x7F, ptr := address + 10
            slen := (32 * words - 16 - padlen + 7) / 8, rpsiBitLen := 32 * words - 16 - padlen } := by
  have size : u32 (((2 + words : Nat) - 2 : Int) * 4) = 4 * words := by
    rw [u32_eq]
    omega
  have total : u32 (((4 * words : Nat) : Int) + 12) = 12 + 4 * words := by
    rw [u32_eq]
    omega
  have bits : u32 (((4 * words : Nat) : Int) * 8 - 16 - padlen) = 32 * words - 16 - padlen := by
    rw [u32_eq]
    omega
  have rounded : u32 (((32 * words - 16 - padlen : Nat) : Int) + 7) =
      32 * words - 16 - padlen + 7 := by
    rw [u32_eq]
    omega
  unfold rtcpFbParseRpsi
  rw [afterCheck_result]
  refine ⟨isFb, ?_⟩
  rw [field, size]
  dsimp only
  rw [total, if_neg (Nat.not_lt.mpr (Nat.le_of_eq long.symm)), result_bind_of_ok (result_access _ _),
    result_bind_of_ok (result_access _ _), result_pure, padding, bits, rounded]

theorem rtcpFbRpsi_roundTrips (order : ByteOrder) (session : RtcpSession) (proper : rpsi.Proper)
    (fits : 2 + (rpsi.rpsiBitLen + 16 + 31) / 32 < 2 ^ 16) :
    RoundTrips (rtcpFbBuildRpsi order session · rpsi)
      (fun mem address len =>
        (rtcpFbParseRpsi mem address len).result.map (ParsedRpsi.message mem)) rpsi := by
  intro buf packet len built mem address holds
  have bitlen : u32 ((rpsi.rpsiBitLen : Int) + 16) = rpsi.rpsiBitLen + 16 := by
    rw [u32_eq]
    omega
  dsimp only [rtcpFbBuildRpsi] at built
  rw [bitlen] at built
  have multiple : (rpsi.rpsiBitLen + 16 + rpsiPadlen (rpsi.rpsiBitLen + 16)) % 32 = 0 := by
    unfold rpsiPadlen
    omega
  have short : rpsiPadlen (rpsi.rpsiBitLen + 16) < 32 := Nat.mod_lt _ (by decide)
  generalize rpsiPadlen (rpsi.rpsiBitLen + 16) = padlen at built multiple short
  have ⟨words, words_eq⟩ := Nat.dvd_of_mod_eq_zero multiple
  have size : u32 ((3 + (u32 (((rpsi.rpsiBitLen + 16 : Nat) : Int) + padlen) : Int) / 32) * 4) =
      12 + 4 * words := by
    rw [u32_eq, u32_eq]
    omega
  rw [size, rpsiBytes_eq proper] at built
  obtain ⟨rfl, isFb, field, control⟩ :=
    fbBuild_built (by decide) (by decide) (by omega) (by omega) built holds
  have ⟨padding, pt, rest⟩ := control
  have padlen_eq : (mem (address + 8)).toNat = padlen := by
    rw [padding, UInt8.toNat_ofNat']
    omega
  have result := rtcpFbParseRpsi_result (by omega) rfl isFb (field.trans (by omega)) padlen_eq
    (by omega)
  have string := (holds_append.mp rest).1
  have pt_eq : mem (address + 9) &&& 0x7F = rpsi.pt := by
    have fits := proper.pt
    have low7 (value : Nat) : value &&& 127 = value % 128 := and_mask 7 value
    rw [pt]
    apply UInt8.toNat_inj.mp
    simp only [UInt8.toNat_and, UInt8.reduceToNat, low7]
    omega
  have bits : 32 * words - 16 - padlen = rpsi.rpsiBitLen := by omega
  dsimp only
  rw [result, pt_eq, bits, ← proper.length]
  have message : ParsedRpsi.message mem
      { pt := rpsi.pt, ptr := address + 10, slen := rpsi.rpsi.length
        rpsiBitLen := rpsi.rpsiBitLen } = rpsi := by
    unfold ParsedRpsi.message
    rw [string.map_range]
  exact congrArg Except.ok message

/-! ## Every message -/

/-- Sequence numbers and bitmasks, slices whose fields fit and a bit string of any length are
returned, if the length field of the packet does not overflow. -/
theorem rtcpFb_roundTrips (order : ByteOrder) (session : RtcpSession) :
    (∀ nack cnt, (∀ entry ∈ nack, 0 ≤ entry.pid ∧ entry.pid < 2 ^ 16) →
        2 + nack.length < 2 ^ 16 → nack.length ≤ cnt →
          RoundTrips (rtcpFbBuildNack order session · nack)
            (fun mem address len => (rtcpFbParseNack mem address len cnt).result) nack) ∧
      (∀ sli cnt, (∀ entry ∈ sli, entry.Fits) → 2 + sli.length < 2 ^ 16 → sli.length ≤ cnt →
          RoundTrips (rtcpFbBuildSli order session · sli)
            (fun mem address len => (rtcpFbParseSli mem address len cnt).result) sli) ∧
        ∀ rpsi, rpsi.Proper → 2 + (rpsi.rpsiBitLen + 16 + 31) / 32 < 2 ^ 16 →
          RoundTrips (rtcpFbBuildRpsi order session · rpsi)
            (fun mem address len =>
              (rtcpFbParseRpsi mem address len).result.map (ParsedRpsi.message mem)) rpsi :=
  ⟨fun _ _ pids fits room => rtcpFbNack_roundTrips order session pids fits room,
    fun _ _ fields fits room => rtcpFbSli_roundTrips order session fields fits room,
    fun _ proper fits => rtcpFbRpsi_roundTrips order session proper fits⟩

/-- A session for examples. -/
def sampleSession : RtcpSession :=
  rtcpInit2 .big
    { clockRate := 8000, ssrc := 1, rtpTsBase := 0, tvBase := 0, tsBase := 0, tsFreq := 1000 }

theorem rtcpFb_roundTrips_samples :
    RoundTrips (rtcpFbBuildNack .big sampleSession · [⟨65535, 0x8001⟩])
        (fun mem address len => (rtcpFbParseNack mem address len 4).result) [⟨65535, 0x8001⟩] ∧
      RoundTrips (rtcpFbBuildSli .big sampleSession · [⟨8191, 4097, 33⟩])
        (fun mem address len => (rtcpFbParseSli mem address len 1).result) [⟨8191, 4097, 33⟩] ∧
      RoundTrips (rtcpFbBuildRpsi .big sampleSession · ⟨96, [0xAB, 0xC0], 12⟩)
        (fun mem address len =>
          (rtcpFbParseRpsi mem address len).result.map (ParsedRpsi.message mem))
        ⟨96, [0xAB, 0xC0], 12⟩ := by
  have ⟨nack, sli, rpsi⟩ := rtcpFb_roundTrips .big sampleSession
  refine ⟨nack _ 4 (by decide) (by decide) (by decide),
    sli _ 1 (fun entry member => ?_) (by decide) (by decide), rpsi _ ⟨by decide, rfl⟩ (by decide)⟩
  rw [mem_singleton.mp member]
  exact ⟨by decide, by decide, by decide⟩

/-- The packet ID 65536 is returned as 0. -/
theorem rtcpFbNack_truncates :
    ¬RoundTrips (rtcpFbBuildNack .big sampleSession · [⟨65536, 0⟩])
      (fun mem address len => (rtcpFbParseNack mem address len 1).result) [⟨65536, 0⟩] := by
  intro roundTrips
  have built : rtcpFbBuildNack .big sampleSession (List.replicate 16 0) [⟨65536, 0⟩] =
      .ok ([0x81, 205, 0, 3, 0, 0, 0, 1, 0, 0, 0, 0, 0, 0, 0, 0], 16) := by rfl
  have returned := roundTrips _ _ _ built _ 0 (holds_getD [] _)
  exact absurd returned (by decide)

end Pjmedia.Rtp
