import Pjproject.Lib.Traced
import Pjproject.Rtp.Session

/-!
# Memory safety of the RTP decoder

The decoder reads the first byte of a packet before it looks at the length, and the length of the
extension before it knows that the extension is inside the packet. What it returns is inside the
packet whatever it has read.
-/

namespace Pjmedia.Rtp
open Pj Traced

/-- The reads of a decoder, by position. -/
abbrev Decoder := Traced Nat RtpError

/-- The part of `pjmedia_rtp_decode_rtp2` that decodes the extension. -/
def decodeExt (order : ByteOrder) (pkt : Nat → UInt8) (x : Bool) (offset : Nat) :
    Decoder RtpDecHdr :=
  if x then do
    let length ← access [offset + 2, offset + 3] (pjHtons order (load16 order pkt (offset + 2)))
    return { extHdr := some offset, ext := some (offset + 4), extLen := length.toNat }
  else return { extHdr := none, ext := none, extLen := 0 }

/-- The part of `pjmedia_rtp_decode_rtp2` that removes the padding from the length of a payload. -/
def removePadding (pkt : Nat → UInt8) (p : Bool) (payload payloadlen : Nat) : Decoder Nat :=
  if p ∧ payloadlen > 0 then do
    let padLen ← access [payload + payloadlen - 1] (pkt (payload + payloadlen - 1)).toNat
    return if padLen ≤ payloadlen then payloadlen - padLen else payloadlen
  else return payloadlen

/-- `pjmedia_rtp_decode_rtp2` with the positions that it reads. The bit fields that it looks at
are in the first byte. -/
def rtpDecodeRtp2Reads (order : ByteOrder) (pkt : Nat → UInt8) (pktLen : Nat) :
    Decoder RtpDecoded := do
  let hdr ← access [0] (readHdr order pkt)
  if hdr.v ≠ rtpVersion then throw .einver
  else
    let offset := 12 + hdr.cc.toNat * 4
    let decHdr ← decodeExt order pkt hdr.x offset
    let offset := if hdr.x then offset + (decHdr.extLen + 1) * 4 else offset
    if offset > pktLen then throw .einlen
    else
      let payloadlen ← removePadding pkt hdr.p offset (pktLen - offset)
      return { hdr := hdr, decHdr := decHdr, payload := offset, payloadlen := payloadlen }

/-- The length of a packet's header with its CSRCs and its extension. -/
def RtpDecoded.headerLen (decoded : RtpDecoded) : Nat :=
  12 + decoded.hdr.cc.toNat * 4 + if decoded.hdr.x then 4 + decoded.decHdr.extLen * 4 else 0

/-- The extension and the payload are inside a packet, and the payload is all of it but for the
header, the CSRCs, the extension and the padding that its last byte counts. -/
structure RtpDecoded.Inside (decoded : RtpDecoded) (pkt : Nat → UInt8) (pktLen : Nat) : Prop where
  extHdr : ∀ start ∈ decoded.decHdr.extHdr, start + 4 ≤ pktLen
  ext : ∀ start ∈ decoded.decHdr.ext, start + decoded.decHdr.extLen * 4 ≤ pktLen
  payload : decoded.payload = decoded.headerLen
  payloadlen : ∃ padding, decoded.payload + decoded.payloadlen + padding = pktLen ∧
    (padding = 0 ∨ decoded.hdr.p = true ∧ padding = (pkt (pktLen - 1)).toNat)

/-- The packet has a first byte, and the fixed part of its extension if it has one. -/
def ExtensionInside (order : ByteOrder) (pkt : Nat → UInt8) (pktLen : Nat) : Prop :=
  let hdr := readHdr order pkt
  0 < pktLen ∧ (hdr.v = rtpVersion → hdr.x = true → 12 + hdr.cc.toNat * 4 + 4 ≤ pktLen)

variable (order : ByteOrder) (pkt : Nat → UInt8) (pktLen : Nat)

/-- The extension that the decoder finds. -/
def foundExt (x : Bool) (offset : Nat) : RtpDecHdr :=
  if x then
    { extHdr := some offset, ext := some (offset + 4)
      extLen := (pjHtons order (load16 order pkt (offset + 2))).toNat }
  else { extHdr := none, ext := none, extLen := 0 }

theorem decodeExt_result (x : Bool) (offset : Nat) :
    (decodeExt order pkt x offset).result = .ok (foundExt order pkt x offset) := by
  cases x <;> rfl

theorem decodeExt_inside (x : Bool) (offset : Nat) :
    (decodeExt order pkt x offset).All (· < pktLen) ↔ (x = true → offset + 4 ≤ pktLen) := by
  cases x with
  | false => exact iff_of_true (all_pure _) nofun
  | true =>
    rw [decodeExt, if_pos rfl, all_bind_of_ok (result_access _ _), all_access]
    simp only [List.forall_mem_cons, all_pure, and_true, forall_const, List.not_mem_nil,
      IsEmpty.forall_iff]
    omega

/-- The length of a payload without its padding. -/
def unpadded (p : Bool) (payload payloadlen : Nat) : Nat :=
  let padLen := (pkt (payload + payloadlen - 1)).toNat
  if p ∧ payloadlen > 0 ∧ padLen ≤ payloadlen then payloadlen - padLen else payloadlen

theorem removePadding_result (p : Bool) (payload payloadlen : Nat) :
    (removePadding pkt p payload payloadlen).result = .ok (unpadded pkt p payload payloadlen) := by
  unfold removePadding unpadded
  by_cases padded : p ∧ payloadlen > 0
  · rw [if_pos padded, result_bind_of_ok (result_access _ _), result_pure]
    simp [padded.1, padded.2]
  · rw [if_neg padded, result_pure, if_neg fun all => padded ⟨all.1, all.2.1⟩]

/-- The last byte of a payload is read, if it has one. -/
theorem removePadding_inside (p : Bool) {payload payloadlen : Nat}
    (inside : payload + payloadlen ≤ pktLen) :
    (removePadding pkt p payload payloadlen).All (· < pktLen) := by
  unfold removePadding
  by_cases padded : p ∧ payloadlen > 0
  · have last : payload + payloadlen - 1 < pktLen := by
      have some := padded.2
      omega
    rw [if_pos padded, all_bind_of_ok (result_access _ _)]
    exact ⟨fun made logged => List.mem_singleton.mp logged ▸ last, all_pure _⟩
  · rw [if_neg padded]
    exact all_pure _

/-- What is removed is the padding that the last byte counts. -/
theorem unpadded_spec (p : Bool) (payload payloadlen : Nat) :
    ∃ padding, unpadded pkt p payload payloadlen + padding = payloadlen ∧
      (padding = 0 ∨ p = true ∧ padding = (pkt (payload + payloadlen - 1)).toNat) := by
  unfold unpadded
  dsimp only
  split
  · next padded => exact ⟨_, Nat.sub_add_cancel padded.2.2, .inr ⟨padded.1, rfl⟩⟩
  · exact ⟨0, rfl, .inl rfl⟩

/-- Without its log it is the decoder. -/
theorem rtpDecodeRtp2Reads_result :
    (rtpDecodeRtp2Reads order pkt pktLen).result = rtpDecodeRtp2 order pkt pktLen := by
  unfold rtpDecodeRtp2Reads rtpDecodeRtp2
  rw [result_bind_of_ok (result_access _ _)]
  by_cases version : (readHdr order pkt).v ≠ rtpVersion
  · rw [if_pos version, if_pos version, result_throw]
  rw [if_neg version, if_neg version, result_bind_of_ok (decodeExt_result ..)]
  cases x : (readHdr order pkt).x with
  | false =>
    simp only [Bool.false_eq_true, if_false]
    by_cases short : 12 + (readHdr order pkt).cc.toNat * 4 > pktLen
    · rw [if_pos short, if_pos short, result_throw]
    · rw [if_neg short, if_neg short, result_bind_of_ok (removePadding_result ..), result_pure]
      rfl
  | true =>
    simp only [if_true, foundExt]
    generalize (pjHtons order (load16 order pkt _)).toNat = extLen
    by_cases short : 12 + (readHdr order pkt).cc.toNat * 4 + (extLen + 1) * 4 > pktLen
    · rw [if_pos short, if_pos short, result_throw]
    · rw [if_neg short, if_neg short, result_bind_of_ok (removePadding_result ..), result_pure]
      rfl

/-- What the decoder returns is inside the packet. -/
theorem rtpDecodeRtp2Reads_returned {decoded : RtpDecoded}
    (returned : (rtpDecodeRtp2Reads order pkt pktLen).result = .ok decoded) :
    decoded.Inside pkt pktLen := by
  unfold rtpDecodeRtp2Reads at returned
  rw [result_bind_of_ok (result_access _ _)] at returned
  by_cases version : (readHdr order pkt).v ≠ rtpVersion
  · rw [if_pos version] at returned
    cases returned
  rw [if_neg version, result_bind_of_ok (decodeExt_result ..)] at returned
  generalize payload_eq : (if (readHdr order pkt).x = true then _ else _) = payload at returned
  by_cases short : payload > pktLen
  · rw [if_pos short] at returned
    cases returned
  rw [if_neg short, result_bind_of_ok (removePadding_result ..), result_pure] at returned
  cases returned
  have whole : payload + (pktLen - payload) = pktLen := by omega
  have rest := unpadded_spec pkt (readHdr order pkt).p payload (pktLen - payload)
  rw [whole] at rest
  have ⟨padding, length, counted⟩ := rest
  have header : ∀ x : Bool, (readHdr order pkt).x = x →
      payload = 12 + (readHdr order pkt).cc.toNat * 4 +
        if x = true then
          4 + (foundExt order pkt x (12 + (readHdr order pkt).cc.toNat * 4)).extLen * 4
        else 0 := by
    intro x same
    rw [← payload_eq, same]
    cases x with
    | false => rfl
    | true =>
      rw [if_pos rfl, if_pos rfl]
      omega
  have inside := header _ rfl
  constructor
  · intro start found
    unfold foundExt at found
    split at found
    · next x =>
      rw [if_pos x] at inside
      have same := Option.mem_some.mp found
      omega
    · cases found
  · intro start found
    dsimp only at found ⊢
    cases x : (readHdr order pkt).x with
    | false =>
      rw [x] at found
      cases found
    | true =>
      rw [x] at found inside
      rw [if_pos rfl] at inside
      have same : 12 + (readHdr order pkt).cc.toNat * 4 + 4 = start := Option.some.inj found
      omega
  · exact inside
  · exact ⟨padding, by dsimp only; omega, counted⟩

/-- The decoder reads only bytes of the packet and returns only regions of it exactly if the
packet has a first byte and the fixed part of the extension that it says it has. -/
theorem rtpDecodeRtp2_inside_iff :
    ((rtpDecodeRtp2Reads order pkt pktLen).All (· < pktLen) ∧
        ∀ decoded, (rtpDecodeRtp2Reads order pkt pktLen).result = .ok decoded →
          decoded.Inside pkt pktLen) ↔
      ExtensionInside order pkt pktLen := by
  rw [and_iff_left fun decoded returned => rtpDecodeRtp2Reads_returned order pkt pktLen returned]
  unfold rtpDecodeRtp2Reads ExtensionInside
  rw [all_bind_of_ok (result_access _ _), all_access, List.forall_mem_singleton]
  refine and_congr_right fun _ => ?_
  by_cases version : (readHdr order pkt).v ≠ rtpVersion
  · rw [if_pos version]
    exact iff_of_true (all_throw _) fun same => absurd same version
  rw [if_neg version, all_bind_of_ok (decodeExt_result ..), decodeExt_inside]
  have rest : ∀ payload, (if payload > pktLen then throw .einlen
      else do
        let payloadlen ← removePadding pkt (readHdr order pkt).p payload (pktLen - payload)
        return {
          hdr := readHdr order pkt, payload := payload, payloadlen := payloadlen
          decHdr := foundExt order pkt (readHdr order pkt).x
            (12 + (readHdr order pkt).cc.toNat * 4) } : Decoder RtpDecoded).All (· < pktLen) := by
    intro payload
    by_cases short : payload > pktLen
    · rw [if_pos short]
      exact all_throw _
    · rw [if_neg short, all_bind_of_ok (removePadding_result ..)]
      exact ⟨removePadding_inside pkt pktLen _ (by omega), all_pure _⟩
  rw [and_iff_left (rest _)]
  exact ⟨fun inside _ => inside, fun inside => inside (not_not.mp version)⟩

/-- A packet of a header alone that says it has an extension: its length is read behind it. -/
theorem rtpDecodeRtp2_reads_outside :
    ¬((rtpDecodeRtp2Reads .little (fun position => if position = 0 then 0x90 else 0) 12).All
        (· < 12) ∧
      ∀ decoded, (rtpDecodeRtp2Reads .little (fun position => if position = 0 then 0x90 else 0)
        12).result = .ok decoded →
          decoded.Inside (fun position => if position = 0 then 0x90 else 0) 12) := by
  rintro ⟨inside, _⟩
  exact absurd (inside 14 (by decide)) (by decide)

end Pjmedia.Rtp
