import Pjproject.Pjlib.ByteOrder
import Pjproject.Pjlib.Int
import Pjproject.Rtp.SeqSession

/-!
# RTP sessions

A session keeps the header of its outgoing packets and changes it from packet to packet. The
words of the header are in network order. Decoding reads the header that a packet begins with
and finds the payload.
-/

namespace Pjmedia.Rtp
open Pj

/-- `RTP_VERSION`. -/
def rtpVersion : BitVec 2 := 2

/-- `struct pjmedia_rtp_hdr`. -/
structure RtpHdr where
  /-- Version. -/
  v : BitVec 2
  /-- Padding flag. -/
  p : Bool
  /-- Extension flag. -/
  x : Bool
  /-- Count of CSRCs. -/
  cc : BitVec 4
  /-- Marker bit. -/
  m : Bool
  /-- Payload type. -/
  pt : BitVec 7
  /-- Sequence number. -/
  seq : UInt16
  /-- Timestamp. -/
  ts : UInt32
  /-- Synchronization source. -/
  ssrc : UInt32
deriving DecidableEq, Repr

/-- The bytes of a header in memory. The bit fields of both byte orders are the same bytes. -/
def RtpHdr.bytes (order : ByteOrder) (hdr : RtpHdr) : List UInt8 :=
  UInt8.ofNat (hdr.v.toNat * 64 + hdr.p.toNat * 32 + hdr.x.toNat * 16 + hdr.cc.toNat) ::
    UInt8.ofNat (hdr.m.toNat * 128 + hdr.pt.toNat) ::
      (store16 order hdr.seq ++ store32 order hdr.ts ++ store32 order hdr.ssrc)

/-- The header at the address 0. -/
def readHdr (order : ByteOrder) (pkt : Nat → UInt8) : RtpHdr :=
  let first := (pkt 0).toNat
  let second := (pkt 1).toNat
  { v := BitVec.ofNat 2 (first / 64), p := first / 32 % 2 = 1, x := first / 16 % 2 = 1
    cc := BitVec.ofNat 4 first, m := second / 128 = 1, pt := BitVec.ofNat 7 second
    seq := load16 order pkt 2, ts := load32 order pkt 4, ssrc := load32 order pkt 8 }

/-- `struct pjmedia_rtp_session`. -/
structure RtpSession where
  /-- Header of outgoing packets. -/
  outHdr : RtpHdr
  /-- Sequence number control of received packets. -/
  seqCtrl : RtpSeqSession
  /-- Default payload type. -/
  outPt : UInt16
  /-- Extended sequence number of outgoing packets. -/
  outExtseq : UInt32
  /-- The peer's SSRC is given. -/
  hasPeerSsrc : Bool
  /-- SSRC of the peer. -/
  peerSsrc : UInt32
  /-- Count of received packets. -/
  received : UInt32
deriving DecidableEq, Repr

/-- `pjmedia_rtp_session_setting`. -/
structure RtpSessionSetting where
  /-- Bits for the fields that are given. -/
  flags : UInt8
  /-- Default payload type, bit 0. -/
  defaultPt : Int
  /-- SSRC of the sender, bit 1. -/
  senderSsrc : UInt32
  /-- SSRC of the peer, bit 4. -/
  peerSsrc : UInt32
  /-- Sequence number, bit 2. -/
  seq : UInt16
  /-- Timestamp, bit 3. -/
  ts : UInt32
deriving DecidableEq, Repr

/-- What the two calls of `pj_rand` give. -/
structure Random where
  ssrc : UInt32
  seq : UInt32
deriving DecidableEq, Repr

/-- The payload type in a header: the cast to `pj_uint8_t` and the field keep the low bits. -/
def headerPt (pt : Int) : BitVec 7 := BitVec.ofInt 7 pt

/-- `pjmedia_rtp_session_init`. -/
def rtpSessionInit (order : ByteOrder) (rand : Random) (defaultPt : Int) (senderSsrc : UInt32) :
    RtpSession :=
  let senderSsrc :=
    if senderSsrc = 0 ∨ senderSsrc = 0xFFFFFFFF then pjHtonl order rand.ssrc
    else pjHtonl order senderSsrc
  let outExtseq := rand.seq &&& 0x7FFF
  { outHdr :=
      { v := rtpVersion, p := false, x := false, cc := 0, m := false, pt := headerPt defaultPt
        seq := pjHtons order outExtseq.toUInt16, ts := 0, ssrc := senderSsrc }
    seqCtrl := { maxSeq := 0, cycles := 0, baseSeq := 0, badSeq := 0, probation := 0 }
    outPt := UInt16.ofInt defaultPt
    outExtseq := outExtseq
    hasPeerSsrc := false, peerSsrc := 0, received := 0 }

/-- `pjmedia_rtp_session_init2`. -/
def rtpSessionInit2 (order : ByteOrder) (rand : Random) (settings : RtpSessionSetting) :
    RtpSession :=
  let pt := if settings.flags &&& 1 ≠ 0 then settings.defaultPt else 0
  let senderSsrc := if settings.flags &&& 2 ≠ 0 then settings.senderSsrc else 0
  let ses := rtpSessionInit order rand pt senderSsrc
  let ses :=
    if settings.flags &&& 4 ≠ 0 then
      { ses with
        outExtseq := settings.seq.toUInt32
        outHdr := { ses.outHdr with seq := pjHtons order settings.seq.toUInt32.toUInt16 } }
    else ses
  let ses :=
    if settings.flags &&& 8 ≠ 0 then
      { ses with outHdr := { ses.outHdr with ts := pjHtonl order settings.ts } }
    else ses
  if settings.flags &&& 16 ≠ 0 then
    { ses with hasPeerSsrc := true, peerSsrc := settings.peerSsrc }
  else ses

/-- `pjmedia_rtp_encode_rtp`: the session, and the header unless it is a clock frame. -/
def rtpEncodeRtp (order : ByteOrder) (ses : RtpSession) (pt m : Int) (payloadLen : Nat)
    (tsLen : Int) : RtpSession × Option RtpHdr :=
  let ts := pjHtonl order (pjHtonl order ses.outHdr.ts + UInt32.ofInt tsLen)
  let ses := { ses with outHdr := { ses.outHdr with ts := ts } }
  if payloadLen = 0 then (ses, none)
  else
    let outExtseq := ses.outExtseq + 1
    let outHdr :=
      { ses.outHdr with
        pt := headerPt (if pt = -1 then ses.outPt.toNat else pt)
        m := m % 2 = 1
        seq := pjHtons order outExtseq.toUInt16 }
    ({ ses with outExtseq := outExtseq, outHdr := outHdr }, some outHdr)

/-- The errors of decoding. -/
inductive RtpError
  /-- `PJMEDIA_RTP_EINVER`. -/
  | einver
  /-- `PJMEDIA_RTP_EINLEN`. -/
  | einlen
deriving DecidableEq, Repr

/-- `struct pjmedia_rtp_dec_hdr`, with addresses for its pointers. -/
structure RtpDecHdr where
  extHdr : Option Nat
  ext : Option Nat
  extLen : Nat
deriving DecidableEq, Repr

/-- What `pjmedia_rtp_decode_rtp2` returns, with an address for the payload. -/
structure RtpDecoded where
  hdr : RtpHdr
  decHdr : RtpDecHdr
  payload : Nat
  payloadlen : Nat
deriving DecidableEq, Repr

/-- `pjmedia_rtp_decode_rtp2` of the packet at the address 0. -/
def rtpDecodeRtp2 (order : ByteOrder) (pkt : Nat → UInt8) (pktLen : Nat) :
    Except RtpError RtpDecoded :=
  let hdr := readHdr order pkt
  if hdr.v ≠ rtpVersion then .error .einver
  else
    let offset := 12 + hdr.cc.toNat * 4
    let extLen := (pjHtons order (load16 order pkt (offset + 2))).toNat
    let decHdr : RtpDecHdr :=
      if hdr.x then { extHdr := some offset, ext := some (offset + 4), extLen := extLen }
      else { extHdr := none, ext := none, extLen := 0 }
    let offset := if hdr.x then offset + (extLen + 1) * 4 else offset
    if offset > pktLen then .error .einlen
    else
      let payloadlen := pktLen - offset
      let padLen := (pkt (offset + payloadlen - 1)).toNat
      .ok
        { hdr := hdr, decHdr := decHdr, payload := offset
          payloadlen :=
            if hdr.p ∧ payloadlen > 0 ∧ padLen ≤ payloadlen then payloadlen - padLen
            else payloadlen }

/-- The payload of a decoded packet. -/
def RtpDecoded.content (decoded : RtpDecoded) (pkt : Nat → UInt8) : List UInt8 :=
  (List.range decoded.payloadlen).map fun offset => pkt (decoded.payload + offset)

/-! ## Headers in memory -/

variable {pkt : Nat → UInt8}

variable {order : ByteOrder}

theorem length_bytes (order : ByteOrder) (hdr : RtpHdr) : (hdr.bytes order).length = 12 := by
  cases order <;> rfl

/-- A flag is its bit. -/
theorem decide_toNat (flag : Bool) : decide (flag.toNat = 1) = flag := by
  cases flag <;> rfl

/-- A header is read back. -/
theorem readHdr_bytes {hdr : RtpHdr} (holds : Holds pkt 0 (hdr.bytes order)) :
    readHdr order pkt = hdr := by
  have ⟨first, second, words⟩ := holds
  rw [List.append_assoc, holds_append, holds_append] at words
  have ⟨seq, ts, ssrc⟩ := words
  have seq_eq : load16 order pkt 2 = hdr.seq := seq.load16
  have ts_eq : load32 order pkt 4 = hdr.ts := by
    cases order <;> exact ts.load32
  have ssrc_eq : load32 order pkt 8 = hdr.ssrc := by
    cases order <;> exact ssrc.load32
  have hv := hdr.v.isLt
  have hcc := hdr.cc.isLt
  have hpt := hdr.pt.isLt
  have hp := hdr.p.toNat_le
  have hx := hdr.x.toNat_le
  have hm := hdr.m.toNat_le
  have first_eq : (pkt 0).toNat =
      hdr.v.toNat * 64 + hdr.p.toNat * 32 + hdr.x.toNat * 16 + hdr.cc.toNat := by
    rw [first, UInt8.toNat_ofNat']
    exact Nat.mod_eq_of_lt (by omega)
  have second_eq : (pkt 1).toNat = hdr.m.toNat * 128 + hdr.pt.toNat := by
    rw [second, UInt8.toNat_ofNat']
    exact Nat.mod_eq_of_lt (by omega)
  have v_eq : BitVec.ofNat 2 ((pkt 0).toNat / 64) = hdr.v := by
    apply BitVec.eq_of_toNat_eq
    rw [BitVec.toNat_ofNat, first_eq]
    omega
  have cc_eq : BitVec.ofNat 4 (pkt 0).toNat = hdr.cc := by
    apply BitVec.eq_of_toNat_eq
    rw [BitVec.toNat_ofNat, first_eq]
    omega
  have pt_eq : BitVec.ofNat 7 (pkt 1).toNat = hdr.pt := by
    apply BitVec.eq_of_toNat_eq
    rw [BitVec.toNat_ofNat, second_eq]
    omega
  have p_eq : decide ((pkt 0).toNat / 32 % 2 = 1) = hdr.p := by
    rw [show (pkt 0).toNat / 32 % 2 = hdr.p.toNat by omega, decide_toNat]
  have x_eq : decide ((pkt 0).toNat / 16 % 2 = 1) = hdr.x := by
    rw [show (pkt 0).toNat / 16 % 2 = hdr.x.toNat by omega, decide_toNat]
  have m_eq : decide ((pkt 1).toNat / 128 = 1) = hdr.m := by
    rw [show (pkt 1).toNat / 128 = hdr.m.toNat by omega, decide_toNat]
  simp only [readHdr, v_eq, cc_eq, pt_eq, p_eq, x_eq, m_eq, seq_eq, ts_eq, ssrc_eq]

/-- A packet without CSRCs, extension and padding is decoded to its header and payload. -/
theorem rtpDecodeRtp2_bytes {hdr : RtpHdr} {payload : List UInt8}
    (holds : Holds pkt 0 (hdr.bytes order ++ payload)) (version : hdr.v = rtpVersion)
    (cc : hdr.cc = 0) (p : hdr.p = false) (x : hdr.x = false) :
    ∃ decoded, rtpDecodeRtp2 order pkt (12 + payload.length) = .ok decoded ∧
      decoded.hdr = hdr ∧ decoded.content pkt = payload := by
  have ⟨header, rest⟩ := holds_append.mp holds
  rw [length_bytes] at rest
  have read := readHdr_bytes header
  have content := rest.map_range
  refine ⟨{ hdr := hdr, decHdr := { extHdr := none, ext := none, extLen := 0 }, payload := 12
            payloadlen := payload.length }, ?_, rfl, content⟩
  have length : 12 + payload.length - 12 = payload.length := by omega
  simp [rtpDecodeRtp2, read, version, cc, p, x, length]

/-! ## Runs of the encoder -/

/-- A call of `pjmedia_rtp_encode_rtp` with the payload that follows the header. -/
structure EncodeCall where
  pt : Int
  m : Int
  payload : List UInt8
  tsLen : Int
deriving DecidableEq, Repr

/-- A call on a session. -/
def EncodeCall.run (order : ByteOrder) (ses : RtpSession) (call : EncodeCall) :
    RtpSession × Option RtpHdr :=
  rtpEncodeRtp order ses call.pt call.m call.payload.length call.tsLen

/-- Calls on a session. -/
def encodeAll (order : ByteOrder) (ses : RtpSession) (calls : List EncodeCall) : RtpSession :=
  calls.foldl (fun ses call => (call.run order ses).1) ses

/-- The payload types and numbers that a session starts with, as its setting and the random
numbers give them. -/
structure Initial where
  pt : Int
  ssrc : UInt32
  seq : UInt16
  ts : UInt32
deriving DecidableEq, Repr

/-- The SSRC that a session takes: 0 and 2³² - 1 stand for a random one. -/
def chosenSsrc (rand : Random) (ssrc : UInt32) : UInt32 :=
  if ssrc = 0 ∨ ssrc = 0xFFFFFFFF then rand.ssrc else ssrc

/-- What a setting gives. -/
def RtpSessionSetting.initial (settings : RtpSessionSetting) (rand : Random) : Initial :=
  { pt := if settings.flags &&& 1 ≠ 0 then settings.defaultPt else 0
    ssrc := chosenSsrc rand (if settings.flags &&& 2 ≠ 0 then settings.senderSsrc else 0)
    seq := if settings.flags &&& 4 ≠ 0 then settings.seq else (rand.seq &&& 0x7FFF).toUInt16
    ts := if settings.flags &&& 8 ≠ 0 then settings.ts else 0 }

/-- The count of packets that calls emit. -/
def emitted (calls : List EncodeCall) : Nat := calls.countP fun call => call.payload ≠ []

/-- The sum of the timestamp increments of calls. -/
def elapsed (calls : List EncodeCall) : Int := (calls.map EncodeCall.tsLen).sum

/-- The session of an encoder after some calls. -/
structure Encodes (order : ByteOrder) (initial : Initial) (calls : List EncodeCall)
    (ses : RtpSession) : Prop where
  version : ses.outHdr.v = rtpVersion
  plain : ses.outHdr.cc = 0 ∧ ses.outHdr.p = false ∧ ses.outHdr.x = false
  pt : headerPt ses.outPt.toNat = headerPt initial.pt
  ssrc : pjHtonl order ses.outHdr.ssrc = initial.ssrc
  seq : ses.outExtseq.toUInt16 = initial.seq + UInt16.ofNat (emitted calls)
  ts : pjHtonl order ses.outHdr.ts = initial.ts + UInt32.ofInt (elapsed calls)

/-- The default payload type is kept in a word that does not change its low bits. -/
theorem headerPt_ofInt (pt : Int) : headerPt (UInt16.ofInt pt).toNat = headerPt pt := by
  apply BitVec.eq_of_toNat_eq
  simp only [headerPt, BitVec.toNat_ofInt]
  rw [toNat_ofInt16]
  omega

theorem rtpSessionInit_ssrc (order : ByteOrder) (rand : Random) (defaultPt : Int)
    (ssrc : UInt32) :
    pjHtonl order (rtpSessionInit order rand defaultPt ssrc).outHdr.ssrc = chosenSsrc rand ssrc := by
  unfold rtpSessionInit chosenSsrc
  split <;> exact pjHtonl_pjHtonl order _

/-- What a setting changes in a session: the sequence number and the timestamp that it gives. -/
theorem rtpSessionInit2_fields (order : ByteOrder) (rand : Random) (settings : RtpSessionSetting) :
    let pt := if settings.flags &&& 1 ≠ 0 then settings.defaultPt else 0
    let senderSsrc := if settings.flags &&& 2 ≠ 0 then settings.senderSsrc else 0
    let ses := rtpSessionInit order rand pt senderSsrc
    let init := rtpSessionInit2 order rand settings
    init.outPt = ses.outPt ∧
      init.outExtseq =
        (if settings.flags &&& 4 ≠ 0 then settings.seq.toUInt32 else ses.outExtseq) ∧
      init.outHdr =
        { ses.outHdr with
          seq :=
            if settings.flags &&& 4 ≠ 0 then pjHtons order settings.seq.toUInt32.toUInt16
            else ses.outHdr.seq
          ts := if settings.flags &&& 8 ≠ 0 then pjHtonl order settings.ts else ses.outHdr.ts } := by
  intro pt senderSsrc ses init
  by_cases seq : settings.flags &&& 4 ≠ 0 <;> by_cases ts : settings.flags &&& 8 ≠ 0 <;>
    by_cases peer : settings.flags &&& 16 ≠ 0 <;>
    simp [init, ses, pt, senderSsrc, rtpSessionInit2, seq, ts, peer]

/-- A session that has emitted nothing. -/
theorem rtpSessionInit2_encodes (order : ByteOrder) (rand : Random) (settings : RtpSessionSetting) :
    Encodes order (settings.initial rand) [] (rtpSessionInit2 order rand settings) := by
  have ⟨outPt, outExtseq, outHdr⟩ := rtpSessionInit2_fields order rand settings
  constructor
  · rw [outHdr]
    rfl
  · rw [outHdr]
    exact ⟨rfl, rfl, rfl⟩
  · rw [outPt]
    exact headerPt_ofInt _
  · rw [outHdr]
    exact rtpSessionInit_ssrc order rand
      (if settings.flags &&& 1 ≠ 0 then settings.defaultPt else 0) _
  · have first : UInt16.ofNat (emitted []) = 0 := rfl
    rw [outExtseq, first, RtpSessionSetting.initial, UInt16.add_zero]
    split
    · exact UInt16.toUInt16_toUInt32 settings.seq
    · rfl
  · have start : UInt32.ofInt (elapsed []) = 0 := rfl
    rw [outHdr, start, RtpSessionSetting.initial, UInt32.add_zero]
    dsimp only
    split
    · exact pjHtonl_pjHtonl order _
    · exact pjHtonl_zero order

/-- One more call. -/
theorem Encodes.run {initial : Initial} {calls : List EncodeCall} {ses : RtpSession}
    (h : Encodes order initial calls ses) (call : EncodeCall) :
    Encodes order initial (calls ++ [call]) (call.run order ses).1 := by
  have time : pjHtonl order (pjHtonl order
      (pjHtonl order ses.outHdr.ts + UInt32.ofInt call.tsLen)) =
        initial.ts + UInt32.ofInt (elapsed (calls ++ [call])) := by
    rw [pjHtonl_pjHtonl, h.ts, UInt32.add_assoc, ← UInt32.ofInt_add]
    simp [elapsed]
  have count : emitted (calls ++ [call]) = emitted calls + emitted [call] := List.countP_append
  unfold EncodeCall.run rtpEncodeRtp
  by_cases clock : call.payload.length = 0
  · have none : emitted [call] = 0 := by
      simp [emitted, List.length_eq_zero_iff.mp clock]
    simp only [clock, if_true]
    exact { h with seq := by rw [h.seq, count, none, Nat.add_zero], ts := time }
  · have one : emitted [call] = 1 := by
      simp [emitted, List.length_eq_zero_iff.not.mp clock]
    simp only [clock, if_false]
    refine { h with seq := ?_, ts := time }
    rw [UInt32.toUInt16_add, h.seq, count, one, UInt16.ofNat_add, ← UInt16.add_assoc]
    rfl

/-- More calls, one after the other. -/
theorem Encodes.all {initial : Initial} (later : List EncodeCall) :
    ∀ {calls : List EncodeCall} {ses : RtpSession}, Encodes order initial calls ses →
      Encodes order initial (calls ++ later) (encodeAll order ses later) := by
  induction later with
  | nil =>
    intro calls ses h
    rw [List.append_nil]
    exact h
  | cons call later ih =>
    intro calls ses h
    have rest := ih (h.run call)
    rw [List.append_assoc] at rest
    exact rest

/-- A call emits a header unless its payload is empty, and the header is the one of the session. -/
theorem Encodes.emits {initial : Initial} {calls : List EncodeCall} {ses : RtpSession}
    (h : Encodes order initial calls ses) (call : EncodeCall) :
    ((call.run order ses).2.isSome ↔ call.payload ≠ []) ∧
      ∀ hdr ∈ (call.run order ses).2, hdr = (call.run order ses).1.outHdr ∧
        hdr.seq = pjHtons order (call.run order ses).1.outExtseq.toUInt16 ∧
        hdr.m = decide (call.m % 2 = 1) ∧
        hdr.pt = headerPt (if call.pt = -1 then initial.pt else call.pt) := by
  unfold EncodeCall.run rtpEncodeRtp
  by_cases clock : call.payload.length = 0
  · have empty := List.length_eq_zero_iff.mp clock
    simp only [clock, if_true]
    exact ⟨iff_of_false nofun (not_not.mpr empty), nofun⟩
  · have filled := List.length_eq_zero_iff.not.mp clock
    simp only [clock, if_false]
    refine ⟨iff_of_true rfl filled, ?_⟩
    intro hdr same
    obtain rfl := Option.some.inj same
    refine ⟨rfl, rfl, rfl, ?_⟩
    split
    · exact h.pt
    · rfl

/-- The packets of a session, each with its payload behind the header, are decoded to what the
calls up to it have requested. -/
theorem rtpDecodeRtp2_encode (order : ByteOrder) (rand : Random) (settings : RtpSessionSetting)
    (before : List EncodeCall) (call : EncodeCall) :
    let initial := settings.initial rand
    let ses := encodeAll order (rtpSessionInit2 order rand settings) before
    ((call.run order ses).2.isSome ↔ call.payload ≠ []) ∧
      ∀ hdr ∈ (call.run order ses).2, ∀ pkt, Holds pkt 0 (hdr.bytes order ++ call.payload) →
        ∃ decoded, rtpDecodeRtp2 order pkt (12 + call.payload.length) = .ok decoded ∧
          decoded.content pkt = call.payload ∧
          (decoded.hdr.pt.toNat : Int) = (if call.pt = -1 then initial.pt else call.pt) % 128 ∧
          (decoded.hdr.m.toNat : Int) = call.m % 2 ∧
          pjHtonl order decoded.hdr.ssrc = initial.ssrc ∧
          pjHtons order decoded.hdr.seq =
            initial.seq + UInt16.ofNat (emitted (before ++ [call])) ∧
          pjHtonl order decoded.hdr.ts =
            initial.ts + UInt32.ofInt (elapsed (before ++ [call])) := by
  intro initial ses
  have encodes : Encodes order initial before ses :=
    (rtpSessionInit2_encodes order rand settings).all before
  have next := encodes.run call
  obtain ⟨some, header⟩ := encodes.emits call
  refine ⟨some, ?_⟩
  intro hdr member pkt holds
  obtain ⟨rfl, seq, m, pt⟩ := header hdr member
  have ⟨cc, p, x⟩ := next.plain
  have ⟨decoded, ok, same, content⟩ := rtpDecodeRtp2_bytes holds next.version cc p x
  refine ⟨decoded, ok, content, ?_⟩
  rw [same, seq, m, pt, pjHtons_pjHtons]
  refine ⟨?_, ?_, next.ssrc, next.seq, next.ts⟩
  · rw [headerPt, BitVec.toNat_ofInt]
    omega
  · rcases Int.emod_two_eq call.m with even | odd
    · rw [even]
      rfl
    · rw [odd]
      rfl

/-- A clock frame and a packet of three bytes, with sequence number 65535 given. -/
theorem rtpDecodeRtp2_encode_clockFrame : ∃ hdr pkt decoded,
    (EncodeCall.run .little
      (encodeAll .little
        (rtpSessionInit2 .little ⟨7, 9⟩ ⟨12, 0, 0, 0, 65535, 100⟩) [⟨0, 0, [], 160⟩])
      ⟨4, 1, [1, 2, 3], 160⟩).2 = some hdr ∧
      rtpDecodeRtp2 .little pkt 15 = .ok decoded ∧ decoded.content pkt = [1, 2, 3] ∧
      pjHtons .little decoded.hdr.seq = 0 ∧ pjHtonl .little decoded.hdr.ts = 420 := by
  have ⟨hdr, same⟩ := Option.isSome_iff_exists.mp
    ((rtpDecodeRtp2_encode .little ⟨7, 9⟩ ⟨12, 0, 0, 0, 65535, 100⟩ [⟨0, 0, [], 160⟩]
      ⟨4, 1, [1, 2, 3], 160⟩).1.mpr (by decide))
  have ⟨decoded, ok, content, _, _, _, seq, ts⟩ :=
    (rtpDecodeRtp2_encode .little ⟨7, 9⟩ ⟨12, 0, 0, 0, 65535, 100⟩ [⟨0, 0, [], 160⟩]
      ⟨4, 1, [1, 2, 3], 160⟩).2 hdr same
      (fun address => (hdr.bytes .little ++ [1, 2, 3]).getD address 0)
      ⟨rfl, rfl, rfl, rfl, rfl, rfl, rfl, rfl, rfl, rfl, rfl, rfl, rfl, rfl, rfl, trivial⟩
  exact ⟨hdr, _, decoded, same, ok, content, seq, ts⟩

end Pjmedia.Rtp
