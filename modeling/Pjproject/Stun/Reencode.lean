import Pjproject.Stun.Packet

/-!
# Encoding a message again

The encoder writes the MESSAGE-INTEGRITY and the FINGERPRINT that it computes back to the message, and
its length. A message that it has left so can be encoded again, whatever the buffer held before.
-/

namespace Pjnath.Stun
open Pj

/-- Values that differ in what the encoder computes, at most. -/
inductive AttrValue.Like : AttrValue → AttrValue → Prop
  | same (value : AttrValue) : Like value value
  | msgint (hmac hmac' : Vector UInt8 20) : Like (.msgint hmac) (.msgint hmac')
  | uint (value value' : UInt32) : Like (.uint value) (.uint value')

/-- Attributes that do. -/
structure Attr.Like (attr attr' : Attr) : Prop where
  type : attr'.type = attr.type
  length : attr'.length = attr.length
  value : attr.value.Like attr'.value

theorem Attr.Like.refl (attr : Attr) : attr.Like attr := ⟨rfl, rfl, .same attr.value⟩

variable {old : Nat → UInt8} {bufSize : Nat} {hmac : Str → Str → Vector UInt8 20} {crc : Str → UInt32}
variable {hdr hdr' : MsgHdr} {attr attr' : Attr} {out out' : Str}

theorem length_sockaddrBytes_if (xorEd : Bool) (sockaddr : Sockaddr) :
    (sockaddrBytes (if xorEd then xorSockaddr hdr sockaddr else sockaddr)).length =
      (sockaddrBytes sockaddr).length := by
  cases xorEd with
  | false => rfl
  | true => exact length_sockaddrBytes_xor sockaddr

/-- They need the same room. -/
theorem encodeValue_like (magic : hdr'.magic = hdr.magic) (like : attr.Like attr') {kind : Kind}
    {piece : Piece} (encoded : encodeValue hdr attr kind = some piece) :
    ∃ piece', encodeValue hdr' attr' kind = some piece' ∧ piece'.need = piece.need ∧
      piece'.body.length = piece.body.length := by
  have ⟨type, length, value⟩ := attr
  have ⟨type', length', value'⟩ := attr'
  obtain ⟨rfl, rfl, values⟩ := like
  cases values with
  | same =>
    cases kind <;> cases value <;> simp only [encodeValue, Option.some.injEq, reduceCtorEq] at encoded ⊢
    all_goals
      subst encoded
      simp [magic, length_sockaddrBytes_if]
  | msgint | uint =>
    cases kind <;> simp only [encodeValue, Option.some.injEq, reduceCtorEq] at encoded ⊢
    subst encoded
    simp [store32, store16]

/-- An attribute is encoded where one like it was. -/
theorem encodeAttr_like (old' : Nat → UInt8) (magic : hdr'.magic = hdr.magic) (like : attr.Like attr') {kind : Kind}
    (long : out'.length = out.length) {after : Str}
    (encoded : encodeAttr old bufSize hdr attr kind out = .ok after) :
    ∃ after', encodeAttr old' bufSize hdr' attr' kind out' = .ok after' ∧
      after'.length = after.length := by
  have ⟨piece, _, found, room, _⟩ := encodeAttr_ok encoded
  have ⟨piece', found', need, body⟩ := encodeValue_like magic like found
  have room' : Roomy bufSize out'.length kind piece' := by
    constructor
    all_goals rw [long]
    · exact room.start
    · exact need ▸ room.need
    · exact body ▸ room.inside
  obtain ⟨after', encoded'⟩ := @Roomy.encodes old' _ _ _ _ _ _ room' found'
  refine ⟨after', encoded', ?_⟩
  rw [length_encodeAttr found' encoded', length_encodeAttr found encoded, long, body]

variable {attrs : List Attr}

variable {attrs' : List Attr}

/-- The first loop goes as far. -/
theorem encodeAttrs_like (old' : Nat → UInt8) (magic : hdr'.magic = hdr.magic)
    {stopped : List Attr} (like : List.Forall₂ Attr.Like attrs attrs') {after : Str}
    (long : out'.length = out.length)
    (encoded : encodeAttrs old bufSize hdr attrs out = .ok (after, stopped)) :
    ∃ after' stopped', encodeAttrs old' bufSize hdr' attrs' out' = .ok (after', stopped') ∧
      after'.length = after.length ∧ List.Forall₂ Attr.Like stopped stopped' := by
  induction like generalizing out out' with
  | nil =>
    cases encoded
    exact ⟨out', [], rfl, long, .nil⟩
  | @cons attr attr' rest rest' first others ih =>
    simp only [encodeAttrs, first.type] at encoded ⊢
    split at encoded
    · rename_i special
      rw [if_pos special]
      cases encoded
      exact ⟨out', attr' :: rest', rfl, long, .cons first others⟩
    · rename_i plain
      rw [if_neg plain]
      cases one : encodeAttr old bufSize hdr attr (kindOf attr.type) out with
      | error fault => simp [one] at encoded
      | ok middle =>
        obtain ⟨middle', again, same⟩ := encodeAttr_like old' magic first long one
        rw [one] at encoded
        rw [again]
        exact ih same encoded

variable {amsgint afingerprint : Option Attr} {found : Option Attr × Option Attr}

variable {amsgint' afingerprint' : Option Attr}

/-- The second loop finds what it found. -/
theorem scanAttrs_like (like : List.Forall₂ Attr.Like attrs attrs')
    (msgint : Option.Rel Attr.Like amsgint amsgint')
    (fingerprint : Option.Rel Attr.Like afingerprint afingerprint')
    (scanned : scanAttrs attrs amsgint afingerprint = .ok found) :
    ∃ found', scanAttrs attrs' amsgint' afingerprint' = .ok found' ∧
      Option.Rel Attr.Like found.1 found'.1 ∧ Option.Rel Attr.Like found.2 found'.2 := by
  induction like generalizing amsgint amsgint' afingerprint afingerprint' with
  | nil =>
    cases scanned
    exact ⟨_, rfl, msgint, fingerprint⟩
  | @cons attr attr' rest rest' first others ih =>
    simp only [scanAttrs, first.type] at scanned ⊢
    have some1 : afingerprint'.isSome = afingerprint.isSome := by cases fingerprint <;> rfl
    have some2 : amsgint'.isSome = amsgint.isSome := by cases msgint <;> rfl
    rw [some1, some2]
    split at scanned
    · cases scanned
    · rename_i before
      rw [if_neg before]
      split at scanned
      · rename_i special
        rw [if_pos special]
        split at scanned
        · cases scanned
        · rename_i single
          rw [if_neg single]
          exact ih (.some first) fingerprint scanned
      · rename_i plain
        rw [if_neg plain]
        split at scanned
        · rename_i special
          rw [if_pos special]
          exact ih msgint (.some first) scanned
        · rename_i other
          rw [if_neg other]
          exact ih msgint fingerprint scanned

theorem length_setLength (long : out'.length = out.length) (length length' : UInt16) :
    (setLength out' length').length = (setLength out length).length := by
  simp [setLength, long, store16]

variable {msg msg' : Msg} {key : Option Str}

variable {after : Str × Msg}

section
variable (old' : Nat → UInt8) (magic : msg'.hdr.magic = msg.hdr.magic)
include old' magic

/-- There is room for the MESSAGE-INTEGRITY. -/
theorem encodeMsgint_like (like : Option.Rel Attr.Like amsgint amsgint')
    (long : out'.length = out.length)
    (encoded : encodeMsgint old bufSize hmac key amsgint out msg = .ok after) :
    ∃ after', encodeMsgint old' bufSize hmac key amsgint' out' msg' = .ok after' ∧
      after'.1.length = after.1.length := by
  rcases encodeMsgint_ok encoded with ⟨rfl, rfl⟩ |
    ⟨attr, secret, digest, written, rfl, rfl, value, one, rfl⟩
  · cases like
    exact ⟨(out', msg'), rfl, long⟩
  · cases like with
    | @some _ attr' like =>
      have ⟨digest', value'⟩ : ∃ digest', attr'.value = .msgint digest' := by
        have values := like.value
        rw [value] at values
        generalize attr'.value = value' at values
        cases values <;> exact ⟨_, rfl⟩
      have signed : Attr.Like { attr with value := .msgint (hmac secret out) }
          { attr' with value := .msgint (hmac secret out') } := ⟨like.type, like.length, .msgint _ _⟩
      have ⟨written', again, same⟩ := encodeAttr_like old' magic signed long one
      simp only [encodeMsgint, value', again]
      exact ⟨_, rfl, same⟩

/-- There is room for the FINGERPRINT. -/
theorem encodeFingerprint_like (like : Option.Rel Attr.Like afingerprint afingerprint')
    (long : out'.length = out.length)
    (encoded : encodeFingerprint old bufSize crc afingerprint out msg = .ok after) :
    ∃ after', encodeFingerprint old' bufSize crc afingerprint' out' msg' = .ok after' ∧
      after'.1.length = after.1.length := by
  rcases encodeFingerprint_ok encoded with ⟨rfl, rfl⟩ | ⟨attr, before, written, rfl, value, one, rfl⟩
  · cases like
    exact ⟨(out', msg'), rfl, long⟩
  · cases like with
    | @some _ attr' like =>
      have ⟨before', value'⟩ : ∃ before', attr'.value = .uint before' := by
        have values := like.value
        rw [value] at values
        generalize attr'.value = value' at values
        cases values <;> exact ⟨_, rfl⟩
      have signed : Attr.Like
          { attr with value := .uint (crc (setLength out (packetLength out + 8)) ^^^
            stunXorFingerprint) }
          { attr' with
            value := .uint (crc (setLength out' (packetLength out' + 8)) ^^^ stunXorFingerprint) } :=
        ⟨like.type, like.length, .uint _ _⟩
      have ⟨written', again, same⟩ := encodeAttr_like old' magic signed
        (length_setLength long _ (packetLength out' + 8)) one
      simp only [encodeFingerprint, value', again]
      exact ⟨_, rfl, same⟩

end

/-- What one of the last two attributes leaves of a message. -/
def Sealed (found : Option Attr) (msg msg' : Msg) : Prop :=
  msg' = msg ∨ ∃ attr attr', found = some attr ∧ attr.Like attr' ∧ msg' = msg.patch attr'

theorem encodeMsgint_sealed (encoded : encodeMsgint old bufSize hmac key amsgint out msg = .ok
    after) :
    Sealed amsgint msg after.2 := by
  rcases encodeMsgint_ok encoded with ⟨-, rfl⟩ | ⟨attr, secret, _, _, found, -, value, -, rfl⟩
  · exact .inl rfl
  · refine .inr ⟨attr, { attr with value := .msgint (hmac secret out) }, found, ⟨rfl, rfl, ?_⟩, rfl⟩
    rw [value]
    exact .msgint _ _

theorem encodeFingerprint_sealed
    (encoded : encodeFingerprint old bufSize crc afingerprint out msg = .ok after) :
    Sealed afingerprint msg after.2 := by
  rcases encodeFingerprint_ok encoded with ⟨-, rfl⟩ | ⟨attr, _, _, found, value, -, rfl⟩
  · exact .inl rfl
  · refine .inr ⟨attr, { attr with value := .uint _ }, found, ⟨rfl, rfl, ?_⟩, rfl⟩
    rw [value]
    exact .uint _ _

theorem Sealed.keepsHdr {found : Option Attr} (h : Sealed found msg msg') : msg'.hdr = msg.hdr := by
  rcases h with rfl | ⟨_, _, _, _, rfl⟩ <;> rfl

/-- A message is encoded where one like it was. -/
theorem pjStunMsgEncode_like (old' : Nat → UInt8) (magic : msg'.hdr.magic = msg.hdr.magic)
    (like : List.Forall₂ Attr.Like msg.attr msg'.attr)
    (encoded : pjStunMsgEncode old bufSize hmac crc msg key = .ok after) :
    ∃ after', pjStunMsgEncode old' bufSize hmac crc msg' key = .ok after' ∧
      after'.1.length = after.1.length := by
  have ⟨room, body, stopped, found, signed, packet, attrs, scanned, first, second, same⟩ :=
    pjStunMsgEncode_ok encoded
  cases same
  have startLong : (hdrBytes msg'.hdr 0).length = (hdrBytes msg.hdr 0).length := by
    rw [length_hdrBytes, length_hdrBytes]
  have ⟨body', stopped', attrs', bodyLong, stoppedLike⟩ := encodeAttrs_like old' magic
    like startLong attrs
  have ⟨found', scanned', msgint, fingerprint⟩ := scanAttrs_like stoppedLike .none .none scanned
  have ⟨signed', first', signedLong⟩ := encodeMsgint_like old' magic msgint
    (length_setLength bodyLong _ (UInt16.ofNat (body'.length - 20 +
      if found'.1.isSome then 24 else 0))) first
  have signedMagic : signed'.2.hdr.magic = signed.2.hdr.magic := by
    rw [(encodeMsgint_sealed first').keepsHdr, (encodeMsgint_sealed first).keepsHdr, magic]
  have ⟨packet', second', packetLong⟩ := encodeFingerprint_like old'
    signedMagic fingerprint signedLong second
  refine ⟨(packet'.1, { packet'.2 with
    hdr := { packet'.2.hdr with length := UInt16.ofNat (packet'.1.length - 20) } }), ?_, packetLong⟩
  have positive : ¬bufSize = 0 := by omega
  simp only [pjStunMsgEncode, if_neg positive, if_neg (Nat.not_lt.mpr room), attrs', bind,
    Except.bind,
    scanned', first', second', pure, Except.pure]

/-! ## What is written back -/

/-- The first loop stops at the first MESSAGE-INTEGRITY or FINGERPRINT. -/
theorem encodeAttrs_stopped {stopped : List Attr} {after : Str}
    (encoded : encodeAttrs old bufSize hdr attrs out = .ok (after, stopped))
    (among : attr ∈ attrs)
    (special : attr.type = attrMessageIntegrity ∨ attr.type = attrFingerprint) :
    attr ∈ stopped := by
  induction attrs generalizing out with
  | nil => cases among
  | cons first rest ih =>
    simp only [encodeAttrs] at encoded
    split at encoded
    · cases encoded
      exact among
    · rename_i plain
      split at encoded
      · cases encoded
      · cases List.mem_cons.mp among with
        | inl same => exact absurd (same ▸ special) plain
        | inr later => exact ih encoded later

/-- Nothing stands behind the FINGERPRINT. -/
theorem scanAttrs_fingerprint {afingerprint : Attr}
    (scanned : scanAttrs attrs amsgint (some afingerprint) = .ok found) :
    attrs = [] ∧ found = (amsgint, some afingerprint) := by
  cases attrs with
  | nil =>
    cases scanned
    exact ⟨rfl, rfl⟩
  | cons attr rest => cases scanned

/-- A MESSAGE-INTEGRITY is the one that is found, and so is a FINGERPRINT. -/
theorem scanAttrs_found (scanned : scanAttrs attrs amsgint none = .ok found) :
    (∀ known, amsgint = some known → found.1 = some known) ∧
      (∀ attr ∈ attrs, attr.type = attrMessageIntegrity → found.1 = some attr) ∧
        ∀ attr ∈ attrs, attr.type = attrFingerprint → found.2 = some attr := by
  induction attrs generalizing amsgint with
  | nil =>
    cases scanned
    exact ⟨fun _ same => same, by simp, by simp⟩
  | cons first rest ih =>
    have apart : attrMessageIntegrity ≠ attrFingerprint := by decide
    simp only [scanAttrs, Option.isSome_none, Bool.false_eq_true, if_false] at scanned
    by_cases msgint : first.type = attrMessageIntegrity
    · rw [if_pos msgint] at scanned
      cases amsgint with
      | some known => cases scanned
      | none =>
        obtain ⟨kept, msgints, fingerprints⟩ := ih scanned
        refine ⟨by simp, ?_, ?_⟩
        · intro attr among special
          cases List.mem_cons.mp among with
          | inl same => rw [same, kept first rfl]
          | inr later => exact msgints attr later special
        · intro attr among special
          cases List.mem_cons.mp among with
          | inl same => exact absurd (msgint.symm.trans (same ▸ special)) apart
          | inr later => exact fingerprints attr later special
    · rw [if_neg msgint] at scanned
      by_cases fingerprint : first.type = attrFingerprint
      · rw [if_pos fingerprint] at scanned
        obtain ⟨rfl, rfl⟩ := scanAttrs_fingerprint scanned
        refine ⟨fun known same => same, ?_, ?_⟩
        · intro attr among special
          rw [List.mem_singleton] at among
          exact absurd (among ▸ special) msgint
        · intro attr among special
          rw [List.mem_singleton] at among
          rw [among]
      · rw [if_neg fingerprint] at scanned
        obtain ⟨kept, msgints, fingerprints⟩ := ih scanned
        refine ⟨kept, ?_, ?_⟩
        · intro attr among special
          cases List.mem_cons.mp among with
          | inl same => exact absurd (same ▸ special) msgint
          | inr later => exact msgints attr later special
        · intro attr among special
          cases List.mem_cons.mp among with
          | inl same => exact absurd (same ▸ special) fingerprint
          | inr later => exact fingerprints attr later special

theorem AttrValue.Like.trans {first second third : AttrValue} (h : first.Like second)
    (k : second.Like third) : first.Like third := by
  cases h with
  | same => exact k
  | msgint hmac hmac' => cases k <;> exact .msgint _ _
  | uint value value' => cases k <;> exact .uint _ _

theorem Attr.Like.trans {first second third : Attr} (h : first.Like second) (k : second.Like third) :
    first.Like third :=
  ⟨k.type.trans h.type, k.length.trans h.length, h.value.trans k.value⟩

theorem likes_trans {first second third : List Attr} (h : List.Forall₂ Attr.Like first second)
    (k : List.Forall₂ Attr.Like second third) : List.Forall₂ Attr.Like first third := by
  induction h generalizing third with
  | nil => exact k
  | cons head _ ih =>
    cases k with
    | cons next rest => exact .cons (head.trans next) (ih rest)

/-- What is patched in is like what was there. -/
theorem patch_like (like : ∀ other ∈ msg.attr, other.type = attr.type → other.Like attr) :
    List.Forall₂ Attr.Like msg.attr (msg.patch attr).attr := by
  simp only [Msg.patch]
  rw [List.forall₂_map_right_iff, List.forall₂_same]
  intro other among
  split
  · exact like other among ‹_›
  · exact .refl other

section
variable {found : Option Attr} {type : UInt16} (h : Sealed found msg msg')
include h

/-- The attribute of a type is written back. -/
theorem Sealed.like (only : ∀ attr ∈ msg.attr, attr.type = type → found = some attr)
    (special : ∀ attr, found = some attr → attr.type = type) :
    List.Forall₂ Attr.Like msg.attr msg'.attr := by
  rcases h with rfl | ⟨known, attr, found, like, rfl⟩
  · exact List.forall₂_same.mpr fun attr _ => .refl attr
  · apply patch_like
    intro other among same
    have there := only other among (same.trans (like.type.trans (special known found)))
    cases found.symm.trans there
    exact like

/-- It leaves the attributes of other types alone. -/
theorem Sealed.other (special : ∀ attr, found = some attr → attr.type = type)
    (among : attr ∈ msg'.attr) (other : attr.type ≠ type) : attr ∈ msg.attr := by
  rcases h with rfl | ⟨known, attr', found, like, rfl⟩
  · exact among
  · simp only [Msg.patch, List.mem_map] at among
    have ⟨before, there, same⟩ := among
    split at same
    · exact absurd (same ▸ like.type.trans (special known found)) other
    · exact same ▸ there

end

/-- What holds of each MESSAGE-INTEGRITY, and of each FINGERPRINT, holds of those that the second
loop finds. -/
theorem scanAttrs_of {P Q : Attr → Prop}
    (msgints : ∀ attr ∈ attrs, attr.type = attrMessageIntegrity → P attr)
    (fingerprints : ∀ attr ∈ attrs, attr.type = attrFingerprint → Q attr)
    (msgint : ∀ attr, amsgint = some attr → P attr)
    (fingerprint : ∀ attr, afingerprint = some attr → Q attr)
    (scanned : scanAttrs attrs amsgint afingerprint = .ok found) :
    (∀ attr, found.1 = some attr → P attr) ∧ ∀ attr, found.2 = some attr → Q attr := by
  induction attrs generalizing amsgint afingerprint with
  | nil =>
    cases scanned
    exact ⟨msgint, fingerprint⟩
  | cons first rest ih =>
    rw [List.forall_mem_cons] at msgints fingerprints
    have ih {amsgint afingerprint} := @ih amsgint afingerprint msgints.2 fingerprints.2
    simp only [scanAttrs] at scanned
    split at scanned
    · cases scanned
    · split at scanned
      · rename_i special
        split at scanned
        · cases scanned
        · exact ih (fun attr same => Option.some.inj same ▸ msgints.1 special) fingerprint scanned
      · split at scanned
        · rename_i special
          exact ih msgint (fun attr same => Option.some.inj same ▸ fingerprints.1 special) scanned
        · exact ih msgint fingerprint scanned

/-- The encoder keeps the header but its length, and the attributes but what it computes. -/
theorem pjStunMsgEncode_result {packet : Str}
    (encoded : pjStunMsgEncode old bufSize hmac crc msg key = .ok (packet, msg')) :
    msg'.hdr = { msg.hdr with length := UInt16.ofNat (packet.length - 20) } ∧
      List.Forall₂ Attr.Like msg.attr msg'.attr := by
  have ⟨_, body, stopped, found, signed, last, attrs, scanned, first, second, same⟩ :=
    pjStunMsgEncode_ok encoded
  cases same
  have ⟨_, msgints, fingerprints⟩ := scanAttrs_found scanned
  have ⟨msgint, fingerprint⟩ :=
    scanAttrs_of (fun _ _ same => same) (fun _ _ same => same) (by simp) (by simp) scanned
  have apart : attrFingerprint ≠ attrMessageIntegrity := by decide
  have signs := encodeMsgint_sealed first
  have ends := encodeFingerprint_sealed second
  constructor
  · rw [ends.keepsHdr, signs.keepsHdr]
  · apply likes_trans
    · exact signs.like (fun attr among special =>
        msgints attr (encodeAttrs_stopped attrs among (.inl special)) special) msgint
    · exact ends.like (fun attr among special => fingerprints attr (encodeAttrs_stopped attrs
        (signs.other msgint among (special ▸ apart)) (.inr special)) special) fingerprint

/-- A message that the encoder has left can be encoded again. -/
theorem encode_again {packet : Str} (old' : Nat → UInt8)
    (encoded : pjStunMsgEncode old bufSize hmac crc msg key = .ok (packet, msg')) :
    ∃ after, pjStunMsgEncode old' bufSize hmac crc msg' key = .ok after ∧
      after.1.length = packet.length := by
  have ⟨hdr, like⟩ := pjStunMsgEncode_result encoded
  exact pjStunMsgEncode_like old' (by rw [hdr]) like encoded

end Pjnath.Stun
