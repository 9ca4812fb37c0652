import Pjproject.Stun.Auth
import Pjproject.Stun.Packet

/-!
# What is signed is verified

The verifier finds MESSAGE-INTEGRITY by the lengths of the attributes before it, and puts the length of
the header right where something follows. It so hashes the bytes that the encoder has hashed.
-/

namespace Pjnath.Stun
open List hiding Vector
open Option Pj Traced

variable {hdr : MsgHdr} {body : List Attr} {amsgint afingerprint : Option Attr}
variable {old : Nat → UInt8} {bufSize : Nat} {hmac : Str → Str → Vector UInt8 20} {crc : Str → UInt32}
variable {key : Option Str} {msg after : Msg} {packet : Str} {mem : Nat → UInt8}
variable {digest : Vector UInt8 20} {fingerprint : UInt32} {chunks seals : List Str}

/-! ## The size of a packet -/

variable {attr : Attr} {attrs : List Attr} {out written : Str}

/-- What is written is in the buffer, but perhaps for padding. -/
theorem encodeAttr_fits {kind : Kind}
    (encoded : encodeAttr old bufSize hdr attr kind out = .ok written) :
    written.length ≤ bufSize + 3 := by
  have ⟨piece, _, found, room, _⟩ := encodeAttr_ok encoded
  have length := length_encodeAttr found encoded
  have inside := room.inside
  unfold pad4 at length
  omega

theorem encodeAttrs_fits {stopped : List Attr} (fits : out.length ≤ bufSize + 3)
    (encoded : encodeAttrs old bufSize hdr attrs out = .ok (written, stopped)) :
    written.length ≤ bufSize + 3 := by
  induction attrs generalizing out with
  | nil =>
    cases encoded
    exact fits
  | cons attr rest ih =>
    unfold encodeAttrs at encoded
    split at encoded
    · cases encoded
      exact fits
    · split at encoded
      · cases encoded
      · next between one => exact ih (encodeAttr_fits one) encoded

theorem setLength_length_le (out : Str) (length : UInt16) :
    (setLength out length).length ≤ max 4 out.length := by
  simp only [setLength, length_append, length_take, length_drop, length_store16]
  omega

/-- A packet is no longer than the buffer, but perhaps for padding. -/
theorem pjStunMsgEncode_fits
    (encoded : pjStunMsgEncode old bufSize hmac crc msg key = .ok (packet, after)) :
    packet.length ≤ bufSize + 3 := by
  have ⟨room, out, stopped, found, signed, last, attrs, _, first, second, same⟩ :=
    pjStunMsgEncode_ok encoded
  cases same
  have start : (hdrBytes msg.hdr 0).length ≤ bufSize + 3 := by
    rw [length_hdrBytes]
    omega
  have signedFits : signed.1.length ≤ bufSize + 3 := by
    rcases encodeMsgint_ok first with ⟨-, rfl⟩ | ⟨_, _, _, _, -, -, -, one, rfl⟩
    · have set := setLength_length_le out (UInt16.ofNat (out.length - 20 +
        if found.1.isSome then 24 else 0))
      have fits := encodeAttrs_fits start attrs
      dsimp only
      omega
    · exact encodeAttr_fits one
  rcases encodeFingerprint_ok second with ⟨-, rfl⟩ | ⟨_, _, _, -, -, one, rfl⟩
  · exact signedFits
  · exact encodeAttr_fits one

/-! ## The position -/

/-- The position behind attributes before MESSAGE-INTEGRITY is that behind their chunks. -/
theorem locateMsgint_chunks {rest : List Attr} (all : List.Forall₂ (Chunk hdr) attrs chunks)
    (before : ∀ attr ∈ attrs, attr.type ≠ attrMessageIntegrity)
    (small : chunks.flatten.length < 2 ^ 16) (position : Nat) :
    locateMsgint (attrs ++ rest) none position = locateMsgint rest none (position + chunks.flatten.length) := by
  induction all generalizing position with
  | nil => rfl
  | @cons attr chunk attrs chunks fine _ ih =>
    rw [flatten_cons, length_append] at small ⊢
    have length := fine.length
    have longer := pad4_ge (initLength attr.value)
    have extent : pad4 attr.length.toNat + 4 = chunk.length := fine.extent (by omega)
    rw [cons_append, locateMsgint, if_neg (before attr mem_cons_self),
      if_neg (by decide : ¬(none : Option Attr).isSome), extent,
      ih (fun other among => before other (mem_cons_of_mem _ among)) (by omega), Nat.add_assoc]

section
variable
  (h : Packet hmac crc key hdr body (some attr) afingerprint digest fingerprint packet chunks seals)
include h

/-- The verifier finds the MESSAGE-INTEGRITY of a packet where it is. -/
theorem Packet.locate (arranged : Arranged attrs body (some attr) afingerprint)
    (small : packet.length < 2 ^ 16 + 20) :
    locateMsgint (backAttrs hdr body (some attr) afingerprint digest fingerprint) none 0 =
      (some (createAttr attr.type (.msgint digest)), chunks.flatten.length, afingerprint.isSome) := by
  have length := h.length
  rw [length_append] at length
  have all : List.Forall₂ (Chunk hdr) (body.map (Attr.received hdr)) chunks :=
    List.forall₂_map_left_iff.mpr h.body
  have before : ∀ other ∈ body.map (Attr.received hdr), other.type ≠ attrMessageIntegrity := by
    intro other among
    obtain ⟨sent, inside, rfl⟩ := mem_map.mp among
    exact (not_or.mp (arranged.body sent inside)).1
  have special : (createAttr attr.type (.msgint digest)).type = attrMessageIntegrity :=
    arranged.msgint attr rfl
  rw [backAttrs, locateMsgint_chunks all before (by omega), Nat.zero_add, sealAttrs, map_some,
    toList_some, singleton_append, locateMsgint, if_pos special]
  cases afingerprint with
  | none => rfl
  | some last =>
    have other : (createAttr last.type (.uint fingerprint)).type ≠ attrMessageIntegrity := by
      have type : (createAttr last.type (.uint fingerprint)).type = attrFingerprint :=
        arranged.fingerprint last rfl
      rw [type]
      decide
    rw [map_some, toList_some, locateMsgint, if_neg other]
    rfl

/-- MESSAGE-INTEGRITY takes 24 bytes. -/
theorem Packet.msgint_length : ∃ chunk rest, seals = chunk :: rest ∧ chunk.length = 24 := by
  have sealed : List.Forall₂ (Chunk hdr) (createAttr attr.type (.msgint digest) :: _) seals := h.sealed
  cases sealed with
  | cons fine rest => exact ⟨_, _, rfl, fine.length.trans (by decide : pad4 20 + 4 = 24)⟩

/-- The verifier hashes what the encoder has hashed. -/
theorem Packet.signedBytes (held : Holds mem 0 packet) :
    signedBytes mem chunks.flatten.length afingerprint.isSome =
      hdrBytes hdr (UInt16.ofNat (chunks.flatten.length + 24)) ++ chunks.flatten := by
  rw [h.bytes] at held
  have parts := holds_append.mp held
  have header : bytesAt mem 0 20 = hdrBytes hdr (UInt16.ofNat (chunks.flatten ++ seals.flatten).length) := by
    have read := bytesAt_of_holds parts.1
    rw [length_hdrBytes] at read
    exact read
  have start : bytesAt mem 20 chunks.flatten.length = chunks.flatten := by
    have second := parts.2
    rw [length_hdrBytes] at second
    exact bytesAt_of_holds (holds_append.mp second).1
  rw [Stun.signedBytes, header, start]
  cases afingerprint with
  | some last =>
    have set := setLength_hdrBytes hdr (UInt16.ofNat (chunks.flatten ++ seals.flatten).length)
      (UInt16.ofNat (chunks.flatten.length + 24)) []
    rw [append_nil, append_nil] at set
    exact congrArg (· ++ chunks.flatten) set
  | none =>
    have sealed : List.Forall₂ (Chunk hdr) [createAttr attr.type (.msgint digest)] seals := h.sealed
    have one : seals.flatten.length = 24 := by
      cases sealed with
      | cons fine rest =>
        cases rest
        rw [flatten_singleton, fine.length]
        exact (by decide : pad4 20 + 4 = 24)
    rw [length_append, one]
    rfl

end

/-! ## Attributes that are asked for -/

section
variable {attrType : UInt16} (h : Arranged attrs body amsgint afingerprint)
  (msgint : attrType ≠ attrMessageIntegrity) (last : attrType ≠ attrFingerprint)
include h msgint last

/-- An attribute of another type than the last two is found before them. -/
theorem Arranged.findAttr (there : MsgHdr) :
    pjStunMsgFindAttr ⟨there, attrs⟩ attrType = body.find? fun attr => attr.type = attrType := by
  have none : (amsgint.toList ++ afingerprint.toList).find? (fun attr => attr.type = attrType) = none := by
    apply find?_eq_none.mpr
    intro attr among
    rw [decide_eq_true_eq]
    rintro rfl
    cases mem_append.mp among with
    | inl inside => exact msgint (h.msgint attr (mem_toList.mp inside))
    | inr inside => exact last (h.fingerprint attr (mem_toList.mp inside))
  rw [pjStunMsgFindAttr, h.attrs]
  rw [find?_append, none, or_none]

/-- What comes back of an attribute of another type than the last two is found. -/
theorem Arranged.findAttr_back (hdr there other : MsgHdr) :
    pjStunMsgFindAttr ⟨there, backAttrs hdr body amsgint afingerprint digest fingerprint⟩ attrType =
      (pjStunMsgFindAttr ⟨other, attrs⟩ attrType).map (Attr.received hdr) := by
  rw [(h.received hdr digest fingerprint).findAttr msgint last, h.findAttr msgint last, find?_map]
  rfl

end

/-- Strings come back as they are: the magic number is that of today, or they need no padding. -/
def StringsKept (msg : Msg) : Prop :=
  msg.hdr.magic = pjStunMagic ∨
    ∀ attr ∈ msg.attr, ∀ value, attr.value = .string value → value.length % 4 = 0

theorem stringPadding_nil {value : Str} (aligned : value.length % 4 = 0) : stringPadding value = [] := by
  have none : pad4 value.length - value.length = 0 := by
    unfold pad4
    omega
  rw [stringPadding, none]
  rfl

theorem received_str (kept : StringsKept msg) (among : attr ∈ msg.attr)
    (kind : kindOf attr.type = .string) (other : attr.type ≠ attrSoftware) :
    (attr.received msg.hdr).str = attr.str := by
  have ⟨type, length, value⟩ := attr
  rw [Attr.received, kind]
  cases value with
  | string text =>
    change (if msg.hdr.magic ≠ pjStunMagic ∨ type = attrSoftware then text ++ stringPadding text else text) = text
    split
    · next padded =>
      have old := padded.resolve_right other
      have aligned := kept.resolve_left old _ among text rfl
      rw [stringPadding_nil aligned, append_nil]
    · rfl
  | _ => rfl

/-- A string that is asked for comes back. -/
theorem Arranged.findStr_back (h : Arranged msg.attr body amsgint afingerprint) (kept : StringsKept msg)
    {attrType : UInt16} (msgint : attrType ≠ attrMessageIntegrity) (last : attrType ≠ attrFingerprint)
    (kind : kindOf attrType = .string) (other : attrType ≠ attrSoftware) (there : MsgHdr) :
    findStr ⟨there, backAttrs msg.hdr body amsgint afingerprint digest fingerprint⟩ attrType =
      findStr msg attrType := by
  rw [findStr, findStr, h.findAttr_back msgint last msg.hdr there msg.hdr, Option.map_map]
  cases found : pjStunMsgFindAttr ⟨msg.hdr, msg.attr⟩ attrType with
  | none => rfl
  | some attr =>
    have among : attr ∈ msg.attr := mem_of_find?_eq_some found
    have first : msg.attr.find? (fun attr => attr.type = attrType) = some attr := found
    have type : attr.type = attrType := by
      have chosen := find?_some first
      exact of_decide_eq_true chosen
    rw [← type] at kind other
    exact congrArg some (received_str kept among kind other)

/-! ## Verification -/

variable {arealm : Option Str}

/-- A static credential that matches a message and yields a key. A short-term credential that has a
nonce is left out: the verifier asks for a nonce and has not looked whether there is one. -/
structure StaticCred.Matches (md5 : Str → Str) (cred : StaticCred) (msg : Msg) (secret : Str) : Prop where
  username : findStr msg attrUsername = some cred.username
  realm : cred.realm ≠ [] → ∃ realm, findStr msg attrRealm = some realm ∧ pjStricmpEq realm cred.realm
  nonce : cred.nonce ≠ [] → findStr msg attrNonce = some cred.nonce
  key : pjStunCreateKey md5 cred.realm cred.username cred.dataType cred.data = secret
  term : cred.realm = [] → findStr msg attrRealm = none → cred.nonce = []

/-- The MESSAGE-INTEGRITY that comes back is the one that the verifier calculates. -/
theorem Packet.verified {secret : Str}
    (h : Packet hmac crc (some secret) hdr body (some attr) afingerprint digest fingerprint packet chunks
      seals) (held : Holds mem 0 packet) :
    (createAttr attr.type (.msgint digest)).value =
      .msgint (hmac secret (Stun.signedBytes mem chunks.flatten.length afingerprint.isSome)) := by
  have ⟨other, same, signed⟩ := h.digest rfl
  cases same
  rw [h.signedBytes held, ← signed]
  rfl

variable {md5 : Str → Str} {cred : StaticCred} {secret : Str}

section
variable (h : cred.Matches md5 msg secret)
include h

theorem StaticCred.Matches.checkTerm :
    Stun.checkTerm cred.realm cred.nonce (findStr msg attrRealm) (findStr msg attrNonce) = .ok () := by
  unfold Stun.checkTerm
  cases found : findStr msg attrRealm with
  | none =>
    by_cases long : cred.realm ≠ []
    · have ⟨value, there, _⟩ := h.realm long
      rw [found] at there
      cases there
    · rw [if_neg long, if_neg (not_not.mpr (h.term (not_not.mp long) found))]
  | some value =>
    dsimp only
    by_cases short : cred.realm = []
    · rw [if_pos short]
    · have ⟨other, there, same⟩ := h.realm short
      rw [found] at there
      cases there
      have nonce : ¬((findStr msg attrNonce).isNone ∧ cred.nonce ≠ []) := by
        intro ⟨absent, asked⟩
        rw [h.nonce asked] at absent
        cases absent
      rw [if_neg short, if_neg nonce, same]
      rfl

theorem StaticCred.Matches.nonceOk {received : Msg} {auser : Str} :
    (findStr msg attrNonce).all ((AuthCred.static cred).nonceOk received cred.nonce arealm auser) = true := by
  by_cases asked : cred.nonce ≠ []
  · rw [h.nonce asked, all_some]
    exact decide_eq_true (.inr rfl)
  · cases findStr msg attrNonce with
    | none => rfl
    | some value =>
      exact decide_eq_true (.inl (not_not.mp asked))

theorem StaticCred.Matches.getKey {received : Msg} :
    (AuthCred.static cred).getKey md5 received cred.realm arealm cred.username =
      .ok (cred.username, secret) := by
  rw [AuthCred.getKey, if_pos rfl, h.key]

end

/-- The verifier of responses accepts a packet that has been signed with its key. -/
theorem Packet.response
    (h : Packet hmac crc (some secret) hdr body (some attr) afingerprint digest fingerprint packet chunks
      seals) (arranged : Arranged attrs body (some attr) afingerprint)
    (small : packet.length < 2 ^ 16 + 20) (held : Holds mem 0 packet) :
    pjStunAuthenticateResponse mem hmac
      ⟨{ hdr with length := UInt16.ofNat (packet.length - 20) },
        backAttrs hdr body (some attr) afingerprint digest fingerprint⟩ secret = .ok () := by
  have length := h.length
  have ⟨chunk, rest, first, long⟩ := h.msgint_length
  rw [first, length_append, flatten_cons, length_append] at length
  have enough : ¬UInt16.ofNat (packet.length - 20) < 24 := by
    rw [UInt16.lt_iff_toNat_lt, toNat_ofNat (by omega)]
    have bound : (24 : UInt16).toNat = 24 := rfl
    omega
  have there : createAttr attr.type (.msgint digest) ∈
      backAttrs hdr body (some attr) afingerprint digest fingerprint :=
    mem_append_right _ mem_cons_self
  unfold pjStunAuthenticateResponse
  cases found : pjStunMsgFindAttr ⟨{ hdr with length := UInt16.ofNat (packet.length - 20) },
      backAttrs hdr body (some attr) afingerprint digest fingerprint⟩ attrMessageIntegrity with
  | none =>
    have absent := find?_eq_none.mp found _ there
    exact absurd (decide_eq_true (arranged.msgint attr rfl)) absent
  | some other =>
    rw [if_neg enough, h.locate arranged small]
    dsimp only
    rw [if_neg (not_not.mpr (h.verified held))]

/-- The verifier of requests accepts a packet that has been signed with the key of a static credential
that matches. -/
theorem Packet.request
    (h : Packet hmac crc (some secret) msg.hdr body (some attr) afingerprint digest fingerprint packet chunks
      seals) (arranged : Arranged msg.attr body (some attr) afingerprint)
    (small : packet.length < 2 ^ 16 + 20) (held : Holds mem 0 packet) (kept : StringsKept msg)
    (matched : cred.Matches md5 msg secret) :
    pjStunAuthenticateRequest mem hmac md5
      ⟨{ msg.hdr with length := UInt16.ofNat (packet.length - 20) },
        backAttrs msg.hdr body (some attr) afingerprint digest fingerprint⟩ (.static cred) =
      .ok ⟨cred.realm, cred.username, cred.nonce, secret⟩ := by
  have str : ∀ attrType, attrType ≠ attrMessageIntegrity → attrType ≠ attrFingerprint →
      kindOf attrType = .string → attrType ≠ attrSoftware →
      findStr ⟨{ msg.hdr with length := UInt16.ofNat (packet.length - 20) },
        backAttrs msg.hdr body (some attr) afingerprint digest fingerprint⟩ attrType =
          findStr msg attrType := fun attrType msgint last kind other =>
    arranged.findStr_back kept msgint last kind other _
  have username := str attrUsername (by decide) (by decide) (by decide) (by decide)
  have realm := str attrRealm (by decide) (by decide) (by decide) (by decide)
  have nonce := str attrNonce (by decide) (by decide) (by decide) (by decide)
  have located := h.locate arranged small
  have verified := h.verified held
  have term := matched.checkTerm
  have present : ¬(cred.realm ≠ [] ∧ findStr msg attrRealm = none) := by
    intro ⟨long, absent⟩
    have ⟨value, there, _⟩ := matched.realm long
    rw [absent] at there
    cases there
  have auth : (AuthCred.static cred).getAuth = .ok (cred.realm, cred.nonce) := rfl
  unfold pjStunAuthenticateRequest
  rw [auth]
  dsimp only [bind, Except.bind]
  rw [located]
  rw [username, matched.username]
  dsimp only
  rw [realm, if_neg present, matched.getKey]
  rw [nonce, term]
  dsimp only
  rw [matched.nonceOk, if_neg (by decide), if_neg (not_not.mpr verified)]
  rfl

/-- What is signed is verified: the packet of a message with MESSAGE-INTEGRITY, last or followed by
FINGERPRINT, is decoded, and is accepted as a response with the key, and as a request with a static
credential that matches and yields the key. -/
theorem stun_signed_verified {options : Options} (sendable : ∀ attr ∈ msg.attr, Sendable attr)
    (count : msg.attr.length ≤ pjStunMaxAttr)
    (arranged : ∃ body attr afingerprint, Arranged msg.attr body (some attr) afingerprint)
    (buffer : bufSize ≤ pjStunMaxPktLen)
    (encoded : pjStunMsgEncode old bufSize hmac crc msg (some secret) = .ok (packet, after))
    (held : Holds mem 0 packet)
    (checked : options.checkPacket → (pjStunMsgCheck mem packet.length crc options).result = .ok ()) :
    ∃ received, (pjStunMsgDecode mem packet.length crc options).result = .ok received ∧
      pjStunAuthenticateResponse mem hmac received secret = .ok () ∧
      ∀ md5 cred, cred.Matches md5 msg secret → StringsKept msg →
        ∃ info, pjStunAuthenticateRequest mem hmac md5 received (.static cred) = .ok info := by
  have ⟨body, attr, afingerprint, arranged⟩ := arranged
  have ⟨digest, fingerprint, chunks, seals, sent, _, _⟩ :=
    pjStunMsgEncode_packet arranged sendable encoded
  have fits := pjStunMsgEncode_fits encoded
  have small : packet.length < 2 ^ 16 + 20 := by
    unfold pjStunMaxPktLen at buffer
    omega
  have length := sent.length
  have decoded := sent.decodeMsg arranged count small held
  have whole : (pjStunMsgDecode mem packet.length crc options).result = (decodeMsg mem).result := by
    rw [pjStunMsgDecode, if_neg (by omega)]
    split
    · next asked => rw [result_bind_of_ok (checked asked)]
    · rfl
  refine ⟨_, whole.trans decoded, sent.response arranged small held, ?_⟩
  intro md5 cred matched kept
  exact ⟨_, sent.request arranged small held kept matched⟩

/-- A function of the key and the bytes in the place of HMAC-SHA1. -/
def lengthHmac (key bytes : Str) : Vector UInt8 20 :=
  Vector.replicate 20 (UInt8.ofNat (List.length key + List.length bytes))

/-- A binding request of a user, with some attributes between USERNAME and MESSAGE-INTEGRITY. -/
def signedRequest (attrs : List Attr) : Msg where
  hdr := ⟨0x0001, 0, pjStunMagic, Vector.replicate 12 0⟩
  attr := createAttr attrUsername (.string [117]) :: attrs ++
    [createAttr attrMessageIntegrity (.msgint (Vector.replicate 20 0))]

/-- What the encoder makes of it. -/
def signedPacket (attrs : List Attr) : Except Fault (Str × Msg) :=
  pjStunMsgEncode (fun _ => 0) 100 lengthHmac (fun _ => 0) (signedRequest attrs) (some [112])

/-- A request with nothing between is decoded and accepted. -/
theorem stun_signed_verified_short_term :
    ∃ packet after, signedPacket [] = .ok (packet, after) ∧
      ∃ received, (pjStunMsgDecode (packet.getD · 0) packet.length (fun _ => 0) ⟨true, false, false⟩).result =
          .ok received ∧
        ∃ info, pjStunAuthenticateRequest (packet.getD · 0) lengthHmac id received
          (.static ⟨[], [117], .plain, [112], []⟩) = .ok info := by
  have encoded : signedPacket [] = .ok (_, _) := rfl
  have sendable : ∀ attr ∈ (signedRequest []).attr, Sendable attr := by
    intro attr among
    rcases mem_cons.mp among with rfl | among
    · exact ⟨rfl, nofun, by decide⟩
    · rw [mem_singleton.mp among]
      exact ⟨rfl, nofun, by decide⟩
  have arranged : Arranged (signedRequest []).attr [createAttr attrUsername (.string [117])]
      (some (createAttr attrMessageIntegrity (.msgint (Vector.replicate 20 0)))) none :=
    ⟨rfl, by decide, fun _ same => some.inj same ▸ rfl, nofun⟩
  have matched : (StaticCred.mk [] [117] .plain [112] []).Matches id (signedRequest []) [112] :=
    ⟨rfl, nofun, nofun, rfl, fun _ _ => rfl⟩
  have ⟨received, decoded, _, requests⟩ := stun_signed_verified sendable (by decide)
    ⟨_, _, _, arranged⟩ (by decide) encoded (holds_getD [] _)
    (nofun : (Options.mk true false false).checkPacket → _)
  exact ⟨_, _, encoded, received, decoded, requests id _ matched (.inl rfl)⟩

/-- An attribute of an unknown mandatory type is signed, but not decoded; and a short-term credential with
a nonce rejects a request that has it. -/
theorem stun_signed_rejected :
    (∃ packet after, signedPacket [createAttr 0x0031 (.binary [])] = .ok (packet, after) ∧
      (pjStunMsgDecode (packet.getD · 0) packet.length (fun _ => 0) ⟨true, false, false⟩).result =
        .error (pjStatusFromStunCode 420)) ∧
    ∃ packet after received, signedPacket [createAttr attrNonce (.string [110])] = .ok (packet, after) ∧
      (pjStunMsgDecode (packet.getD · 0) packet.length (fun _ => 0) ⟨true, false, false⟩).result =
        .ok received ∧
      pjStunAuthenticateRequest (packet.getD · 0) lengthHmac id received
        (.static ⟨[], [117], .plain, [112], [110]⟩) = .error (.challenge 401 "NONCE required") :=
  ⟨⟨_, _, rfl, rfl⟩, _, _, _, rfl, rfl, rfl⟩

end Pjnath.Stun
