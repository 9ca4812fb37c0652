import Pjproject.Stun.Auth
import Pjproject.Stun.Layout

/-!
# The authenticated part of a message

The bytes up to MESSAGE-INTEGRITY decide the attributes up to it. The decoder takes attributes behind it
too, which are not authenticated.
-/

namespace Pjnath.Stun
open List hiding Vector
open Pj Traced

variable {mem mem' : Nat → UInt8} {hdr hdr' : MsgHdr} {p start stop : Nat}

/-- Two memories agree on a stretch. -/
def Agree (mem mem' : Nat → UInt8) (start stop : Nat) : Prop :=
  ∀ i, start ≤ i → i < stop → mem i = mem' i

theorem Agree.mono (h : Agree mem mem' start stop) {first last : Nat} (low : start ≤ first)
    (high : last ≤ stop) : Agree mem mem' first last :=
  fun i from' below => h i (by omega) (by omega)

section
variable (h : Agree mem mem' start stop) (low : start ≤ p)
include h low

theorem Agree.load16 (high : p + 2 ≤ stop) : load16 .big mem p = load16 .big mem' p := by
  unfold Pj.load16
  rw [h p low (by omega), h (p + 1) (by omega) (by omega)]

theorem Agree.load32 (high : p + 4 ≤ stop) : load32 .big mem p = load32 .big mem' p := by
  unfold Pj.load32
  rw [h.load16 low (by omega), h.load16 (by omega : start ≤ p + 2) (by omega)]

theorem Agree.bytesAt {count : Nat} (high : p + count ≤ stop) :
    bytesAt mem p count = bytesAt mem' p count := by
  apply map_congr_left
  intro i among
  have below := mem_range.mp among
  exact h (p + i) (by omega) (by omega)

theorem Agree.array {count : Nat} (high : p + count ≤ stop) :
    getArray mem p count = getArray mem' p count := by
  have same : (fun i : Fin count => mem (p + i)) = fun i : Fin count => mem' (p + i) := by
    funext i
    have below := i.isLt
    exact h (p + i) (by omega) (by omega)
  rw [getArray, getArray, same]

end

/-- The decoder of addresses looks at the value only. -/
theorem Agree.decodeSockaddr {length : UInt16} (h : Agree mem mem' p (p + 4 + length.toNat)) :
    (decodeSockaddr mem p length).result = (decodeSockaddr mem' p length).result := by
  unfold Stun.decodeSockaddr
  by_cases valid : length ≠ 8 ∧ length ≠ 20
  · rw [if_pos valid, if_pos valid]
  · have long : 8 ≤ length.toNat := by
      cases not_and_or.mp valid with
      | inl eight => rw [not_not.mp eight]; decide
      | inr twenty => rw [not_not.mp twenty]; decide
    rw [if_neg valid, if_neg valid, result_bind_of_ok (getByte_result mem _),
      result_bind_of_ok (getByte_result mem' _), h (p + 5) (by omega) (by omega)]
    split
    · split
      · rfl
      · rw [h.array (by omega) (by omega : p + 6 + 2 ≤ _), h.array (by omega) (by omega : p + 8 + 4 ≤ _)]
    · split
      · split
        · rfl
        · next twenty =>
          have most : length.toNat = 20 := congrArg UInt16.toNat (not_not.mp twenty)
          rw [h.array (by omega) (by omega : p + 6 + 2 ≤ _),
            h.array (by omega) (by omega : p + 8 + 16 ≤ _)]
      · rfl

theorem result_bind_congr {A ε α β : Type} {first second : Traced A ε α} {next next' : α → Traced A ε β}
    (same : first.result = second.result) (each : ∀ value, next value = next' value) :
    (first >>= next).result = (second >>= next').result := by
  cases found : second.result with
  | error error => rw [result_bind_of_error found, result_bind_of_error (same.trans found)]
  | ok value => rw [result_bind_of_ok found, result_bind_of_ok (same.trans found), each]

/-- The decoders look at the value only, but for those that always read four bytes. -/
theorem Agree.decodeValue {length : UInt16} (h : Agree mem mem' p (p + 4 + max 4 length.toNat))
    (same : hdr.tsxId = hdr'.tsxId) (kind : Kind) :
    (decodeValue mem hdr p length kind).result = (decodeValue mem' hdr' p length kind).result := by
  have value : Agree mem mem' p (p + 4 + length.toNat) := h.mono (Nat.le_refl p) (by omega)
  cases kind with
  | sockaddr => exact result_bind_congr value.decodeSockaddr fun _ => rfl
  | xoredSockaddr =>
    apply result_bind_congr value.decodeSockaddr
    intro sockaddr
    rw [xorSockaddr_congr same]
  | empty => rfl
  | string =>
    rw [Stun.decodeValue, Stun.decodeValue, getValue, getValue, Int.toNat_natCast,
      h.bytesAt (by omega) (by omega)]
  | uint => rw [Stun.decodeValue, Stun.decodeValue, getval32h, getval32h, h.load32 (by omega) (by omega)]
  | uint64 =>
    rw [Stun.decodeValue, Stun.decodeValue]
    split
    · rfl
    · next eight =>
      cases not_not.mp eight
      have room : Agree mem mem' p (p + 12) := h
      rw [getval32h, getval32h, getval32h, getval32h, room.load32 (by omega) (by omega),
        room.load32 (by omega) (by omega)]
  | msgint =>
    rw [Stun.decodeValue, Stun.decodeValue]
    split
    · rfl
    · next twenty =>
      cases not_not.mp twenty
      have room : Agree mem mem' p (p + 24) := h
      rw [room.array (by omega) (by omega)]
  | errcode =>
    rw [Stun.decodeValue, Stun.decodeValue, getByte, getByte, getByte, getByte, getValue, getValue,
      h (p + 6) (by omega) (by omega), h (p + 7) (by omega) (by omega), h.bytesAt (by omega) (by omega)]
  | unknown =>
    rw [Stun.decodeValue, Stun.decodeValue]
    split
    · rfl
    · have words : ((List.range (length.toNat / 2)).map fun i => Pj.load16 .big mem (p + 4 + 2 * i)) =
          (List.range (length.toNat / 2)).map fun i => Pj.load16 .big mem' (p + 4 + 2 * i) := by
        apply map_congr_left
        intro i among
        have below := mem_range.mp among
        exact h.load16 (by omega) (by omega)
      rw [words]
  | binary =>
    rw [Stun.decodeValue, Stun.decodeValue, getValue, getValue, Int.toNat_natCast,
      h.bytesAt (by omega) (by omega)]

variable {attr : Attr}

/-- An attribute is there in both memories, if they agree on it. -/
theorem At.transfer (h : At mem hdr p attr) (same : hdr.tsxId = hdr'.tsxId)
    (agree : Agree mem mem' p (p + 4 + max 4 attr.length.toNat)) : At mem' hdr' p attr where
  type := (agree.load16 (Nat.le_refl p) (by omega)).symm.trans h.type
  length := (agree.load16 (by omega) (by omega : p + 2 + 2 ≤ _)).symm.trans h.length
  value := by
    have value := h.value
    cases known : findAttrDesc attr.type with
    | some desc =>
      rw [known] at value
      exact (agree.decodeValue same desc.kind).symm.trans value
    | none =>
      rw [known] at value
      exact ⟨value.1, value.2.trans (congrArg AttrValue.binary (agree.bytesAt (by omega) (by omega)))⟩

/-! ## The position of MESSAGE-INTEGRITY -/

variable {attrs : List Attr}

/-- How far it is from the first attribute to MESSAGE-INTEGRITY. -/
def msgintPos : List Attr → Nat
  | [] => 0
  | attr :: rest => if attr.type = attrMessageIntegrity then 0 else attr.extent + msgintPos rest

/-- There is a MESSAGE-INTEGRITY. -/
def HasMsgint (attrs : List Attr) : Prop := ∃ attr ∈ attrs, attr.type = attrMessageIntegrity

theorem HasMsgint.tail {rest : List Attr} (h : HasMsgint (attr :: rest))
    (other : attr.type ≠ attrMessageIntegrity) : HasMsgint rest := by
  have ⟨found, among, special⟩ := h
  cases mem_cons.mp among with
  | inl same => exact absurd (same ▸ special) other
  | inr later => exact ⟨found, later, special⟩

/-- Behind MESSAGE-INTEGRITY the position stands still. -/
theorem locateMsgint_some (attrs : List Attr) (amsgi : Attr) (position : Nat) :
    (locateMsgint attrs (some amsgi) position).2.1 = position := by
  induction attrs generalizing amsgi with
  | nil => rfl
  | cons attr rest ih =>
    rw [locateMsgint]
    split
    · exact ih attr
    · rfl

/-- The verifier finds the position. -/
theorem locateMsgint_pos (h : HasMsgint attrs) (position : Nat) :
    (locateMsgint attrs none position).2.1 = position + msgintPos attrs := by
  induction attrs generalizing position with
  | nil =>
    have ⟨_, among, _⟩ := h
    cases among
  | cons attr rest ih =>
    rw [locateMsgint, msgintPos]
    by_cases special : attr.type = attrMessageIntegrity
    · rw [if_pos special, if_pos special]
      exact locateMsgint_some rest attr position
    · rw [if_neg special, if_neg special, if_neg (by decide : ¬(none : Option Attr).isSome),
        ih (h.tail special), Attr.extent, Nat.add_assoc]

/-- Where there is no MESSAGE-INTEGRITY, the verifier finds none. -/
theorem hasMsgint_of_locate {amsgi : Attr} {position last : Nat} {more : Bool}
    (found : locateMsgint attrs none position = (some amsgi, last, more)) : HasMsgint attrs := by
  induction attrs generalizing position with
  | nil => cases found
  | cons attr rest ih =>
    rw [locateMsgint] at found
    by_cases special : attr.type = attrMessageIntegrity
    · exact ⟨attr, mem_cons_self, special⟩
    · rw [if_neg special, if_neg (by decide : ¬(none : Option Attr).isSome)] at found
      have ⟨other, among, type⟩ := ih found
      exact ⟨other, mem_cons_of_mem _ among, type⟩

/-- MESSAGE-INTEGRITY has twenty bytes. -/
theorem At.msgint_length (h : At mem hdr p attr) (special : attr.type = attrMessageIntegrity) :
    attr.length.toNat = 20 := by
  have kind : (findAttrDesc attr.type).map AttrDesc.kind = some .msgint := by
    rw [special]
    decide
  have value := h.value
  cases known : findAttrDesc attr.type with
  | none =>
    rw [known] at kind
    cases kind
  | some desc =>
    rw [known] at kind value
    have msgint : desc.kind = .msgint := Option.some.inj kind
    dsimp only at value
    rw [msgint, decodeValue] at value
    split at value
    · cases value
    · next twenty => exact congrArg UInt16.toNat (not_not.mp twenty)

/-! ## Two packets -/

/-- Packets that agree up to MESSAGE-INTEGRITY have the same attributes up to it. -/
theorem laid_common {stop' : Nat} {attrs' : List Attr} (laid : Laid mem hdr stop p attrs)
    (laid' : Laid mem' hdr' stop' p attrs') (has : HasMsgint attrs) (has' : HasMsgint attrs')
    (same : hdr.tsxId = hdr'.tsxId) (agree : Agree mem mem' p (p + msgintPos attrs + 24)) :
    ∃ before amsgi rest rest', amsgi.type = attrMessageIntegrity ∧
      attrs = before ++ amsgi :: rest ∧ attrs' = before ++ amsgi :: rest' := by
  induction laid generalizing attrs' with
  | done =>
    have ⟨_, among, _⟩ := has
    cases among
  | @cons p attr rest header fits here behind ih =>
    cases laid' with
    | done =>
      have ⟨_, among, _⟩ := has'
      cases among
    | @cons _ attr' rest' header' fits' here' behind' =>
      by_cases special : attr.type = attrMessageIntegrity
      · have long := here.msgint_length special
        have both := here.transfer same (agree.mono (Nat.le_refl p) (by omega))
        cases both.unique here'
        exact ⟨[], attr, rest, rest', special, rfl, rfl⟩
      · rw [msgintPos, if_neg special] at agree
        have padded := pad4_ge attr.length.toNat
        have extent : attr.extent = pad4 attr.length.toNat + 4 := rfl
        have both := here.transfer same (agree.mono (Nat.le_refl p) (by omega))
        cases both.unique here'
        have ⟨before, amsgi, left, left', type, one, two⟩ := ih behind' (has.tail special)
          (has'.tail special) (agree.mono (by omega) (by omega))
        exact ⟨attr :: before, amsgi, left, left', type, congrArg (attr :: ·) one, congrArg (attr :: ·) two⟩

variable {size size' : Nat} {crc : Str → UInt32} {options options' : Options} {msg msg' : Msg}
variable {hmac : Str → Str → Vector UInt8 20} {md5 : Str → Str} {cred : AuthCred} {key : Str}

/-- What has been decoded lies in the packet. -/
theorem laid_of_decoded (decoded : (pjStunMsgDecode mem size crc options).result = .ok msg) :
    Laid mem msg.hdr (20 + msg.hdr.length.toNat) 20 msg.attr := by
  have behind : (decodeMsg mem).result = .ok msg := by
    unfold pjStunMsgDecode at decoded
    split at decoded
    · cases decoded
    · split at decoded
      · have ⟨_, _, rest⟩ := result_bind_eq_ok.mp decoded
        exact rest
      · exact decoded
  exact (decodeMsg_result_iff.mp behind).2.1

/-- A message is accepted as a request with a credential, or as a response with a key. -/
def Authenticated (pkt : Nat → UInt8) (hmac : Str → Str → Vector UInt8 20) (md5 : Str → Str) (msg : Msg)
    (cred : AuthCred) (key : Str) : Prop :=
  (∃ info, pjStunAuthenticateRequest pkt hmac md5 msg cred = .ok info) ∨
    pjStunAuthenticateResponse pkt hmac msg key = .ok ()

theorem Authenticated.hasMsgint (h : Authenticated mem hmac md5 msg cred key) : HasMsgint msg.attr := by
  cases h with
  | inl request =>
    have ⟨info, accepted⟩ := request
    unfold pjStunAuthenticateRequest at accepted
    cases auth : cred.getAuth with
    | error rejection =>
      rw [auth] at accepted
      cases accepted
    | ok pair =>
      rw [auth] at accepted
      split at accepted
      · cases accepted
      · next found => exact hasMsgint_of_locate found
  | inr response =>
    unfold pjStunAuthenticateResponse at response
    split at response
    · cases response
    · next attr found =>
      have first : msg.attr.find? (fun attr => attr.type = attrMessageIntegrity) = some attr := found
      have special := find?_some first
      exact ⟨attr, mem_of_find?_eq_some first, of_decide_eq_true special⟩

/-- What is found in two lists that begin in the same way: the same, if it is in the common part, or
behind it in neither. -/
theorem find_common {signed rest rest' : List Attr} {attrType : UInt16}
    (placed : attrType ∈ signed.map Attr.type ∨
      attrType ∉ rest.map Attr.type ∧ attrType ∉ rest'.map Attr.type) :
    (signed ++ rest).find? (fun attr => attr.type = attrType) =
      (signed ++ rest').find? fun attr => attr.type = attrType := by
  rw [find?_append, find?_append]
  cases placed with
  | inl there =>
    have ⟨attr, among, type⟩ := mem_map.mp there
    cases found : signed.find? fun attr => attr.type = attrType with
    | none => exact absurd (decide_eq_true type) (find?_eq_none.mp found attr among)
    | some attr => rfl
  | inr neither =>
    have none : ∀ attrs : List Attr, attrType ∉ attrs.map Attr.type →
        attrs.find? (fun attr => attr.type = attrType) = none := by
      intro attrs absent
      apply find?_eq_none.mpr
      intro attr among type
      exact absent (mem_map.mpr ⟨attr, among, of_decide_eq_true type⟩)
    rw [none rest neither.1, none rest' neither.2]

/-- Two packets that are decoded and accepted with the same credential, and agree on the transaction ID
and the bytes from the first attribute up to MESSAGE-INTEGRITY, have the same attributes up to it; so an
attribute of a type that is there, or behind it in neither, is found in both or in none. -/
theorem stun_prefix_decides (decoded : (pjStunMsgDecode mem size crc options).result = .ok msg)
    (decoded' : (pjStunMsgDecode mem' size' crc options').result = .ok msg')
    (accepted : Authenticated mem hmac md5 msg cred key)
    (accepted' : Authenticated mem' hmac md5 msg' cred key) (tsxId : msg.hdr.tsxId = msg'.hdr.tsxId)
    (agree : Agree mem mem' 20 (20 + (locateMsgint msg.attr none 0).2.1 + 24)) :
    ∃ before amsgi rest rest', amsgi.type = attrMessageIntegrity ∧
      msg.attr = (before ++ [amsgi]) ++ rest ∧ msg'.attr = (before ++ [amsgi]) ++ rest' ∧
      ∀ attrType, attrType ∈ (before ++ [amsgi]).map Attr.type ∨
          attrType ∉ rest.map Attr.type ∧ attrType ∉ rest'.map Attr.type →
        pjStunMsgFindAttr msg attrType = pjStunMsgFindAttr msg' attrType := by
  rw [locateMsgint_pos accepted.hasMsgint, Nat.zero_add] at agree
  have ⟨before, amsgi, rest, rest', special, one, two⟩ := laid_common (laid_of_decoded decoded)
    (laid_of_decoded decoded') accepted.hasMsgint accepted'.hasMsgint tsxId agree
  have first : msg.attr = (before ++ [amsgi]) ++ rest := by
    rw [one, append_assoc]
    rfl
  have second : msg'.attr = (before ++ [amsgi]) ++ rest' := by
    rw [two, append_assoc]
    rfl
  refine ⟨before, amsgi, rest, rest', special, first, second, ?_⟩
  intro attrType placed
  rw [pjStunMsgFindAttr, pjStunMsgFindAttr, first, second]
  exact find_common placed

/-- `PJ_STUN_ATTR_USE_CANDIDATE`. -/
def attrUseCandidate : UInt16 := 0x0025

/-- A request with USERNAME and MESSAGE-INTEGRITY, and perhaps more. -/
def userRequest (length : UInt8) (more : Str) : Str :=
  [0, 1, 0, length, 0x21, 0x12, 0xA4, 0x42] ++ List.replicate 12 0 ++
    [0, 6, 0, 1, 117, 0, 0, 0, 0, 8, 0, 20] ++ List.replicate 20 29 ++ more

/-- A function of the lengths in the place of HMAC-SHA1. -/
def sumHmac (key bytes : Str) : Vector UInt8 20 :=
  Vector.replicate 20 (UInt8.ofNat (List.length key + List.length bytes))

/-- The credential of the user. -/
def userCred : AuthCred := .static ⟨[], [117], .plain, [112], []⟩

/-- What is decoded of a request. -/
def userMsg (length : UInt16) (more : List Attr) : Msg where
  hdr := ⟨0x0001, length, pjStunMagic, Vector.replicate 12 0⟩
  attr := [createAttr attrUsername (.string [117]),
    createAttr attrMessageIntegrity (.msgint (Vector.replicate 20 29))] ++ more

/-- The memories of a request and of the request with USE-CANDIDATE behind it. -/
def plainMem (i : Nat) : UInt8 := (userRequest 32 []).getD i 0
def candidateMem (i : Nat) : UInt8 := (userRequest 36 [0, 0x25, 0, 0]).getD i 0

theorem plainMem_agree : Agree plainMem candidateMem 20 52 := by
  have each : ∀ i : Fin 52, 20 ≤ i.val → plainMem i = candidateMem i := by decide
  exact fun i low below => each ⟨i, below⟩ low

theorem plainMem_decoded :
    (pjStunMsgDecode plainMem 52 (fun _ => 0) ⟨true, true, false⟩).result = .ok (userMsg 32 []) := by
  decide

theorem candidateMem_decoded :
    (pjStunMsgDecode candidateMem 56 (fun _ => 0) ⟨true, true, false⟩).result =
      .ok (userMsg 36 [createAttr attrUseCandidate .empty]) := by
  decide

theorem plainMem_authenticated : Authenticated plainMem sumHmac id (userMsg 32 []) userCred [112] :=
  .inl ⟨⟨[], [117], [], [112]⟩, by decide⟩

theorem candidateMem_authenticated :
    Authenticated candidateMem sumHmac id (userMsg 36 [createAttr attrUseCandidate .empty]) userCred [112] :=
  .inl ⟨⟨[], [117], [], [112]⟩, by decide⟩

/-- The two requests have the same attributes up to MESSAGE-INTEGRITY. -/
theorem stun_prefix_decides_user :
    ∃ before amsgi rest rest', amsgi.type = attrMessageIntegrity ∧
      (userMsg 32 []).attr = (before ++ [amsgi]) ++ rest ∧
      (userMsg 36 [createAttr attrUseCandidate .empty]).attr = (before ++ [amsgi]) ++ rest' ∧
      ∀ attrType, attrType ∈ (before ++ [amsgi]).map Attr.type ∨
          attrType ∉ rest.map Attr.type ∧ attrType ∉ rest'.map Attr.type →
        pjStunMsgFindAttr (userMsg 32 []) attrType =
          pjStunMsgFindAttr (userMsg 36 [createAttr attrUseCandidate .empty]) attrType :=
  stun_prefix_decides plainMem_decoded candidateMem_decoded plainMem_authenticated
    candidateMem_authenticated rfl plainMem_agree

/-- USE-CANDIDATE behind MESSAGE-INTEGRITY is found, in a request that is accepted as it is without. -/
theorem stun_unsigned_candidate :
    let msg := userMsg 32 []
    let msg' := userMsg 36 [createAttr attrUseCandidate .empty]
    (pjStunMsgDecode plainMem 52 (fun _ => 0) ⟨true, true, false⟩).result = .ok msg ∧
      (pjStunMsgDecode candidateMem 56 (fun _ => 0) ⟨true, true, false⟩).result = .ok msg' ∧
      Authenticated plainMem sumHmac id msg userCred [112] ∧
      Authenticated candidateMem sumHmac id msg' userCred [112] ∧
      msg.hdr.type = msg'.hdr.type ∧ msg.hdr.tsxId = msg'.hdr.tsxId ∧
      Agree plainMem candidateMem 20 (20 + (locateMsgint msg.attr none 0).2.1 + 24) ∧
      pjStunMsgFindAttr msg attrUseCandidate = none ∧
      pjStunMsgFindAttr msg' attrUseCandidate = some (createAttr attrUseCandidate .empty) :=
  ⟨plainMem_decoded, candidateMem_decoded, plainMem_authenticated, candidateMem_authenticated, rfl, rfl,
    plainMem_agree, by decide, by decide⟩

end Pjnath.Stun
