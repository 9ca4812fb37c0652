import Pjproject.Stun.Reencode
import Pjproject.Stun.Verify

/-!
# The bounds of the encoder

The encoders of ERROR-CODE and UNKNOWN-ATTRIBUTES look for room without the padding that they move on
over, and those of addresses write before they look. A message stays inside a buffer exactly if it
has no such attribute where that matters.
-/

namespace Pjnath.Stun
open List hiding Vector
open Pj Traced

/-- The attributes of a message hold the values of their types. -/
def Msg.Typed (msg : Msg) : Prop :=
  ∀ attr ∈ msg.attr, (encodeValue msg.hdr attr (kindOf attr.type)).isSome

/-- No attribute does harm up to the first that is refused: one with room has room for its padding,
and an address finds two bytes. -/
def Fits (hdr : MsgHdr) (bufSize : Nat) : Nat → List Attr → Prop
  | _, [] => True
  | pos, attr :: rest =>
    if attr.type = attrMessageIntegrity ∨ attr.type = attrFingerprint then True
    else
      match encodeValue hdr attr (kindOf attr.type) with
      | none => True
      | some piece =>
        let next := pos + (4 + pad4 piece.body.length)
        ¬((kindOf attr.type).isSockaddr ∧ bufSize < pos + 2) ∧
          (pos + piece.need ≤ bufSize → next ≤ bufSize ∧ Fits hdr bufSize next rest)

variable (old : Nat → UInt8) (bufSize : Nat) (hmac : Str → Str → Vector UInt8 20)
  (crc : Str → UInt32)
variable (msg : Msg) (key : Option Str)

/-- What is before the pointer of `pj_stun_msg_encode` after a step. -/
inductive Reached : Str → Prop
  | attrs {count : Nat} {out : Str} (header : 20 ≤ bufSize)
      (encoded : encodeAttrs old bufSize msg.hdr (msg.attr.take count) (hdrBytes msg.hdr 0) =
        .ok (out, [])) : Reached out
  | msgint {out : Str} {stopped : List Attr} {found : Option Attr × Option Attr} {length : UInt16}
      {signed : Str × Msg} (header : 20 ≤ bufSize)
      (encoded : encodeAttrs old bufSize msg.hdr msg.attr (hdrBytes msg.hdr 0) = .ok (out, stopped))
      (scanned : scanAttrs stopped none none = .ok found)
      (first : encodeMsgint old bufSize hmac key found.1 (setLength out length) msg = .ok signed) :
      Reached signed.1
  | packet {result : Str × Msg} (encoded : pjStunMsgEncode old bufSize hmac crc msg key = .ok
    result) :
      Reached result.1

/-- The encoder writes inside the buffer only, and the size that is left stays positive. -/
structure Bounded : Prop where
  defined : pjStunMsgEncode old bufSize hmac crc msg key ≠ .error .undefined
  left : ∀ out, Reached old bufSize hmac crc msg key out → out.length ≤ bufSize

variable {old bufSize hmac crc msg key} {hdr : MsgHdr} {attr : Attr} {kind : Kind} {piece : Piece}
variable {attrs stopped : List Attr} {out after : Str}

/-! ## One attribute -/

/-- The room that is asked for is enough for what is written. -/
theorem encodeValue_need (found : encodeValue hdr attr kind = some piece) :
    4 + piece.body.length ≤ piece.need := by
  unfold encodeValue at found
  split at found
  all_goals cases found
  case h_9 attrs _ => exact Nat.add_le_add_left (Nat.le_of_eq (length_words attrs)) 4
  case h_10 data _ => exact Nat.add_le_add_left (pad4_ge data.length) 4
  case h_8 =>
    rw [length_append]
    exact Nat.le_of_eq (by simp +arith)
  all_goals simp [length_store32]

theorem encodeAttr_cases (small : bufSize < 2 ^ 32) (inside : out.length ≤ bufSize)
    (found : encodeValue hdr attr kind = some piece)
    (start : ¬(kind.isSockaddr ∧ bufSize < out.length + 2)) :
    bufSize < out.length + piece.need ∧
        encodeAttr old bufSize hdr attr kind out = .error (.status pjEtoosmall) ∨
      out.length + piece.need ≤ bufSize ∧ ∃ after, encodeAttr old bufSize hdr attr kind out = .ok
        after := by
  have need := encodeValue_need found
  have room : (bufSize - out.length : Int) % 2 ^ 32 = bufSize - out.length :=
    Int.emod_eq_of_lt (by omega) (by omega)
  by_cases few : bufSize < out.length + piece.need
  · refine .inl ⟨few, ?_⟩
    unfold encodeAttr
    rw [found]
    dsimp only
    rw [if_neg start, room, if_pos (by omega)]
  · have roomy : Roomy bufSize out.length kind piece := ⟨start, by omega, by omega⟩
    exact .inr ⟨Nat.not_lt.mp few, roomy.encodes found⟩

/-! ## The attributes -/

variable (old bufSize hdr attrs out) in
/-- The first loop stays in the buffer. -/
structure Inside : Prop where
  defined : encodeAttrs old bufSize hdr attrs out ≠ .error .undefined
  left {count : Nat} {after : Str}
    (encoded : encodeAttrs old bufSize hdr (attrs.take count) out = .ok (after, [])) :
    after.length ≤ bufSize

theorem inside_cons (inside : out.length ≤ bufSize) :
    Inside old bufSize hdr (attr :: attrs) out ↔
      encodeAttrs old bufSize hdr (attr :: attrs) out ≠ .error .undefined ∧
      ∀ count after, encodeAttrs old bufSize hdr (attr :: attrs.take count) out = .ok (after, []) →
        after.length ≤ bufSize := by
  constructor
  · exact fun h => ⟨h.defined, fun count after => @h.left (count + 1) after⟩
  · intro ⟨defined, left⟩
    refine ⟨defined, ?_⟩
    intro count after encoded
    cases count with
    | zero =>
      cases encoded
      exact inside
    | succ count => exact left count after encoded

theorem encodeAttrs_plain (plain : ¬(attr.type = attrMessageIntegrity ∨ attr.type = attrFingerprint))
    (one : encodeAttr old bufSize hdr attr (kindOf attr.type) out = .ok after) (attrs : List Attr) :
    encodeAttrs old bufSize hdr (attr :: attrs) out = encodeAttrs old bufSize hdr attrs after := by
  rw [encodeAttrs, if_neg plain, one]

theorem inside_iff (small : bufSize < 2 ^ 32) (inside : out.length ≤ bufSize)
    (typed : ∀ attr ∈ attrs, (encodeValue hdr attr (kindOf attr.type)).isSome) :
    Inside old bufSize hdr attrs out ↔ Fits hdr bufSize out.length attrs := by
  induction attrs generalizing out with
  | nil =>
    refine iff_of_true ⟨by simp [encodeAttrs], ?_⟩ trivial
    intro count after encoded
    rw [take_nil] at encoded
    cases encoded
    exact inside
  | cons attr rest ih =>
    rw [forall_mem_cons, Option.isSome_iff_exists] at typed
    obtain ⟨⟨piece, found⟩, typed⟩ := typed
    rw [inside_cons inside, Fits]
    split
    · next special =>
      simp [encodeAttrs, special]
    · next plain =>
      rw [found]
      by_cases start : (kindOf attr.type).isSockaddr ∧ bufSize < out.length + 2
      · simp [encodeAttrs, plain, encodeAttr, found, start]
      · rcases @encodeAttr_cases old _ _ _ _ _ _ small inside found start with
          ⟨few, one⟩ | ⟨enough, after, one⟩
        · simp [encodeAttrs, plain, one, start, Nat.not_le.mpr few]
        · have length := length_encodeAttr found one
          simp only [encodeAttrs_plain plain one, ← length]
          constructor
          · rintro ⟨defined, left⟩
            have next := left 0 after rfl
            exact ⟨start, fun _ => ⟨next, (ih next typed).mp ⟨defined, left _ _⟩⟩⟩
          · rintro ⟨_, h⟩
            obtain ⟨next, h⟩ := h enough
            have h := (ih next typed).mpr h
            exact ⟨h.defined, fun _ _ => h.left⟩

/-- What the loop leaves are attributes that it has not encoded. -/
theorem encodeAttrs_take (encoded : encodeAttrs old bufSize hdr attrs out = .ok (after, stopped)) :
    ∃ count, stopped = attrs.drop count ∧
      encodeAttrs old bufSize hdr (attrs.take count) out = .ok (after, []) := by
  induction attrs generalizing out with
  | nil =>
    cases encoded
    exact ⟨0, rfl, rfl⟩
  | cons attr rest ih =>
    rw [encodeAttrs] at encoded
    split at encoded
    · cases encoded
      exact ⟨0, rfl, rfl⟩
    · next plain =>
      split at encoded
      · cases encoded
      · next between one =>
        obtain ⟨count, left, all⟩ := ih encoded
        exact ⟨count + 1, left, (encodeAttrs_plain plain one _).trans all⟩

theorem scanAttrs_defined (attrs : List Attr) (amsgint afingerprint : Option Attr) :
    scanAttrs attrs amsgint afingerprint ≠ .error .undefined := by
  induction attrs generalizing amsgint afingerprint with
  | nil => simp [scanAttrs]
  | cons attr rest ih =>
    rw [scanAttrs]
    repeat' split
    all_goals first | exact ih _ _ | simp

/-! ## The seals -/

/-- A step ends in the buffer, or with a status. -/
def Bound {α : Type} (bufSize : Nat) (long : α → Nat) : Except Fault α → Prop
  | .ok after => long after ≤ bufSize
  | .error fault => fault ≠ .undefined

theorem Bound.of_ok {α : Type} {long : α → Nat} {run : Except Fault α} {after : α}
    (sound : Bound bufSize long run) (same : run = .ok after) : long after ≤ bufSize := by
  rw [same] at sound
  exact sound

/-- An attribute that asks for the room that it takes stays in the buffer. -/
theorem encodeAttr_sound (small : bufSize < 2 ^ 32) (inside : out.length ≤ bufSize)
    (found : encodeValue hdr attr kind = some piece) (other : ¬kind.isSockaddr)
    (exact : piece.need = 4 + pad4 piece.body.length) :
    Bound bufSize length (encodeAttr old bufSize hdr attr kind out) := by
  rcases encodeAttr_cases small inside found fun start => other start.1 with ⟨_, one⟩ |
    ⟨enough, after, one⟩
  · rw [one]
    exact nofun
  · rw [one, Bound, length_encodeAttr found one, ← exact]
    exact enough

variable {amsgint afingerprint : Option Attr}

theorem Bound.patched {run : Except Fault Str} (one : Bound bufSize length run) (msg : Msg) :
    Bound bufSize (length ∘ Prod.fst) (match run with
      | .error fault => .error fault
      | .ok out => .ok (out, msg)) := by
  cases run <;> exact one

theorem encodeMsgint_sound (small : bufSize < 2 ^ 32) (inside : out.length ≤ bufSize)
    (typed : ∀ attr, amsgint = some attr → ∃ digest, attr.value = .msgint digest) :
    Bound bufSize (length ∘ Prod.fst) (encodeMsgint old bufSize hmac key amsgint out msg) := by
  unfold encodeMsgint
  split
  · exact inside
  · next attr =>
    have ⟨digest, value⟩ := typed attr rfl
    rw [value]
    cases key with
    | none => exact nofun
    | some secret =>
      exact (@encodeAttr_sound _ _ _ _ .msgint ⟨_, _, _⟩ _ small inside rfl (by decide)
        (by simp [pad4])).patched _

theorem encodeFingerprint_sound (small : bufSize < 2 ^ 32) (inside : out.length ≤ bufSize)
    (room : 20 ≤ bufSize) (typed : ∀ attr, afingerprint = some attr → ∃ value, attr.value = .uint
    value) :
    Bound bufSize (length ∘ Prod.fst) (encodeFingerprint old bufSize crc afingerprint out msg) := by
  unfold encodeFingerprint
  split
  · exact inside
  · next attr =>
    have ⟨before, value⟩ := typed attr rfl
    rw [value]
    have set := setLength_length_le out (packetLength out + 8)
    exact (@encodeAttr_sound _ _ _ _ .uint ⟨_, _, _⟩ _ small (by omega) rfl (by decide)
      (by simp [pad4, length_store32])).patched _

theorem encodeValue_msgint (typed : (encodeValue hdr attr .msgint).isSome) :
    ∃ digest, attr.value = .msgint digest := by
  cases value : attr.value with
  | msgint digest => exact ⟨digest, rfl⟩
  | _ => simp [encodeValue, value] at typed

theorem encodeValue_uint (typed : (encodeValue hdr attr .uint).isSome) :
    ∃ number, attr.value = .uint number := by
  cases value : attr.value with
  | uint number => exact ⟨number, rfl⟩
  | _ => simp [encodeValue, value] at typed

/-- What the second loop finds holds the value of its type. -/
theorem Msg.Typed.found {found : Option Attr × Option Attr} (typed : msg.Typed)
    (among : ∀ attr ∈ stopped, attr ∈ msg.attr) (scanned : scanAttrs stopped none none = .ok found) :
    (∀ attr, found.1 = some attr → ∃ digest, attr.value = .msgint digest) ∧
      ∀ attr, found.2 = some attr → ∃ number, attr.value = .uint number := by
  refine scanAttrs_of ?_ ?_ (by simp) (by simp) scanned
  · intro attr there type
    apply @encodeValue_msgint msg.hdr
    have kind : kindOf attrMessageIntegrity = .msgint := by decide
    rw [← kind, ← type]
    exact typed attr (among attr there)
  · intro attr there type
    apply @encodeValue_uint msg.hdr
    have kind : kindOf attrFingerprint = .uint := by decide
    rw [← kind, ← type]
    exact typed attr (among attr there)

variable (hmac crc key) in
/-- Where the first loop stays in the buffer, so does the rest. -/
theorem Inside.seals (h : Inside old bufSize msg.hdr msg.attr (hdrBytes msg.hdr 0))
    (small : bufSize < 2 ^ 32) (room : 20 ≤ bufSize) (typed : msg.Typed)
    (encoded : encodeAttrs old bufSize msg.hdr msg.attr (hdrBytes msg.hdr 0) = .ok (out, stopped))
    (scanned : scanAttrs stopped none none = .ok found) :
    (∀ length, Bound bufSize (List.length ∘ Prod.fst)
      (encodeMsgint old bufSize hmac key found.1 (setLength out length) msg)) ∧
    ∀ signed : Str × Msg, signed.1.length ≤ bufSize → Bound bufSize (List.length ∘ Prod.fst)
      (encodeFingerprint old bufSize crc found.2 signed.1 signed.2) := by
  have ⟨count, left, all⟩ := encodeAttrs_take encoded
  have ⟨msgint, fingerprint⟩ := typed.found (fun attr there => mem_of_mem_drop (left ▸ there))
    scanned
  constructor
  · intro length
    have set := setLength_length_le out length
    have inside := h.left all
    exact encodeMsgint_sound small (by omega) msgint
  · exact fun signed inside => encodeFingerprint_sound small inside room fingerprint

/-- The encoder stays in a buffer exactly if no attribute of the message does harm in it. -/
theorem pjStunMsgEncode_bounded (old : Nat → UInt8) (bufSize : UInt32)
    (hmac : Str → Str → Vector UInt8 20) (crc : Str → UInt32) (key : Option Str)
    (typed : msg.Typed) :
    Bounded old bufSize.toNat hmac crc msg key ↔
      (20 ≤ bufSize.toNat → Fits msg.hdr bufSize.toNat 20 msg.attr) := by
  have small := bufSize.toNat_lt
  generalize bufSize.toNat = bufSize at small ⊢
  have start := length_hdrBytes msg.hdr 0
  by_cases room : 20 ≤ bufSize
  · have loop := @inside_iff old bufSize msg.hdr msg.attr (hdrBytes msg.hdr 0) small (start ▸ room)
      typed
    rw [start] at loop
    rw [forall_prop_of_true room, ← loop]
    constructor
    · intro h
      constructor
      · intro fails
        apply h.defined
        unfold pjStunMsgEncode
        rw [if_neg (by omega), if_neg (by omega), fails]
        rfl
      · exact fun encoded => h.left _ (.attrs room encoded)
    · intro h
      constructor
      · intro failed
        unfold pjStunMsgEncode at failed
        rw [if_neg (by omega), if_neg (by omega)] at failed
        rcases encode_bind_error failed with attrs | ⟨_, attrs, failed⟩
        · exact h.defined attrs
        rcases encode_bind_error failed with scanned | ⟨_, scanned, failed⟩
        · exact scanAttrs_defined _ _ _ scanned
        obtain ⟨msgint, fingerprint⟩ := h.seals hmac crc key small room typed attrs scanned
        rcases encode_bind_error failed with first | ⟨_, first, failed⟩
        · exact absurd rfl (first ▸ msgint _)
        rcases encode_bind_error failed with second | ⟨_, second, failed⟩
        · exact absurd rfl (second ▸ fingerprint _ ((msgint _).of_ok first))
        cases failed
      · intro out reached
        cases reached with
        | attrs header encoded => exact h.left encoded
        | msgint header encoded scanned first =>
          exact ((h.seals hmac crc key small room typed encoded scanned).1 _).of_ok first
        | packet encoded =>
          have ⟨_, _, _, _, _, _, attrs, scanned, first, second, same⟩ := pjStunMsgEncode_ok encoded
          have ⟨msgint, fingerprint⟩ := h.seals hmac crc key small room typed attrs scanned
          cases same
          have last := (fingerprint _ ((msgint _).of_ok first)).of_ok second
          exact last
  · rw [forall_prop_of_false room]
    refine iff_of_true ⟨?_, ?_⟩ trivial
    · unfold pjStunMsgEncode
      split
      · exact nofun
      · rw [if_pos (Nat.not_le.mp room)]
        exact nofun
    · intro out reached
      cases reached with
      | attrs header | msgint header => exact absurd header room
      | packet encoded => exact absurd (pjStunMsgEncode_ok encoded).1 room

/-- A response with one attribute. -/
def oneAttrMsg (type : UInt16) (value : AttrValue) : Msg where
  hdr := ⟨0x0111, 0, pjStunMagic, .replicate 12 0⟩
  attr := [createAttr type value]

/-- An ERROR-CODE that ends in the buffer with its padding. -/
theorem pjStunMsgEncode_bounded_errcode :
    Bounded (fun _ => 0) 32 (fun _ _ => .replicate 20 0) (fun _ => 0)
      (oneAttrMsg attrErrorCode (.errcode 400 [66])) none :=
  (pjStunMsgEncode_bounded _ 32 _ _ _ fun _ only => mem_singleton.mp only ▸ rfl).mpr fun _ =>
    ⟨by decide, fun _ => ⟨by decide, trivial⟩⟩

/-- An ERROR-CODE whose padding is behind the buffer, and an address behind a full one. -/
theorem pjStunMsgEncode_unbounded :
    ¬Bounded (fun _ => 0) 29 (fun _ _ => .replicate 20 0) (fun _ => 0)
        (oneAttrMsg attrErrorCode (.errcode 400 [66])) none ∧
      ¬Bounded (fun _ => 0) 20 (fun _ _ => .replicate 20 0) (fun _ => 0)
        (oneAttrMsg 1 (.sockaddr false (.inet (.replicate 2 0) (.replicate 4 0)))) none :=
  ⟨fun h => absurd (h.left _ (.packet rfl)) (by decide), fun h => h.defined (by decide)⟩

end Pjnath.Stun
