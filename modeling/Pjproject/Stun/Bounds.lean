import Mathlib.Logic.Relation
import Pjproject.Stun.Msg

/-!
# Memory safety of the STUN decoder

The loop of the decoder compares the padded length of a value with what is left of the packet, of
which the header of the attribute takes four bytes. A value may so reach four bytes behind the
packet, and some decoders read before they check the length. The decoder stays inside the packet
exactly if the values of all attributes that it comes to are inside.
-/

namespace Pjnath.Stun
open List hiding Vector
open Pj Traced

variable (mem : Nat → UInt8) (size : Nat)

/-- The read is inside the packet, the length is not negative, and the array has the element. -/
def Access.Inside : Access → Prop
  | .read position => position < size
  | .value length => 0 ≤ length
  | .store index => index < pjStunMaxAttr

variable {size}

/-! ## Reads -/

variable {p : Nat}

theorem reads_inside {count : Nat} (some : 0 < count) :
    (∀ made ∈ reads p count, Access.Inside size made) ↔ p + count ≤ size := by
  constructor
  · intro all
    have last : Access.read (p + (count - 1)) ∈ reads p count :=
      mem_map.mpr ⟨count - 1, mem_range.mpr (by omega), rfl⟩
    have inside : p + (count - 1) < size := all _ last
    omega
  · intro inside made among
    obtain ⟨i, below, rfl⟩ := mem_map.mp among
    have bound := mem_range.mp below
    exact (by omega : p + i < size)

theorem getByte_all (p : Nat) : (getByte mem p).All (Access.Inside size) ↔ p + 1 ≤ size :=
  reads_inside Nat.one_pos

theorem getval16h_all (p : Nat) : (getval16h mem p).All (Access.Inside size) ↔ p + 2 ≤ size :=
  reads_inside Nat.two_pos

theorem getval32h_all (p : Nat) : (getval32h mem p).All (Access.Inside size) ↔ p + 4 ≤ size :=
  reads_inside (by decide)

theorem getArray_all (p : Nat) {count : Nat} (some : 0 < count) :
    (getArray mem p count).All (Access.Inside size) ↔ p + count ≤ size :=
  reads_inside some

/-- A value is inside. If it is empty, that is not asked of its position. -/
theorem getValue_all (here : p ≤ size) (length : Int) :
    (getValue mem p length).All (Access.Inside size) ↔ 0 ≤ length ∧ p + length ≤ size := by
  rw [getValue, all_access, forall_mem_cons]
  apply and_congr_right
  intro nonneg
  by_cases zero : length.toNat = 0
  · rw [zero]
    exact iff_of_true (fun _ among => nomatch among) (by omega)
  · rw [reads_inside (by omega)]
    have positive : 0 ≤ length := nonneg
    omega

/-! ## Values -/

variable {α : Type}

/-- The value of an attribute is inside the packet, as far as the decoder of its kind reads it. -/
def ValueInside (size p length : Nat) : Kind → Prop
  | .sockaddr | .xoredSockaddr =>
    length = 8 ∧ mem (p + 5) = 1 ∨ length = 20 ∧ mem (p + 5) = 2 → p + 4 + length ≤ size
  | .empty => True
  | .string | .binary => p + 4 + length ≤ size
  | .uint => p + 8 ≤ size
  | .uint64 => length = 8 → p + 12 ≤ size
  | .msgint => length = 20 → p + 24 ≤ size
  | .errcode => 4 ≤ length ∧ p + 4 + length ≤ size
  | .unknown => length / 2 ≤ pjStunMaxAttr → p + 4 + length / 2 * 2 ≤ size

theorem length_eq {length : UInt16} {count : Nat} (small : count < 2 ^ 16) :
    length = UInt16.ofNat count ↔ length.toNat = count := by
  rw [← UInt16.toNat_inj, UInt16.toNat_ofNat_of_lt' small]

theorem decodeSockaddr_all {length : UInt16} (padded : p + pad4 length.toNat ≤ size) :
    (decodeSockaddr mem p length).All (Access.Inside size) ↔
      (length.toNat = 8 ∧ mem (p + 5) = 1 ∨ length.toNat = 20 ∧ mem (p + 5) = 2 →
        p + 4 + length.toNat ≤ size) := by
  have eight : length = 8 ↔ length.toNat = 8 := length_eq (by decide)
  have twenty : length = 20 ↔ length.toNat = 20 := length_eq (by decide)
  have ports : ∀ count, 0 < count → ∀ make : Vector UInt8 2 → Vector UInt8 count → Sockaddr,
      (do
        let port ← getArray mem (p + 6) 2
        let addr ← getArray mem (p + 8) count
        return make port addr : Decoder Sockaddr).All (Access.Inside size) ↔ p + 8 + count ≤ size := by
    intro count some make
    rw [all_bind_of_ok rfl, all_bind_of_ok rfl, getArray_all mem _ Nat.two_pos, getArray_all mem _ some]
    simp only [all_pure, and_true]
    omega
  unfold decodeSockaddr
  by_cases valid : length ≠ 8 ∧ length ≠ 20
  · rw [if_pos valid]
    simp only [ne_eq, eight, twenty] at valid
    exact iff_of_true (all_throw _) (fun among => by omega)
  · rw [if_neg valid, all_bind_of_ok (getByte_result mem _), getByte_all]
    simp only [ne_eq, eight, twenty] at valid
    have inside : p + 5 + 1 ≤ size := by
      unfold pad4 at padded
      omega
    rw [and_iff_right inside]
    by_cases first : mem (p + 5) = 1
    · rw [if_pos first]
      have second : mem (p + 5) ≠ 2 := by
        rw [first]
        decide
      by_cases short : length ≠ 8
      · rw [if_pos short]
        exact iff_of_true (all_throw _) (fun among => by tauto)
      · rw [if_neg short, ports 4 (by decide)]
        simp only [ne_eq, eight] at short
        have same : length.toNat = 8 := by omega
        simp [same, first]
    · rw [if_neg first]
      by_cases second : mem (p + 5) = 2
      · rw [if_pos second]
        by_cases short : length ≠ 20
        · rw [if_pos short]
          exact iff_of_true (all_throw _) (fun among => by tauto)
        · rw [if_neg short, ports 16 (by decide)]
          simp only [ne_eq, twenty] at short
          have same : length.toNat = 20 := by omega
          simp [same, second]
      · rw [if_neg second]
        exact iff_of_true (all_throw _) (fun among => by tauto)

/-- The reads of the value of an attribute whose header is inside. -/
theorem decodeValue_all (hdr : MsgHdr) {length : UInt16} (header : p + 4 ≤ size)
    (padded : p + pad4 length.toNat ≤ size) (kind : Kind) :
    (decodeValue mem hdr p length kind).All (Access.Inside size) ↔
      ValueInside mem size p length.toNat kind := by
  have value : ∀ make : Str → AttrValue, (do
      let data ← getValue mem (p + 4) length.toNat
      return make data : Decoder AttrValue).All (Access.Inside size) ↔
        p + 4 + length.toNat ≤ size := by
    intro make
    rw [all_bind_of_ok (getValue_result mem _ _), getValue_all mem header]
    simp only [all_pure, and_true]
    omega
  cases kind with
  | sockaddr | xoredSockaddr =>
    rw [ValueInside, ← decodeSockaddr_all mem padded, decodeValue, all_bind]
    exact and_iff_left fun _ _ => all_pure _
  | empty =>
    rw [decodeValue]
    split
    · exact iff_of_true (all_throw _) trivial
    · exact iff_of_true (all_pure _) trivial
  | string => exact value .string
  | binary => exact value .binary
  | uint =>
    rw [ValueInside, decodeValue, all_bind_of_ok (getval32h_result mem _), getval32h_all]
    split <;> simp only [all_throw, all_pure, and_true]
  | uint64 =>
    have eight : length = 8 ↔ length.toNat = 8 := length_eq (by decide)
    rw [ValueInside, decodeValue, ← eight]
    split
    · next other => exact iff_of_true (all_throw _) fun same => absurd same other
    · next same =>
      rw [all_bind_of_ok (getval32h_result mem _), all_bind_of_ok (getval32h_result mem _),
        getval32h_all, getval32h_all]
      simp only [all_pure, and_true, Decidable.not_not.mp same, forall_const]
      omega
  | msgint =>
    have twenty : length = 20 ↔ length.toNat = 20 := length_eq (by decide)
    rw [ValueInside, decodeValue, ← twenty]
    split
    · next other => exact iff_of_true (all_throw _) fun same => absurd same other
    · next same =>
      rw [all_bind_of_ok (getArray_result mem _ _), getArray_all mem _ (by decide)]
      simp [Decidable.not_not.mp same]
  | errcode =>
    rw [ValueInside, decodeValue, all_bind_of_ok (getByte_result mem _),
      all_bind_of_ok (getByte_result mem _), getByte_all, getByte_all]
    constructor
    · rintro ⟨first, second, rest⟩
      have reason := (all_bind_of_ok (getValue_result mem _ _) _).mp rest
      rw [getValue_all mem (by omega)] at reason
      omega
    · rintro ⟨long, inside⟩
      refine ⟨by omega, by omega, (all_bind_of_ok (getValue_result mem _ _) _).mpr ⟨?_, all_pure _⟩⟩
      rw [getValue_all mem (by omega)]
      omega
  | unknown =>
    rw [ValueInside, decodeValue]
    split
    · next many => exact iff_of_true (all_throw _) fun few => absurd few (Nat.not_le.mpr many)
    · next few =>
      have room : ∀ made ∈ (List.range (length.toNat / 2)).map Access.store, made.Inside size := by
        intro made among
        obtain ⟨i, below, rfl⟩ := mem_map.mp among
        have bound := mem_range.mp below
        exact (by omega : i < pjStunMaxAttr)
      rw [all_access, forall_mem_append, and_iff_left room]
      by_cases none : length.toNat / 2 * 2 = 0
      · rw [none]
        exact iff_of_true (fun _ among => absurd among not_mem_nil) fun _ => by omega
      · rw [reads_inside (by omega)]
        exact ⟨fun inside _ => inside, fun inside => inside (Nat.not_lt.mp few)⟩

/-- What the decoder of a kind accepts. -/
def ValueValid (p length : Nat) : Kind → Prop
  | .sockaddr | .xoredSockaddr => length = 8 ∧ mem (p + 5) = 1 ∨ length = 20 ∧ mem (p + 5) = 2
  | .empty => length = 0
  | .string | .binary | .errcode => True
  | .uint => length = 4
  | .uint64 => length = 8
  | .msgint => length = 20
  | .unknown => length / 2 ≤ pjStunMaxAttr

/-- A result. -/
def Returns {α : Type} (run : Decoder α) : Prop := ∃ value, run.result = .ok value

theorem returns_bind {β : Type} {first : Decoder α} {value : α} (h : first.result = .ok value)
    (next : α → Decoder β) : Returns (first >>= next) ↔ Returns (next value) := by
  rw [Returns, Returns, result_bind_of_ok h]

theorem returns_map {β : Type} {first : Decoder α} (next : α → β) :
    Returns (do
      let value ← first
      return next value) ↔ Returns first := by
  constructor
  · rintro ⟨value, returned⟩
    have ⟨between, found, _⟩ := result_bind_eq_ok.mp returned
    exact ⟨between, found⟩
  · rintro ⟨value, found⟩
    exact ⟨next value, result_bind_of_ok found _⟩

theorem returns_pure (value : α) : Returns (pure value) := ⟨value, rfl⟩

theorem not_returns_throw (status : Int) : ¬Returns (Traced.throw status : Decoder α) :=
  fun ⟨_, returned⟩ => nomatch returned

theorem returns_ite {condition : Prop} [Decidable condition] {first second : Decoder α} :
    Returns (if condition then first else second) ↔
      (condition → Returns first) ∧ (¬condition → Returns second) := by
  by_cases met : condition <;> simp [met]

theorem decodeSockaddr_returns (p : Nat) (length : UInt16) :
    Returns (decodeSockaddr mem p length) ↔
      (length.toNat = 8 ∧ mem (p + 5) = 1 ∨ length.toNat = 20 ∧ mem (p + 5) = 2) := by
  have eight : length = 8 ↔ length.toNat = 8 := length_eq (by decide)
  have twenty : length = 20 ↔ length.toNat = 20 := length_eq (by decide)
  have array : ∀ count, ∀ make : Vector UInt8 2 → Vector UInt8 count → Sockaddr,
      Returns (do
        let port ← getArray mem (p + 6) 2
        let addr ← getArray mem (p + 8) count
        return make port addr : Decoder Sockaddr) := fun count make => ⟨_, rfl⟩
  unfold decodeSockaddr
  rw [returns_ite, returns_bind (getByte_result mem _), returns_ite, returns_ite, returns_ite,
    returns_ite]
  simp only [not_returns_throw, array, imp_false, imp_true_iff, eight, twenty, ne_eq]
  have apart : mem (p + 5) = 1 → mem (p + 5) ≠ 2 := by
    intro first
    rw [first]
    decide
  have lengths : length.toNat = 8 → length.toNat ≠ 20 := by omega
  tauto

theorem decodeValue_returns (hdr : MsgHdr) (p : Nat) (length : UInt16) (kind : Kind) :
    Returns (decodeValue mem hdr p length kind) ↔ ValueValid mem p length.toNat kind := by
  cases kind with
  | sockaddr | xoredSockaddr =>
    rw [ValueValid, ← decodeSockaddr_returns]
    exact returns_map _
  | string | binary | errcode => exact iff_of_true ⟨_, rfl⟩ trivial
  | empty =>
    have zero : length = 0 ↔ length.toNat = 0 := length_eq (by decide)
    rw [ValueValid, ← zero, decodeValue, returns_ite]
    simp [not_returns_throw, returns_pure]
  | uint =>
    have four : length = 4 ↔ length.toNat = 4 := length_eq (by decide)
    rw [ValueValid, ← four, decodeValue, returns_bind (getval32h_result mem _), returns_ite]
    simp [not_returns_throw, returns_pure]
  | uint64 =>
    have eight : length = 8 ↔ length.toNat = 8 := length_eq (by decide)
    have words : Returns (do
      let hi ← getval32h mem (p + 4)
      let lo ← getval32h mem (p + 8)
      return .uint64 hi lo : Decoder AttrValue) := ⟨_, rfl⟩
    rw [ValueValid, ← eight, decodeValue, returns_ite]
    simp [not_returns_throw, words]
  | msgint =>
    have twenty : length = 20 ↔ length.toNat = 20 := length_eq (by decide)
    have bytes : Returns (do
      let hmac ← getArray mem (p + 4) 20
      return .msgint hmac : Decoder AttrValue) := ⟨_, rfl⟩
    rw [ValueValid, ← twenty, decodeValue, returns_ite]
    simp [not_returns_throw, bytes]
  | unknown =>
    have words : Returns (access
      (reads (p + 4) (length.toNat / 2 * 2) ++ (List.range (length.toNat / 2)).map .store)
      (.unknown ((List.range (length.toNat / 2)).map fun i => load16 .big mem (p + 4 + 2 * i))) :
        Decoder AttrValue) := ⟨_, rfl⟩
    rw [ValueValid, decodeValue, returns_ite]
    simp [not_returns_throw, words]

/-! ## Where the decoder comes to -/

/-- An attribute that the loop of the decoder comes to: where it is, how much of the packet is left
there, and the types of the attributes before it. -/
structure Place where
  p : Nat
  pduLen : Nat
  seen : List UInt16

/-- The type of the attribute at a place. -/
def Place.type (place : Place) : UInt16 := load16 .big mem place.p

/-- The length of its value. -/
def Place.length (place : Place) : Nat := (load16 .big mem (place.p + 2)).toNat

/-- The header and the padded value are inside what is left, as far as the decoder looks. -/
def Place.Fits (place : Place) : Prop :=
  4 ≤ place.pduLen ∧ pad4 (place.length mem) ≤ place.pduLen

/-- The value of the attribute is inside the packet, as far as it is read. -/
def Place.Inside (size : Nat) (place : Place) : Prop :=
  match findAttrDesc (place.type mem) with
  | some desc => ValueInside mem size place.p (place.length mem) desc.kind
  | none => ¬place.type mem ≤ 0x7FFF → place.seen.length < pjStunMaxAttr →
      place.p + 4 + place.length mem ≤ size

/-- The attribute is accepted. -/
def Place.Accepted (place : Place) : Prop :=
  place.seen.length < pjStunMaxAttr ∧
    match findAttrDesc (place.type mem) with
    | some desc =>
      ValueValid mem place.p (place.length mem) desc.kind ∧ attrFingerprint ∉ place.seen ∧
        (place.type mem = attrMessageIntegrity → attrMessageIntegrity ∉ place.seen)
    | none => ¬place.type mem ≤ 0x7FFF

/-- The place behind the attribute. -/
def Place.behind (place : Place) : Place where
  p := place.p + (pad4 (place.length mem) + 4)
  pduLen := place.pduLen - (pad4 (place.length mem) + 4)
  seen := place.seen ++ [place.type mem]

/-- The loop goes on from an attribute that is accepted, if it is not the last one. -/
inductive Place.Next : Place → Place → Prop
  | behind {place : Place} (fits : place.Fits mem) (accepted : place.Accepted mem)
      (more : pad4 (place.length mem) + 4 < place.pduLen) : Next place (place.behind mem)

/-- All attributes that the loop comes to from a place are inside the packet. -/
def AllInside (size : Nat) (start : Place) : Prop :=
  ∀ place, Relation.ReflTransGen (Place.Next mem) start place → place.Fits mem →
    place.Inside mem size

/-! ## The loop -/

variable {seen : List UInt16}

variable {parsed : Parsed} {place : Place} {hdr : MsgHdr}

/-- The attributes that the loop has stored have these types. -/
structure Matches (parsed : Parsed) (seen : List UInt16) : Prop where
  types : parsed.attr.map Attr.type = seen
  msgInt : parsed.hasMsgInt = decide (attrMessageIntegrity ∈ seen)
  fingerprint : parsed.hasFingerprint = decide (attrFingerprint ∈ seen)

theorem Matches.length (h : Matches parsed seen) :
    parsed.attr.length = seen.length := by
  rw [← h.types, length_map]

/-- The position of an attribute of a known type. -/
theorem Matches.checkPosition (h : Matches parsed seen) (type : UInt16) :
    match checkPosition parsed type with
    | .ok after => (attrFingerprint ∉ seen ∧ (type = attrMessageIntegrity → attrMessageIntegrity ∉ seen)) ∧
        after.attr = parsed.attr ∧
        after.hasMsgInt = decide (attrMessageIntegrity ∈ seen ++ [type]) ∧
        after.hasFingerprint = decide (attrFingerprint ∈ seen ++ [type])
    | .error _ =>
      ¬(attrFingerprint ∉ seen ∧ (type = attrMessageIntegrity → attrMessageIntegrity ∉ seen)) := by
  have different : attrMessageIntegrity ≠ attrFingerprint := by decide
  have flag : ∀ special : UInt16, (special ∈ seen ++ [type]) ↔ special ∈ seen ∨ type = special := by
    intro special
    rw [mem_append, mem_singleton, eq_comm]
  simp only [Stun.checkPosition, h.msgInt, h.fingerprint, flag]
  by_cases fingerprint : attrFingerprint ∈ seen
  · by_cases last : type = attrFingerprint
    · simp [fingerprint, last]
    · simp [fingerprint, last]
  · by_cases msgInt : type = attrMessageIntegrity
    · subst msgInt
      by_cases before : attrMessageIntegrity ∈ seen
      · simp [fingerprint, before]
      · simp [fingerprint, before, different]
    · by_cases last : type = attrFingerprint
      · subst last
        simp [fingerprint, msgInt]
      · simp [fingerprint, msgInt, last, h.msgInt, h.fingerprint]

/-- A known attribute. -/
theorem decodeAttr_all (fits : place.Fits mem) (stop : place.p + place.pduLen ≤ size)
    (desc : AttrDesc) :
    (decodeAttr mem hdr place.p desc).All (Access.Inside size) ↔
      ValueInside mem size place.p (place.length mem) desc.kind := by
  have header := fits.1
  have padded := fits.2
  have read : (getAttrHdr mem place.p).All (Access.Inside size) := by
    rw [getAttrHdr, all_bind_of_ok (getval16h_result mem _), all_bind_of_ok (getval16h_result mem _),
      getval16h_all, getval16h_all]
    exact ⟨by omega, by omega, all_pure _⟩
  have inside : place.p + pad4 (load16 .big mem (place.p + 2)).toNat ≤ size :=
    Nat.le_trans (Nat.add_le_add_left padded place.p) stop
  have value := decodeValue_all mem hdr (by omega) inside desc.kind
  rw [decodeAttr, all_bind_of_ok (getAttrHdr_result mem _), and_iff_right read, all_bind]
  exact (and_iff_left fun _ _ => all_pure _).trans value

theorem decodeAttr_returns (hdr : MsgHdr) (place : Place) (desc : AttrDesc) :
    Returns (decodeAttr mem hdr place.p desc) ↔
      ValueValid mem place.p (place.length mem) desc.kind := by
  rw [decodeAttr, returns_bind (getAttrHdr_result mem _), returns_map]
  exact decodeValue_returns mem hdr place.p _ desc.kind

theorem decodeAttr_type {desc : AttrDesc} {attr : Attr}
    (returned : (decodeAttr mem hdr p desc).result = .ok attr) :
    attr.type = load16 .big mem p := by
  rw [decodeAttr, result_bind_of_ok (getAttrHdr_result mem _)] at returned
  have ⟨value, _, same⟩ := result_bind_eq_ok.mp returned
  cases same
  rfl

theorem storeAttr_all (room : parsed.attr.length < pjStunMaxAttr) (attr : Attr) :
    (storeAttr parsed attr).All (Access.Inside size) := by
  intro made among
  rw [mem_singleton.mp among]
  exact room

section
variable (h : Matches parsed place.seen)
include h

/-- The attribute at a place is read inside the packet. -/
theorem parseAttr_all (fits : place.Fits mem) (stop : place.p + place.pduLen ≤ size) :
    (parseAttr mem hdr place.p (place.type mem) parsed).All (Access.Inside size) ↔
      place.Inside mem size := by
  have header := fits.1
  have padded := fits.2
  unfold parseAttr Place.Inside
  cases known : findAttrDesc (place.type mem) with
  | some desc =>
    dsimp only
    rw [← decodeAttr_all mem fits stop desc, all_bind]
    apply and_iff_left
    intro attr _
    split
    · exact all_throw _
    · unfold addAttr
      split
      · exact all_throw _
      · next room => exact storeAttr_all (Nat.not_le.mp room) attr
  | none =>
    dsimp only
    split
    · next mandatory => exact iff_of_true (all_throw _) fun optional => absurd mandatory optional
    · next optional =>
      rw [← h.length]
      split
      · next full => exact iff_of_true (all_throw _) fun _ room => absurd room (Nat.not_lt.mpr full)
      · next room =>
        rw [all_bind_of_ok (getval16h_result mem _), all_bind_of_ok (getValue_result mem _ _),
          getval16h_all, getValue_all mem (by omega)]
        simp only [storeAttr_all (Nat.not_le.mp room), and_true, optional, Nat.not_le.mp room,
          not_false_eq_true, forall_const]
        unfold Place.length
        omega

/-- The attribute at a place is accepted, and stored. -/
theorem parseAttr_returns :
    Returns (parseAttr mem hdr place.p (place.type mem) parsed) ↔ place.Accepted mem := by
  unfold parseAttr Place.Accepted
  cases known : findAttrDesc (place.type mem) with
  | some desc =>
    have position := h.checkPosition (place.type mem)
    have value := decodeAttr_returns mem hdr place desc
    by_cases valid : ValueValid mem place.p (place.length mem) desc.kind
    · have ⟨attr, decoded⟩ := value.mpr valid
      dsimp only
      rw [returns_bind decoded, and_iff_right valid]
      cases checked : checkPosition parsed (place.type mem) with
      | error status =>
        rw [checked] at position
        exact iff_of_false (not_returns_throw status) fun accepted => position accepted.2
      | ok between =>
        rw [checked] at position
        dsimp only at position ⊢
        have stored : Returns (storeAttr between attr) := ⟨_, rfl⟩
        rw [and_iff_left position.1, addAttr, position.2.1, h.length, returns_ite]
        simp [not_returns_throw, stored]
    · apply iff_of_false
      · rintro ⟨after, returned⟩
        have ⟨attr, decoded, _⟩ := result_bind_eq_ok.mp returned
        exact valid (value.mp ⟨attr, decoded⟩)
      · intro accepted
        exact valid accepted.2.1
  | none =>
    rw [returns_ite, returns_ite, h.length]
    have stored : Returns (do
        let length ← getval16h mem (place.p + 2)
        let data ← getValue mem (place.p + 4) length.toNat
        storeAttr parsed ⟨place.type mem, length, .binary data⟩ : Decoder Parsed) := ⟨_, rfl⟩
    simp only [not_returns_throw, imp_false, stored, imp_true_iff, and_true, ge_iff_le, Nat.not_le]
    tauto

theorem parseAttr_matches {after : Parsed}
    (returned : (parseAttr mem hdr place.p (place.type mem) parsed).result = .ok after) :
    Matches after (place.seen ++ [place.type mem]) := by
  unfold parseAttr at returned
  cases known : findAttrDesc (place.type mem) with
  | some desc =>
    rw [known] at returned
    have ⟨attr, decoded, rest⟩ := result_bind_eq_ok.mp returned
    have position := h.checkPosition (place.type mem)
    cases checked : checkPosition parsed (place.type mem) with
    | error status =>
      rw [checked] at rest
      cases rest
    | ok between =>
      rw [checked] at rest position
      dsimp only at rest position
      unfold addAttr at rest
      split at rest
      · cases rest
      · cases rest
        exact {
          types := by
            rw [map_append, position.2.1, h.types, map_singleton, decodeAttr_type mem decoded]
            rfl
          msgInt := position.2.2.1
          fingerprint := position.2.2.2 }
  | none =>
    rw [known] at returned
    dsimp only at returned
    have unknown : ∀ special : UInt16, findAttrDesc special ≠ none →
        (special ∈ place.seen ++ [place.type mem] ↔ special ∈ place.seen) := by
      intro special named
      rw [mem_append, mem_singleton]
      apply or_iff_left
      rintro rfl
      exact named known
    split at returned
    · cases returned
    · split at returned
      · cases returned
      · cases returned
        exact {
          types := by
            rw [map_append, h.types]
            rfl
          msgInt := by
            rw [h.msgInt]
            exact decide_eq_decide.mpr (unknown _ (by decide)).symm
          fingerprint := by
            rw [h.fingerprint]
            exact decide_eq_decide.mpr (unknown _ (by decide)).symm }

end

/-! ## The loop -/

/-- The attributes from a place on: the one that is there, and those behind it. -/
theorem allInside_iff (place : Place) :
    AllInside mem size place ↔
      (place.Fits mem → place.Inside mem size ∧
        (place.Accepted mem → pad4 (place.length mem) + 4 < place.pduLen →
          AllInside mem size (place.behind mem))) := by
  constructor
  · intro all fits
    constructor
    · exact all place .refl fits
    · intro accepted more further reached
      exact all further (.head (.behind fits accepted more) reached)
  · intro one further reached
    cases reached.cases_head with
    | inl same =>
      subst same
      intro fits
      exact (one fits).1
    | inr first =>
      have ⟨next, turn, reached⟩ := first
      cases turn with
      | behind fits accepted more => exact (one fits).2 accepted more further reached

/-- The place behind ends where the place itself ends, and has less left. -/
theorem Place.behind_bounds (more : pad4 (place.length mem) + 4 < place.pduLen) :
    (place.behind mem).p + (place.behind mem).pduLen = place.p + place.pduLen ∧
      (place.behind mem).pduLen < place.pduLen := by
  rw [behind]
  exact ⟨by dsimp only; omega, by dsimp only; omega⟩

/-- A turn of the loop, in terms of places. -/
theorem parseAttrs_succ (hdr : MsgHdr) (fuel : Nat) (place : Place) (parsed : Parsed) :
    parseAttrs mem hdr (fuel + 1) place.p place.pduLen parsed =
      (if place.pduLen < 4 then pure (place.pduLen, parsed)
      else do
        let _ ← getval16h mem place.p
        let _ ← getval16h mem (place.p + 2)
        if place.pduLen < pad4 (place.length mem) then throw pjnathEstuninattrlen
        else
          let parsed ← parseAttr mem hdr place.p (place.type mem) parsed
          if pad4 (place.length mem) + 4 ≥ place.pduLen then return (0, parsed)
          else parseAttrs mem hdr fuel (place.behind mem).p (place.behind mem).pduLen parsed) := rfl

/-- The loop reads inside the packet exactly if the attributes that it comes to are inside. -/
theorem parseAttrs_all (hdr : MsgHdr) (fuel : Nat) (h : Matches parsed place.seen)
    (enough : place.pduLen ≤ fuel) (stop : place.p + place.pduLen ≤ size) :
    (parseAttrs mem hdr fuel place.p place.pduLen parsed).All (Access.Inside size) ↔
      AllInside mem size place := by
  induction fuel generalizing place parsed with
  | zero =>
    rw [parseAttrs, allInside_iff]
    have short : ¬place.Fits mem := fun fits => by
      have header := fits.1
      omega
    exact iff_of_true (all_pure _) fun fits => absurd fits short
  | succ fuel ih =>
    rw [parseAttrs_succ, allInside_iff]
    by_cases short : place.pduLen < 4
    · rw [if_pos short]
      exact iff_of_true (all_pure _) fun fits => absurd fits.1 (Nat.not_le.mpr short)
    · rw [if_neg short, all_bind_of_ok (getval16h_result mem _), all_bind_of_ok (getval16h_result mem _),
        getval16h_all, getval16h_all]
      have header : place.p + 2 ≤ size ∧ place.p + 2 + 2 ≤ size := ⟨by omega, by omega⟩
      rw [and_iff_right header.1, and_iff_right header.2]
      by_cases long : place.pduLen < pad4 (place.length mem)
      · rw [if_pos long]
        exact iff_of_true (all_throw _) fun fits => absurd fits.2 (Nat.not_le.mpr long)
      · have fits : place.Fits mem := ⟨Nat.not_lt.mp short, Nat.not_lt.mp long⟩
        rw [if_neg long, all_bind, forall_prop_of_true fits]
        apply and_congr (parseAttr_all mem h fits stop)
        -- The turns behind are those of the attributes behind.
        have behind : ∀ after, pad4 (place.length mem) + 4 < place.pduLen →
            (parseAttr mem hdr place.p (place.type mem) parsed).result = .ok after →
            ((parseAttrs mem hdr fuel (place.behind mem).p (place.behind mem).pduLen after).All
              (Access.Inside size) ↔ AllInside mem size (place.behind mem)) := by
          intro after more returned
          have bounds := place.behind_bounds mem more
          exact ih (parseAttr_matches mem h returned) (by omega) (by omega)
        constructor
        · intro rest accepted more
          obtain ⟨after, returned⟩ := (parseAttr_returns mem h).mpr accepted
          have turn := rest after returned
          rw [if_neg (Nat.not_le.mpr more)] at turn
          exact (behind after more returned).mp turn
        · intro rest after returned
          have accepted := (parseAttr_returns mem h).mp ⟨after, returned⟩
          by_cases last : pad4 (place.length mem) + 4 ≥ place.pduLen
          · rw [if_pos last]
            exact all_pure _
          · rw [if_neg last]
            have more := Nat.not_le.mp last
            exact (behind after more returned).mpr (rest accepted more)

/-- More fuel than the bytes that are left makes no difference: the loop has ended before. -/
theorem parseAttrs_enough (hdr : MsgHdr) (fuel : Nat) {pduLen : Nat} (parsed : Parsed)
    (enough : pduLen ≤ fuel) :
    parseAttrs mem hdr fuel p pduLen parsed = parseAttrs mem hdr (fuel + 1) p pduLen parsed := by
  induction fuel generalizing p pduLen parsed with
  | zero =>
    rw [parseAttrs, parseAttrs, if_pos (by omega)]
  | succ fuel ih =>
    conv_lhs => rw [parseAttrs]
    conv_rhs => rw [parseAttrs]
    have next : ∀ attrValLen after, parseAttrs mem hdr fuel (p + (attrValLen + 4))
        (pduLen - (attrValLen + 4)) after = parseAttrs mem hdr (fuel + 1) (p + (attrValLen + 4))
          (pduLen - (attrValLen + 4)) after := fun attrValLen after => ih after (by omega)
    simp only [next]

/-! ## The packet -/

/-- The check reads inside the packet, whatever is in it. -/
theorem pjStunMsgCheck_all (crc : Str → UInt32) (options : Options) :
    (pjStunMsgCheck mem size crc options).All (Access.Inside size) := by
  unfold pjStunMsgCheck
  split
  · exact all_throw _
  · next long =>
    rw [all_bind_of_ok (getByte_result mem _), getByte_all]
    apply And.intro (by omega)
    split
    · exact all_throw _
    · rw [all_bind_of_ok (getval16h_result mem _), getval16h_all]
      apply And.intro (by omega)
      dsimp only
      split
      · exact all_throw _
      · next inside =>
        have stop : (load16 .big mem 2).toNat + 20 ≤ size := by omega
        split
        · exact all_throw _
        · rw [all_bind_of_ok (getval32h_result mem _), getval32h_all]
          apply And.intro (by omega)
          split
          · rw [all_bind_of_ok (getval16h_result mem _), getval16h_all]
            apply And.intro (by omega)
            split
            · rw [all_bind_of_ok (getval16h_result mem _), all_bind_of_ok (getval32h_result mem _),
                getval16h_all, getval32h_all]
              apply And.intro (by omega)
              apply And.intro (by omega)
              split
              · exact all_throw _
              · rw [all_bind_of_ok (result_access _ _), all_access]
                apply And.intro ((reads_inside (by omega)).mpr (by omega))
                split
                · exact all_throw _
                · exact all_pure _
            · exact all_pure _
          · exact all_pure _

/-- What the check finds of the length. -/
theorem pjStunMsgCheck_length {crc : Str → UInt32} {options : Options}
    (accepted : (pjStunMsgCheck mem size crc options).result = .ok ()) :
    (load16 .big mem 2).toNat + 20 ≤ size := by
  unfold pjStunMsgCheck at accepted
  split at accepted
  · cases accepted
  · rw [result_bind_of_ok (getByte_result mem _)] at accepted
    split at accepted
    · cases accepted
    · rw [result_bind_of_ok (getval16h_result mem _)] at accepted
      dsimp only at accepted
      split at accepted
      · cases accepted
      · omega

/-- The start of the attributes. -/
def firstPlace : Place := ⟨20, (load16 .big mem 2).toNat, []⟩

/-- The decoder behind the check. -/
theorem decodeMsg_all (stop : (load16 .big mem 2).toNat + 20 ≤ size) :
    (decodeMsg mem).All (Access.Inside size) ↔ AllInside mem size (firstPlace mem) := by
  have header : (getMsgHdr mem).All (Access.Inside size) := (reads_inside (by decide)).mpr (by omega)
  have empty : Matches ⟨[], false, false⟩ (firstPlace mem).seen := ⟨rfl, rfl, rfl⟩
  have bound : (firstPlace mem).p + (firstPlace mem).pduLen ≤ size := by
    dsimp only [firstPlace]
    omega
  rw [decodeMsg, all_bind_of_ok (getMsgHdr_result mem), and_iff_right header, all_bind,
    ← parseAttrs_all mem (msgHdrAt mem) _ empty (Nat.le_refl _) bound]
  apply and_iff_left
  intro ⟨pduLen, parsed⟩ _
  dsimp only
  split
  · exact all_throw _
  · exact all_pure _

/-- The decoder, called with any options, on a packet that the check accepts: it reads inside the
packet, forms no value of a negative length and stores inside its arrays exactly if all attributes
that it comes to are inside the packet. -/
theorem stun_decode_safe_iff (crc : Str → UInt32) (checked options : Options)
    (accepted : (pjStunMsgCheck mem size crc checked).result = .ok ()) :
    (pjStunMsgDecode mem size crc options).All (Access.Inside size) ↔
      ((options.checkPacket → (pjStunMsgCheck mem size crc options).result = .ok ()) →
        AllInside mem size (firstPlace mem)) := by
  have stop := pjStunMsgCheck_length mem accepted
  unfold pjStunMsgDecode
  rw [if_neg (by omega), ← decodeMsg_all mem stop]
  by_cases asked : options.checkPacket
  · rw [if_pos asked, all_bind, and_iff_right (pjStunMsgCheck_all mem crc options),
      forall_prop_of_true asked]
    exact ⟨fun all => all (), fun all _ => all⟩
  · simp [asked]

instance : DecidablePred (Access.Inside size)
  | .read position => inferInstanceAs (Decidable (position < size))
  | .value length => inferInstanceAs (Decidable (0 ≤ length))
  | .store index => inferInstanceAs (Decidable (index < pjStunMaxAttr))

instance {α : Type} (run : Decoder α) : Decidable (run.All (Access.Inside size)) :=
  inferInstanceAs (Decidable (∀ made ∈ run.log, made.Inside size))

/-- A packet of a binding indication, with the attribute of a type and a length and nothing of its
value. -/
def shortPacket (type : UInt8 × UInt8) (length : UInt8) (i : Nat) : UInt8 :=
  [0, 17, 0, 4, 33, 18, 164, 66, 1, 2, 3, 4, 5, 6, 7, 8, 9, 10, 11, 12,
    type.1, type.2, 0, length].getD i 0

/-- An empty SOFTWARE at the end of a packet is inside. -/
theorem stun_decode_safe_iff_software :
    AllInside (shortPacket (128, 34) 0) 24 (firstPlace (shortPacket (128, 34) 0)) :=
  (stun_decode_safe_iff (shortPacket (128, 34) 0) (fun _ => 0) ⟨true, false, false⟩
    ⟨true, false, false⟩ (by decide)).mp (by decide) nofun

/-- The value of a PRIORITY of length zero is read, behind the packet. -/
theorem stun_decode_reads_behind :
    (pjStunMsgCheck (shortPacket (0, 36) 0) 24 (fun _ => 0) ⟨true, false, false⟩).result = .ok () ∧
      Access.read 24 ∈
        (pjStunMsgDecode (shortPacket (0, 36) 0) 24 (fun _ => 0) ⟨true, false, false⟩).log := by
  decide

end Pjnath.Stun
