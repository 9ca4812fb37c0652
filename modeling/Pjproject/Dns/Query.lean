import Pjproject.Dns.RoundTrip

/-!
# Building DNS queries

`pj_dns_make_query` compares the size of its buffer with the header, the characters of the name and
four bytes for type and class. The name takes the length of its first label and the root besides, so
that the query may be two bytes longer than the buffer.
-/

namespace Pj.Dns
open List Traced

/-- What `pj_dns_make_query` returns without a query. -/
inductive MakeError
  | einval
  | ednsqrytoosmall
deriving DecidableEq

/-- `pj_dns_make_query`, with the size of the buffer. The result is what is written there, whose
length `size` gets. Nothing is written where it fails. -/
def pjDnsMakeQuery (size : Nat) (id : UInt16) (qtype : Int) (name : Str) : Except MakeError Str :=
  if qtype = 0 then .error .einval
  else if size < 12 + name.length + 4 then .error .ednsqrytoosmall
  else .ok (write16 id ++ write16 0x0100 ++ write16 1 ++ replicate 6 0 ++
    encode (takeLabels [] name) ++ write16 (UInt16.ofInt qtype) ++ write16 1)

/-- A name of labels, with a dot at its end or without one. -/
def dottedName (labels : List Str) (dot : Bool) : Str := joinDots labels ++ if dot then [46] else []

/-- The dot at the end is not taken for a label. -/
theorem takeLabels_dottedName {labels : List Str} (valid : ∀ label ∈ labels, Label label)
    {dot : Bool} (some : dot = true → labels ≠ []) :
    takeLabels [] (dottedName labels dot) = labels := by
  cases dot with
  | false => rw [dottedName, if_neg Bool.false_ne_true, append_nil, takeLabels_joinDots valid]
  | true =>
    have some := some rfl
    rw [dottedName, if_pos rfl]
    induction labels with
    | nil => exact absurd rfl some
    | cons label rest ih =>
      have ⟨first, others⟩ := forall_mem_cons.mp valid
      rw [joinDots_cons]
      by_cases last : rest = []
      · rw [if_pos last, append_nil, takeLabels_append first.free, last]
        rfl
      · rw [if_neg last, append_assoc, cons_append, takeLabels_append first.free]
        exact congrArg (label :: ·) (ih others (fun _ => last) last)

/-- The bytes of a query for labels. -/
def queryBytes (id type : UInt16) (labels : List Str) : Str :=
  printHdr ⟨id, 0x0100, 1, 0, 0, 0⟩ ++ encode labels ++ write16 type ++ write16 1

theorem length_queryBytes (id type : UInt16) (labels : List Str) :
    (queryBytes id type labels).length = 16 + (encode labels).length := by
  have header : (printHdr ⟨id, 0x0100, 1, 0, 0, 0⟩).length = 12 := rfl
  simp only [queryBytes, length_append, header, length_write16]
  omega

/-- A query is parsed as one question. -/
theorem parse_queryBytes {labels : List Str} (valid : ∀ label ∈ labels, Label label)
    (id type : UInt16) {mem : Nat → UInt8} (held : Holds mem 0 (queryBytes id type labels)) :
    (pjDnsParsePacket mem (queryBytes id type labels).length).result =
      .ok ⟨⟨id, 0x0100, 1, 0, 0, 0⟩, [⟨joinDots labels, type, 1⟩], [], [], []⟩ := by
  have length := length_queryBytes id type labels
  have ⟨held, dnsclass⟩ := holds_append.mp held
  have ⟨held, asked⟩ := holds_append.mp held
  have ⟨header, name⟩ := holds_append.mp held
  have read : NameRead mem (queryBytes id type labels).length 12 (joinDots labels)
      (encode labels).length := nameRead_encode valid name (by rw [length]; omega)
  have twelve : (printHdr ⟨id, 0x0100, 1, 0, 0, 0⟩).length = 12 := rfl
  simp only [length_append, twelve, length_write16, Nat.zero_add] at asked dnsclass
  have query := parseQuery_read read asked dnsclass
  have questions : (parseAll (parseQuery mem (queryBytes id type labels).length) 1 12).result =
      .ok ([⟨joinDots labels, type, 1⟩], 12 + ((encode labels).length + 4)) := by
    rw [parseAll, result_bind_of_ok query]
    rfl
  rw [pjDnsParsePacket, if_neg (by omega), result_bind_of_ok (readHdr_printHdr header),
    parseSections]
  exact result_bind_of_ok questions _

/-- The query of a name is refused for its size, or it is inside the buffer and is parsed as one
question for the name. -/
def Decodable (size : Nat) (id type : UInt16) (labels : List Str) (dot : Bool) : Prop :=
  pjDnsMakeQuery size id type.toNat (dottedName labels dot) = .error .ednsqrytoosmall ∨
    ∃ packet, pjDnsMakeQuery size id type.toNat (dottedName labels dot) = .ok packet ∧
      packet.length ≤ size ∧ ∀ mem, Holds mem 0 packet → ∃ parsed,
        (pjDnsParsePacket mem packet.length).result = .ok parsed ∧ parsed.hdr.id = id ∧
          parsed.q = [⟨joinDots labels, type, 1⟩]

theorem makeQuery_eq {labels : List Str} (valid : ∀ label ∈ labels, Label label) {dot : Bool}
    (some : dot = true → labels ≠ []) {size : Nat} (id : UInt16) {type : UInt16} (typed : type ≠ 0)
    (fits : 16 + (dottedName labels dot).length ≤ size) :
    pjDnsMakeQuery size id type.toNat (dottedName labels dot) = .ok (queryBytes id type labels) := by
  have bound := type.toNat_lt
  have number : UInt16.ofInt type.toNat = type := by
    apply UInt16.toNat_inj.mp
    rw [UInt16.ofInt, UInt16.toNat_ofNat']
    omega
  have header : write16 id ++ write16 0x0100 ++ write16 1 ++ replicate 6 0 =
      printHdr ⟨id, 0x0100, 1, 0, 0, 0⟩ := by simp [printHdr, write16]
  have asked : (type.toNat : Int) ≠ 0 := fun zero =>
    typed (UInt16.toNat_inj.mp (Int.ofNat_inj.mp zero))
  rw [pjDnsMakeQuery, if_neg asked, if_neg (by omega), takeLabels_dottedName valid some, number,
    header]
  rfl

/-- A query is good exactly if it has a type, and its buffer is smaller than what is checked or as
large as what is written. -/
theorem makeQuery_decodable_iff {labels : List Str} (valid : ∀ label ∈ labels, Label label)
    {dot : Bool} (some : dot = true → labels ≠ []) (size : Nat) (id type : UInt16) :
    Decodable size id type labels dot ↔ type ≠ 0 ∧
      (size < 16 + (dottedName labels dot).length ∨ 16 + (encode labels).length ≤ size) := by
  by_cases typed : type = 0
  · subst typed
    have refused : pjDnsMakeQuery size id 0 (dottedName labels dot) = .error .einval := rfl
    simp [Decodable, refused]
  · by_cases small : size < 16 + (dottedName labels dot).length
    · refine iff_of_true (.inl ?_) ⟨typed, .inl small⟩
      have asked : (type.toNat : Int) ≠ 0 := fun zero =>
        typed (UInt16.toNat_inj.mp (Int.ofNat_inj.mp zero))
      rw [pjDnsMakeQuery, if_neg asked, if_pos (by omega)]
    · have made := makeQuery_eq valid some id typed (Nat.not_lt.mp small)
      rw [Decodable, made, ← length_queryBytes id type]
      simp only [reduceCtorEq, false_or, typed, small, ne_eq, not_false_eq_true, true_and]
      constructor
      · rintro ⟨packet, same, fits, -⟩
        cases same
        exact fits
      · intro fits
        exact ⟨_, rfl, fits, fun mem held => ⟨_, parse_queryBytes valid id type held, rfl, rfl⟩⟩

/-- The query of `a` in a buffer of 19 bytes, all of which it takes. -/
theorem makeQuery_decodable_a : Decodable 19 7 typeA [[97]] false := by
  have valid : ∀ label ∈ ([[97]] : List Str), Label label :=
    forall_mem_singleton.mpr ⟨by decide, by decide, by decide⟩
  exact (makeQuery_decodable_iff valid (fun dot => Bool.noConfusion dot) 19 7 typeA).mpr (by decide)

/-- The query of `a` takes 19 bytes, in a buffer of 17. -/
theorem makeQuery_overruns : ¬Decodable 17 7 typeA [[97]] false := by
  rintro (refused | ⟨packet, made, fits, -⟩)
  · cases refused
  · cases made
    exact absurd fits (by decide)

end Pj.Dns
