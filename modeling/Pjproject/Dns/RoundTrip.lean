import Mathlib.Data.List.Forall2
import Pjproject.Pjlib.ByteOrder
import Pjproject.Dns.Names
import Pjproject.Dns.Print

/-!
# Round trip of DNS packets

What `print_packet` prints is parsed as the same packet, unless a name is taken for another one: the
table of `print_name` compares a name with the encoded bytes of the names before, in which the
length of a label stands for the dot before it.
-/

namespace Pj.Dns
open List Traced

/-! ## Names -/

variable {text : Str}

/-- A label of a name. -/
structure Label (label : Str) : Prop where
  nonempty : label ≠ []
  short : label.length ≤ 63
  free : 46 ∉ label

/-- A name is made of labels. -/
def DomainName (name : Str) : Prop :=
  ∃ labels, (∀ label ∈ labels, Label label) ∧ name = joinDots labels

/-- The bytes of labels in a packet. -/
def encode : List Str → Str
  | [] => [0]
  | label :: rest => UInt8.ofNat label.length :: (label ++ encode rest)

theorem takeLabels_append {label : Str} (free : 46 ∉ label) (before rest : Str) :
    takeLabels before (label ++ 46 :: rest) = (before ++ label) :: takeLabels [] rest := by
  induction label generalizing before with
  | nil => simp [takeLabels]
  | cons byte label ih =>
    have other : byte ≠ 46 := fun same => free (mem_cons.mpr (.inl same.symm))
    rw [cons_append, takeLabels, if_neg other, ih (not_mem_of_not_mem_cons free),
      append_assoc, singleton_append]

theorem takeLabels_last {label : Str} (free : 46 ∉ label) (before : Str)
    (nonempty : before ++ label ≠ []) : takeLabels before label = [before ++ label] := by
  induction label generalizing before with
  | nil =>
    rw [append_nil] at nonempty ⊢
    exact if_neg nonempty
  | cons byte label ih =>
    have other : byte ≠ 46 := fun same => free (mem_cons.mpr (.inl same.symm))
    have longer : before ++ [byte] ++ label = before ++ byte :: label := by simp
    rw [takeLabels, if_neg other, ih (not_mem_of_not_mem_cons free) _ (longer ▸ nonempty),
      longer]

/-- The labels that a name is made of are printed. -/
theorem takeLabels_joinDots {labels : List Str} (valid : ∀ label ∈ labels, Label label) :
    takeLabels [] (joinDots labels) = labels := by
  induction labels with
  | nil => rfl
  | cons label rest ih =>
    have ⟨first, others⟩ := forall_mem_cons.mp valid
    cases rest with
    | nil => exact takeLabels_last first.free [] first.nonempty
    | cons next rest =>
      have joined : joinDots (label :: next :: rest) = label ++ 46 :: joinDots (next :: rest) := rfl
      rw [joined, takeLabels_append first.free, ih others, nil_append]

theorem length_encode (labels : List Str) :
    (encode labels).length = if labels = [] then 1 else (joinDots labels).length + 2 := by
  induction labels with
  | nil => rfl
  | cons label rest ih =>
    rw [encode, joinDots_cons, if_neg (cons_ne_nil label rest), length_cons,
      length_append, length_append, ih]
    by_cases last : rest = []
    · rw [if_pos last, if_pos last, length_nil]
    · rw [if_neg last, if_neg last, length_cons]
      omega

theorem printLabels_eq {size : Int} {labels : List Str} (h : printLabels size labels = some text) :
    text = encode labels := by
  induction labels generalizing size text with
  | nil =>
    rw [printLabels] at h
    split at h
    · contradiction
    · exact (Option.some.inj h).symm
  | cons label rest ih =>
    rw [printLabels] at h
    split at h
    · contradiction
    · obtain ⟨later, printed, rfl⟩ := Option.map_eq_some_iff.mp h
      rw [encode, ih printed, cons_append]

/-- The bytes fit, so the size stays that of an `int`. -/
theorem printLabels_size {size : Int} (nonneg : 0 ≤ size) {labels : List Str}
    (h : printLabels size labels = some text) : text.length ≤ size := by
  induction labels generalizing size text with
  | nil =>
    rw [printLabels] at h
    split at h
    · contradiction
    · obtain rfl := Option.some.inj h
      simp only [length_singleton]
      omega
  | cons label rest ih =>
    rw [printLabels] at h
    split at h
    · contradiction
    · obtain ⟨later, printed, rfl⟩ := Option.map_eq_some_iff.mp h
      have fits := ih (by omega) printed
      simp only [length_cons, length_append]
      omega

/-! ## Pointers -/

variable {pos : Nat}

theorem or_pointer (h : pos < 16384) : pos ||| 49152 = 49152 + pos := by
  rw [Nat.or_comm]
  exact (Nat.two_pow_add_eq_or_of_lt (i := 14) h 3).symm

theorem xor_pointer (h : pos < 16384) : (49152 + pos) ^^^ 49152 = pos := by
  rw [← or_pointer h]
  refine Nat.eq_of_testBit_eq fun i => ?_
  have mask : (49152 : Nat) = 2 ^ 14 * 3 := rfl
  rw [Nat.testBit_xor, Nat.testBit_or, mask, Nat.testBit_two_pow_mul]
  by_cases low : 14 ≤ i
  · have small : pos < 2 ^ i := Nat.lt_of_lt_of_le h (Nat.pow_le_pow_right Nat.two_pos low)
    rw [Nat.testBit_lt_two_pow small]
    simp
  · simp [low]

/-- A pointer is read as the position it was made from. -/
theorem pointer_spec {mem : Nat → UInt8} {p : Nat} (h : pos < 16384)
    (held : Holds mem p (write16 (UInt16.ofNat pos ||| 0xc000))) :
    isPointer (mem p) = true ∧ offset mem p = pos := by
  have word : (UInt16.ofNat pos ||| 0xc000).toNat = 49152 + pos := by
    rw [UInt16.toNat_or, UInt16.toNat_ofNat', Nat.mod_eq_of_lt (by omega)]
    exact or_pointer h
  have ⟨first, second, _⟩ := held
  rw [word] at first second
  constructor
  · have high : ∀ value : Fin 64, isPointer (UInt8.ofNat (192 + value)) = true := by decide
    have top : (49152 + pos) / 256 = 192 + pos / 256 := by omega
    rw [first, top]
    exact high ⟨pos / 256, by omega⟩
  · have value : word16 mem p = UInt16.ofNat (49152 + pos) := by
      rw [word16, first, second, UInt8.toNat_ofNat', UInt8.toNat_ofNat']
      exact congrArg UInt16.ofNat (by omega)
    rw [offset, value, UInt16.toNat_xor, UInt16.toNat_ofNat', Nat.mod_eq_of_lt (by omega)]
    exact xor_pointer h

theorem word16_of_holds {mem : Nat → UInt8} {p : Nat} {val : UInt16}
    (held : Holds mem p (write16 val)) : word16 mem p = val := by
  have bound := val.toNat_lt
  have ⟨first, second, _⟩ := held
  apply UInt16.toNat_inj.mp
  rw [word16, first, second, UInt16.toNat_ofNat', UInt8.toNat_ofNat', UInt8.toNat_ofNat']
  omega

theorem word32_of_holds {mem : Nat → UInt8} {p : Nat} {val : UInt32}
    (held : Holds mem p (write32 val)) : word32 mem p = val := by
  have bound := val.toNat_lt
  have ⟨first, second⟩ := holds_append.mp held
  apply UInt32.toNat_inj.mp
  rw [word32, word16_of_holds first]
  have next : word16 mem (p + 2) = _ := word16_of_holds second
  rw [next, UInt32.toNat_ofNat', UInt16.toNat_ofNat', UInt16.toNat_ofNat']
  omega

/-! ## Parsing names -/

section parsing

variable {mem : Nat → UInt8} {size : Nat}

variable {parts : List Str}

theorem mem_encode {p : Nat} (held : Holds mem p (encode parts))
    (valid : ∀ label ∈ parts, Label label) : mem p = 0 ↔ parts = [] := by
  cases parts with
  | nil => exact iff_of_true held.1 rfl
  | cons label rest =>
    have ⟨nonempty, short, _⟩ := valid label mem_cons_self
    have some := length_pos_iff.mpr nonempty
    refine iff_of_false (fun zero => ?_) (cons_ne_nil label rest)
    have value := congrArg UInt8.toNat (held.1.symm.trans zero)
    rw [UInt8.toNat_ofNat', Nat.mod_eq_of_lt (by omega)] at value
    have none : label.length = 0 := value
    omega

/-- The first byte of a label is its length. -/
theorem length_byte {label : Str} (valid : Label label) :
    (UInt8.ofNat label.length).toNat = label.length ∧ UInt8.ofNat label.length ≠ 0 ∧
      isPointer (UInt8.ofNat label.length) = false := by
  have each : ∀ value : Fin 64, value ≠ 0 → (UInt8.ofNat value).toNat = value ∧
      UInt8.ofNat value ≠ 0 ∧ isPointer (UInt8.ofNat value) = false := by decide
  have short := valid.short
  have some := length_pos_iff.mpr valid.nonempty
  refine each ⟨label.length, by omega⟩ fun zero => ?_
  have none := congrArg Fin.val zero
  exact absurd none (Nat.ne_of_gt some)

theorem readLabels_encode (valid : ∀ label ∈ parts, Label label) {p : Nat}
    (held : Holds mem p (encode parts)) (fits : p + (encode parts).length ≤ size)
    (target : Nat → Except Status PacketName) :
    ∃ name, readLabels mem size target p = .ok name ∧ name.labels = parts ∧
      name.text = joinDots parts ∧ name.taken = (encode parts).length := by
  induction parts generalizing p with
  | nil =>
    rw [readLabels, if_pos held.1]
    exact ⟨_, rfl, rfl, rfl, rfl⟩
  | cons label rest ih =>
    obtain ⟨first, others⟩ := forall_mem_cons.mp valid
    obtain ⟨length, visible, direct⟩ := length_byte first
    obtain ⟨byte, later⟩ := held
    obtain ⟨copied, next⟩ := holds_append.mp later
    have here : labelAt mem p = label := by
      rw [labelAt, byte, length]
      exact copied.map_range
    rw [encode, length_cons, length_append] at fits
    have after : p + 1 + label.length = p + (label.length + 1) := by omega
    rw [after] at next
    have left : 1 ≤ (encode rest).length := by
      rw [length_encode]
      split <;> omega
    obtain ⟨name, read, labels, text, taken⟩ := ih others next (by omega)
    have zero := mem_encode next others
    rw [readLabels, byte, if_neg visible, direct, if_neg Bool.false_ne_true, length,
      if_neg (by omega), if_pos (by omega), read, here]
    refine ⟨_, rfl, congrArg (label :: ·) labels, ?_, ?_⟩
    · rw [name.text_cons label fun ends => labels.trans (zero.mp ends), text, joinDots_cons]
      by_cases last : rest = []
      · rw [if_neg (not_not.mpr (zero.mpr last)), if_pos last, last]
        exact append_nil _
      · rw [if_pos (mt zero.mp last), if_neg last, append_assoc]
        rfl
    · rw [encode, length_cons, length_append, ← taken]
      exact Nat.add_right_comm _ _ _

/-- A name is read at a position as this one, and so many bytes are taken for it. -/
def NameRead (mem : Nat → UInt8) (size p : Nat) (name : Str) (len : Nat) : Prop :=
  ∀ extra, (parseName mem size extra p).result = .ok (name, len)

theorem nameRead_encode (valid : ∀ label ∈ parts, Label label) {p : Nat}
    (held : Holds mem p (encode parts)) (fits : p + (encode parts).length ≤ size) :
    NameRead mem size p (joinDots parts) (encode parts).length := by
  have ⟨name, read, _, text, taken⟩ := readLabels_encode valid held fits (readName mem size 10)
  intro extra
  rw [parseName_result, maxLevels, readName, read, ← text, ← taken]
  rfl

/-- A pointer to a name. -/
theorem nameRead_pointer (valid : ∀ label ∈ parts, Label label) {p : Nat} (near : pos < 16384)
    (pointer : Holds mem p (write16 (UInt16.ofNat pos ||| 0xc000)))
    (held : Holds mem pos (encode parts)) (fits : pos + (encode parts).length ≤ size) :
    NameRead mem size p (joinDots parts) 2 := by
  have ⟨jumps, target⟩ := pointer_spec near pointer
  have ⟨name, read, _, text, _⟩ := readLabels_encode valid held fits (readName mem size 9)
  have visible : mem p ≠ 0 := by
    intro zero
    rw [zero] at jumps
    exact absurd jumps (by decide)
  have left : 1 ≤ (encode parts).length := by
    rw [length_encode]
    split <;> omega
  intro extra
  rw [parseName_result, maxLevels, readName, readLabels, if_neg visible, if_pos jumps, target,
    if_neg (by omega), readName, read, ← text]
  rfl

end parsing

/-! ## The names before

The table of `print_name` by its names. A name is taken for the first one whose encoded bytes it
is. -/

variable {tab' : List Entry}

variable {pkt : Str} {table : List Str} {tab : List Entry}

/-- The bytes of a name in a packet. -/
def encoded (name : Str) : Str := encode (takeLabels [] name)

/-- What the table compares with: the bytes of a name behind its first length. -/
def labelOf (name : Str) : Str := ((encoded name).drop 1).take name.length

/-- The name in the table that a name is taken for. -/
def lookup (table : List Str) (name : Str) : Option Str := table.find? (labelOf · = name)

/-- What a name is read as. -/
def readAs (table : List Str) (name : Str) : Str := (lookup table name).getD name

/-- The table after a name. -/
def remember (table : List Str) (name : Str) : List Str :=
  if (lookup table name).isNone ∧ table.length < maxLabel then table ++ [name] else table

/-- No name is taken for another one. -/
def Faithful : List Str → List Str → Prop
  | _, [] => True
  | table, name :: rest => readAs table name = name ∧ Faithful (remember table name) rest

/-- The table after names. -/
def rememberAll : List Str → List Str → List Str
  | table, [] => table
  | table, name :: rest => rememberAll (remember table name) rest

theorem faithful_append (table names rest : List Str) :
    Faithful table (names ++ rest) ↔
      Faithful table names ∧ Faithful (rememberAll table names) rest := by
  induction names generalizing table with
  | nil => exact (and_iff_right trivial).symm
  | cons name names ih =>
    rw [cons_append, Faithful, Faithful, rememberAll, ih, and_assoc]

theorem rememberAll_append (table names rest : List Str) :
    rememberAll table (names ++ rest) = rememberAll (rememberAll table names) rest := by
  induction names generalizing table with
  | nil => rfl
  | cons name names ih => rw [cons_append, rememberAll, rememberAll, ih]

theorem one_le_length_encode (parts : List Str) : 1 ≤ (encode parts).length := by
  rw [length_encode]
  split <;> omega

/-- An entry of the table stands for a name of the packet, which a pointer can reach. -/
structure Stands (pkt : Str) (entry : Entry) (name : Str) : Prop where
  valid : DomainName name
  slen : entry.slen = name.length
  near : entry.pos < 16384
  bytes : ∃ rest, pkt.drop entry.pos = encoded name ++ rest

/-- The table stands for these names. -/
def TableOk (pkt : Str) : List Entry → List Str → Prop := List.Forall₂ (Stands pkt)

theorem Stands.append {entry : Entry} {name : Str} (h : Stands pkt entry name) (text : Str) :
    Stands (pkt ++ text) entry name := by
  have ⟨rest, bytes⟩ := h.bytes
  have inside : entry.pos ≤ pkt.length := by
    by_contra outside
    have long := one_le_length_encode (takeLabels [] name)
    have none := drop_eq_nil_of_le (Nat.le_of_not_le outside)
    rw [none] at bytes
    have empty := (append_eq_nil_iff.mp bytes.symm).1
    rw [encoded] at empty
    rw [empty] at long
    contradiction
  refine ⟨h.valid, h.slen, h.near, rest ++ text, ?_⟩
  rw [drop_append_of_le_length inside, bytes, append_assoc]

theorem TableOk.append (h : TableOk pkt tab table) (text : Str) : TableOk (pkt ++ text) tab table :=
  h.imp fun _ _ stands => stands.append text

section
variable {entry : Entry} {name : Str} (h : Stands pkt entry name)
include h

/-- The bytes that an entry is compared by. -/
theorem Stands.label : entry.label pkt = labelOf name := by
  have ⟨rest, bytes⟩ := h.bytes
  obtain ⟨parts, valid, rfl⟩ := h.valid
  have drop : pkt.drop (entry.pos + 1) = (encoded (joinDots parts)).drop 1 ++ rest := by
    have long := one_le_length_encode (takeLabels [] (joinDots parts))
    rw [← drop_drop, bytes]
    exact drop_append_of_le_length long
  have enough : (joinDots parts).length ≤ ((encoded (joinDots parts)).drop 1).length := by
    rw [encoded, takeLabels_joinDots valid, length_drop, length_encode]
    split
    · next none => simp [none, joinDots]
    · omega
  rw [Entry.label, labelOf, drop, h.slen, take_append_of_le_length enough]

/-- What the packet holds, the memory holds at its position. -/
theorem Stands.holds {mem : Nat → UInt8} (held : Holds mem 0 pkt) :
    Holds mem entry.pos (encoded name) ∧ entry.pos + (encoded name).length ≤ pkt.length := by
  have ⟨rest, bytes⟩ := h.bytes
  have long := one_le_length_encode (takeLabels [] name)
  have length := congrArg List.length bytes
  rw [length_drop, length_append] at length
  have enough : 1 ≤ (encoded name).length := long
  rw [← take_append_drop entry.pos pkt, bytes, holds_append, holds_append] at held
  have position : 0 + (pkt.take entry.pos).length = entry.pos := by
    rw [length_take]
    omega
  rw [position] at held
  exact ⟨held.2.1, by omega⟩

end

/-- A search for what related things have in common. -/
theorem find_forall₂ {α β : Type} {related : α → β → Prop} {found : α → Bool} {found' : β → Bool}
    {left : List α} {right : List β} (h : List.Forall₂ related left right)
    (same : ∀ first second, related first second → found first = found' second) :
    left.find? found = none ∧ right.find? found' = none ∨
      ∃ first second, related first second ∧ left.find? found = some first ∧
        right.find? found' = some second := by
  induction h with
  | nil => exact .inl ⟨rfl, rfl⟩
  | cons head tail ih =>
    have equal := same _ _ head
    rw [find?_cons, find?_cons, ← equal]
    split
    · exact .inr ⟨_, _, head, rfl, rfl⟩
    · exact ih

/-- A name is printed in full or as a pointer, and is read as the name that it is taken for. -/
theorem printName_spec {size : Int} {name : Str}
    (h : printName pkt size name tab = some (text, tab')) (ok : TableOk pkt tab table)
    (valid : DomainName name) (near : pkt.length < 16384) :
    TableOk (pkt ++ text) tab' (remember table name) ∧
      (∀ {mem : Nat → UInt8} {total : Nat}, Holds mem 0 (pkt ++ text) →
        (pkt ++ text).length ≤ total →
          NameRead mem total pkt.length (readAs table name) text.length) ∧
      1 ≤ text.length ∧ (0 ≤ size → text.length ≤ size ∨ text.length = 2) := by
  have same : ∀ entry other, Stands pkt entry other →
      decide (entry.label pkt = name) = decide (labelOf other = name) :=
    fun entry other stands => by rw [stands.label]
  rw [printName] at h
  rcases find_forall₂ ok same with ⟨missing, unknown⟩ | ⟨entry, other, stands, found, known⟩
  · rw [missing] at h
    have ⟨text', printed, result⟩ := Option.bind_eq_some_iff.mp h
    obtain ⟨rfl, rfl⟩ := Prod.mk.inj (Option.some.inj result)
    have unknown : lookup table name = none := unknown
    have full : encoded name = text' := (printLabels_eq printed).symm
    refine ⟨?_, ?_, ?_, ?_⟩
    · have count := ok.length_eq
      rw [remember, unknown, ← count]
      by_cases room : tab.length < maxLabel
      · rw [if_pos room, if_pos ⟨rfl, room⟩]
        refine rel_append (ok.append text') (.cons ⟨valid, rfl, near, [], ?_⟩ .nil)
        rw [drop_left, append_nil, full]
      · rw [if_neg room, if_neg fun both => room both.2]
        exact ok.append text'
    · intro mem total held fits
      obtain ⟨parts, labels, rfl⟩ := valid
      rw [encoded, takeLabels_joinDots labels] at full
      rw [length_append] at fits
      have bytes := (holds_append.mp held).2
      rw [Nat.zero_add, ← full] at bytes
      rw [readAs, unknown, Option.getD_none, ← full]
      exact nameRead_encode labels bytes (by rwa [full])
    · rw [← full]
      exact one_le_length_encode _
    · exact fun nonneg => .inl (printLabels_size nonneg printed)
  · rw [found] at h
    obtain ⟨rfl, rfl⟩ := Prod.mk.inj (Option.some.inj h)
    have known : lookup table name = some other := known
    refine ⟨?_, ?_, ?_, ?_⟩
    · rw [remember, known, if_neg (by simp)]
      exact ok.append _
    · intro mem total held fits
      have ⟨before, pointer⟩ := holds_append.mp held
      have ⟨bytes, inside⟩ := stands.holds before
      rw [Nat.zero_add] at pointer
      rw [length_append] at fits
      obtain ⟨parts, labels, rfl⟩ := stands.valid
      rw [encoded, takeLabels_joinDots labels] at bytes inside
      rw [readAs, known, Option.getD_some]
      exact nameRead_pointer labels stands.near pointer bytes (by omega)
    · exact (by decide : 1 ≤ 2)
    · exact fun _ => .inr rfl


/-! ## Records -/

variable {printer printer' : Printer}

/-- The names of a query. -/
def ParsedQuery.names (query : ParsedQuery) : List Str := [query.name]

/-- The names in the data of a record. -/
def Rdata.names : Rdata → List Str
  | .name cname => [cname]
  | .srv _ _ _ target => [target]
  | .addr _ | .raw _ => []

/-- The names of a record. -/
def ParsedRr.names (rr : ParsedRr) : List Str := rr.name :: rr.rdata.names

/-- A query of class IN. -/
structure ParsedQuery.Valid (query : ParsedQuery) : Prop where
  name : DomainName query.name
  dnsclass : query.dnsclass = 1

/-- The data that belongs to a type. -/
def Rdata.Valid (type : UInt16) : Rdata → Prop
  | .addr ipAddr => type = typeA ∧ ipAddr.length = 4 ∨ type = typeAaaa ∧ ipAddr.length = 16
  | .name cname => hasName type = true ∧ DomainName cname
  | .srv _ _ _ target => type = typeSrv ∧ DomainName target
  | .raw _ => False

/-- A record of class IN that is A, AAAA, CNAME, NS, PTR or SRV. -/
structure ParsedRr.Valid (rr : ParsedRr) : Prop where
  name : DomainName rr.name
  dnsclass : rr.dnsclass = 1
  rdata : rr.rdata.Valid rr.type

/-- A record without the length of its data, which is computed when it is printed. -/
def ParsedRr.value (rr : ParsedRr) : ParsedRr := { rr with rdlength := 0 }

theorem printName_congr {pkt' : Str} (ok : TableOk pkt tab table) (ok' : TableOk pkt' tab table)
    (same : pkt.length = pkt'.length) (size : Int) (name : Str) :
    printName pkt size name tab = printName pkt' size name tab := by
  have labels : ∀ {tab : List Entry} {table : List Str}, TableOk pkt tab table →
      TableOk pkt' tab table → tab.find? (fun entry => entry.label pkt = name) =
        tab.find? fun entry => entry.label pkt' = name := by
    intro tab table ok ok'
    induction ok with
    | nil => rfl
    | cons stands _ ih =>
      cases ok' with
      | cons stands' ok' => rw [find?_cons, find?_cons, stands.label, stands'.label, ih ok']
  rw [printName, printName, labels ok ok', same]

/-- A name behind bytes that are written after it. -/
theorem printName_behind {before name : Str} {size : Int}
    (h : printName (pkt ++ before) size name tab = some (text, tab')) (ok : TableOk pkt tab table)
    {after : Str} (length : before.length = after.length) :
    printName (pkt ++ after) size name tab = some (text, tab') := by
  rw [← h]
  exact printName_congr (ok.append after) (ok.append before) (by simp [length]) size name

theorem length_write16 (val : UInt16) : (write16 val).length = 2 := rfl

theorem hasName_only {type : UInt16} (h : hasName type = true) :
    type ≠ typeA ∧ type ≠ typeAaaa ∧ type ≠ typeSrv := by
  refine ⟨?_, ?_, ?_⟩ <;> rintro rfl <;> exact absurd h (by decide)

section rdata

variable {mem : Nat → UInt8} {total p : Nat} {type : UInt16} {name : Str} {len : Nat}

theorem parseRdata_addr {ipAddr : Str} (h : (Rdata.addr ipAddr).Valid type)
    (held : Holds mem p ipAddr) (rdlength : Nat) :
    (parseRdata mem total type rdlength p).result = .ok (.addr ipAddr, ipAddr.length) := by
  rcases h with ⟨rfl, four⟩ | ⟨rfl, sixteen⟩
  · have copied := held.map_range
    rw [four] at copied ⊢
    rw [parseRdata, if_pos rfl, result_bind_of_ok (readBytes_result mem _ _), copied]
    rfl
  · have copied := held.map_range
    rw [sixteen] at copied ⊢
    rw [parseRdata, if_neg (by decide), if_pos rfl, result_bind_of_ok (readBytes_result mem _ _),
      copied]
    rfl

theorem parseRdata_name (named : hasName type = true) (read : NameRead mem total p name len)
    (rdlength : Nat) :
    (parseRdata mem total type rdlength p).result = .ok (.name name, len) := by
  have ⟨notA, notAaaa, _⟩ := hasName_only named
  rw [parseRdata, if_neg notA, if_neg notAaaa, if_pos named, result_bind_of_ok (read 0)]
  rfl

theorem parseRdata_srv {prio weight port : UInt16}
    (held : Holds mem p (write16 prio ++ write16 weight ++ write16 port))
    (read : NameRead mem total (p + 6) name len) (rdlength : Nat) :
    (parseRdata mem total typeSrv rdlength p).result =
      .ok (.srv prio weight port name, 6 + len) := by
  have ⟨fields, third⟩ := holds_append.mp held
  have ⟨first, second⟩ := holds_append.mp fields
  have second' : word16 mem (p + 2) = weight := word16_of_holds second
  have third' : word16 mem (p + 4) = port := word16_of_holds third
  rw [parseRdata, if_neg (by decide), if_neg (by decide), if_neg (by decide), if_pos rfl,
    result_bind_of_ok (read16_result mem p), result_bind_of_ok (read16_result mem (p + 2)),
    result_bind_of_ok (read16_result mem (p + 4)), result_bind_of_ok (read 0),
    word16_of_holds first, second', third']
  rfl

end rdata

/-- The data of a record is read back, its names as what they are taken for. -/
structure RdataRead (pkt text : Str) (type : UInt16) (rdata : Rdata) (table : List Str)
    (mem : Nat → UInt8) (total : Nat) : Prop where
  rdlength : (word16 mem pkt.length).toNat + 2 = text.length
  parsed : ∃ rdata', (parseRdata mem total type (word16 mem pkt.length).toNat
    (pkt.length + 2)).result = .ok (rdata', text.length - 2) ∧
      (rdata' = rdata ↔ Faithful table rdata.names)

theorem printRdata_spec {size : Int} {type : UInt16} {rdata : Rdata}
    (h : printRdata pkt size type rdata tab = some (text, tab')) (ok : TableOk pkt tab table)
    (valid : rdata.Valid type) (near : pkt.length + 8 < 16384) (few : size < 65536) :
    TableOk (pkt ++ text) tab' (rememberAll table rdata.names) ∧ (text.length : Int) ≤ size ∧
      ∀ {mem : Nat → UInt8} {total : Nat}, Holds mem 0 (pkt ++ text) →
        (pkt ++ text).length ≤ total → RdataRead pkt text type rdata table mem total := by
  -- The length of the data stands before it.
  have counted : ∀ {data : Str} {mem : Nat → UInt8}, data.length < 65536 →
      Holds mem 0 (pkt ++ (write16 (UInt16.ofNat data.length) ++ data)) →
        (word16 mem pkt.length).toNat + 2 = (write16 (UInt16.ofNat data.length) ++ data).length ∧
          Holds mem (pkt.length + 2) data := by
    intro data mem short held
    have behind := (holds_append.mp held).2
    rw [Nat.zero_add] at behind
    have ⟨count, data_held⟩ := holds_append.mp behind
    rw [word16_of_holds count, UInt16.toNat_ofNat', length_append, length_write16]
    exact ⟨by omega, data_held⟩
  cases rdata with
  | raw data => exact valid.elim
  | addr ipAddr =>
    have address : text = write16 (UInt16.ofNat ipAddr.length) ++ ipAddr ∧ tab' = tab ∧
        (ipAddr.length + 2 : Int) ≤ size ∧ ipAddr.length ≤ 16 := by
      rcases valid with ⟨rfl, four⟩ | ⟨rfl, sixteen⟩
      · rw [printRdata, if_pos rfl] at h
        split at h
        · contradiction
        · obtain ⟨rfl, rfl⟩ := Prod.mk.inj (Option.some.inj h)
          rw [four]
          exact ⟨rfl, rfl, by omega, by omega⟩
      · rw [printRdata, if_neg (by decide), if_pos rfl] at h
        split at h
        · contradiction
        · obtain ⟨rfl, rfl⟩ := Prod.mk.inj (Option.some.inj h)
          rw [sixteen]
          exact ⟨rfl, rfl, by omega, by omega⟩
    obtain ⟨rfl, rfl, fits, short⟩ := address
    refine ⟨ok.append _, ?_, fun held inside => ?_⟩
    · rw [length_append, length_write16]
      omega
    · have ⟨count, data⟩ := counted (by omega) held
      refine ⟨count, _, ?_, iff_of_true rfl trivial⟩
      rw [parseRdata_addr valid data, length_append, length_write16, Nat.add_sub_cancel_left]
  | name cname =>
    have ⟨named, domain⟩ := valid
    simp only [printRdata, if_pos named] at h
    split at h
    · contradiction
    · next room =>
      have ⟨⟨text', tab''⟩, printed, result⟩ := Option.bind_eq_some_iff.mp h
      obtain ⟨rfl, rfl⟩ := Prod.mk.inj (Option.some.inj result)
      dsimp only
      have behind := printName_behind printed ok (length_write16 (UInt16.ofNat text'.length)).symm
      have ⟨ok', read, _, fits⟩ := printName_spec behind (ok.append _) domain
        (by rw [length_append, length_write16]; omega)
      have short := fits (by omega)
      rw [append_assoc] at ok' read
      refine ⟨ok', ?_, fun held inside => ?_⟩
      · rw [length_append, length_write16]
        omega
      · have ⟨count, _⟩ := counted (by omega) held
        have data := read held inside
        rw [length_append, length_write16] at data
        refine ⟨count, .name (readAs table cname), ?_, ?_⟩
        · rw [parseRdata_name named data, length_append, length_write16,
            Nat.add_sub_cancel_left]
        · simp [Rdata.names, Faithful]
  | srv prio weight port target =>
    obtain ⟨rfl, domain⟩ := valid
    simp only [printRdata, if_true] at h
    split at h
    · contradiction
    · next room =>
      have ⟨⟨text', tab''⟩, printed, result⟩ := Option.bind_eq_some_iff.mp h
      obtain ⟨rfl, rfl⟩ := Prod.mk.inj (Option.some.inj result)
      generalize fixed : write16 prio ++ write16 weight ++ write16 port = fields at printed
      have six : fields.length = 6 := by rw [← fixed]; rfl
      have count : UInt16.ofNat (text'.length + 6) = UInt16.ofNat (fields ++ text').length := by
        rw [length_append, six, Nat.add_comm]
      have placed : ([0, 0] ++ fields : Str).length =
          (write16 (UInt16.ofNat (fields ++ text').length) ++ fields).length := by
        rfl
      rw [append_assoc pkt] at printed
      have behind := printName_behind printed ok placed
      have ⟨ok', read, _, fits⟩ := printName_spec behind (ok.append _) domain
        (by rw [length_append, length_append, length_write16, six]; omega)
      have short := fits (by omega)
      rw [append_assoc, append_assoc] at ok' read
      rw [count, append_assoc]
      refine ⟨ok', ?_, fun held inside => ?_⟩
      · rw [length_append, length_append, length_write16, six]
        omega
      · have ⟨count, data⟩ := counted (by rw [length_append, six]; omega) held
        have named := read held inside
        rw [length_append, length_append, length_write16, six, ← Nat.add_assoc] at named
        have numbers := (holds_append.mp data).1
        rw [← fixed] at numbers
        refine ⟨count, .srv prio weight port (readAs table target), ?_, ?_⟩
        · rw [parseRdata_srv numbers named, length_append, length_write16,
            Nat.add_sub_cancel_left, length_append, six]
        · simp [Rdata.names, Faithful]

/-- The room of the packet: positions stay far below 2^14 even though questions are not counted in
full. -/
structure Printer.Roomy (printer : Printer) : Prop where
  nonneg : 0 ≤ printer.size
  room : printer.pkt.length + 5 * printer.size ≤ 7500

/-- The printer after names, in a packet of at most so many bytes that the C allows. -/
structure Printer.Stands (printer : Printer) (table : List Str) : Prop extends
    printer.Roomy where
  tab : TableOk printer.pkt printer.tab table

/-- A record is appended, and is read back as itself exactly if its names are. -/
structure Appended {α : Type} (parse : (Nat → UInt8) → Nat → Nat → Parser (α × Nat))
    (names : α → List Str) (value : α → α) (record : α) (table : List Str)
    (before after : Printer) : Prop where
  stands : after.Stands (rememberAll table (names record))
  text : ∃ text, after.pkt = before.pkt ++ text ∧
    ∀ {mem : Nat → UInt8} {total : Nat}, Holds mem 0 after.pkt → after.pkt.length ≤ total →
      ∃ record', (parse mem total before.pkt.length).result = .ok (record', text.length) ∧
        (value record' = value record ↔ Faithful table (names record))

/-- A question is a name and two fields. -/
theorem parseQuery_read {mem : Nat → UInt8} {total p len : Nat} {name : Str} {type dnsclass : UInt16}
    (read : NameRead mem total p name len) (typed : Holds mem (p + len) (write16 type))
    (classed : Holds mem (p + len + 2) (write16 dnsclass)) :
    (parseQuery mem total p).result = .ok (⟨name, type, dnsclass⟩, len + 4) := by
  rw [parseQuery, result_bind_of_ok (read 4)]
  rw [result_bind_of_ok (read16_result mem _), result_bind_of_ok (read16_result mem _),
    word16_of_holds typed, word16_of_holds classed]
  rfl

theorem printQuery_spec {query : ParsedQuery} (h : printQuery query printer = some printer')
    (stands : printer.Stands table) (valid : query.Valid) :
    Appended parseQuery ParsedQuery.names id query table printer printer' := by
  have ⟨⟨nonneg, room⟩, ok⟩ := stands
  have ⟨⟨name, tab⟩, printed, result⟩ := Option.bind_eq_some_iff.mp h
  dsimp only at result
  split at result
  · contradiction
  · next enough =>
    obtain rfl := Option.some.inj result
    have ⟨ok', read, long, _⟩ := printName_spec printed ok valid.name (by omega)
    have length : (printer.pkt ++ name ++ write16 query.type ++ write16 query.dnsclass).length =
        printer.pkt.length + (name.length + 4) := by
      simp only [length_append, length_write16]
      omega
    refine ⟨⟨⟨by dsimp only; omega, by dsimp only; rw [length]; omega⟩, ?_⟩,
      name ++ write16 query.type ++ write16 query.dnsclass, ?_, fun {mem total} held fits => ?_⟩
    · exact (ok'.append _).append _
    · simp
    · rw [length] at fits
      have ⟨held, third⟩ := holds_append.mp held
      have ⟨first, second⟩ := holds_append.mp held
      simp only [length_append, length_write16, Nat.zero_add] at second third
      have inside : (printer.pkt ++ name).length ≤ total := by
        rw [length_append]
        omega
      refine ⟨⟨readAs table query.name, query.type, query.dnsclass⟩, ?_, ?_⟩
      · rw [parseQuery_read (read first inside) second third]
        simp only [length_append, length_write16]
      · have ⟨qname, type, dnsclass⟩ := query
        simp [ParsedQuery.names, Faithful]

theorem printRecord_spec {rr : ParsedRr} (h : printRecord rr printer = some printer')
    (stands : printer.Stands table) (valid : rr.Valid) :
    Appended parseRr ParsedRr.names ParsedRr.value rr table printer printer' := by
  have ⟨⟨nonneg, room⟩, ok⟩ := stands
  have ⟨⟨text, tab⟩, printed, result⟩ := Option.bind_eq_some_iff.mp h
  obtain rfl := Option.some.inj result
  have ⟨⟨name, tab'⟩, named, body⟩ := Option.bind_eq_some_iff.mp printed
  dsimp only at body
  split at body
  · contradiction
  · next enough =>
    have ⟨⟨data, tab''⟩, printed', result⟩ := Option.bind_eq_some_iff.mp body
    obtain ⟨rfl, rfl⟩ := Prod.mk.inj (Option.some.inj result)
    have ⟨ok', read, long, _⟩ := printName_spec named ok valid.name (by omega)
    generalize header : write16 rr.type ++ write16 rr.dnsclass ++ write32 rr.ttl = fixed at *
    have eight : fixed.length = 8 := by
      rw [← header]
      rfl
    have position : (printer.pkt ++ name ++ fixed).length = printer.pkt.length + name.length + 8 := by
      rw [length_append, length_append, eight]
    have ⟨ok'', fits, data_read⟩ := printRdata_spec printed' (ok'.append fixed) valid.rdata
      (by omega) (by omega)
    have whole : printer.pkt ++ (name ++ fixed ++ data) = printer.pkt ++ name ++ fixed ++ data := by
      simp
    have length : (name ++ fixed ++ data).length = name.length + 8 + data.length := by
      rw [length_append, length_append, eight]
    rw [whole]
    refine ⟨⟨⟨?_, ?_⟩, ok''⟩, name ++ fixed ++ data, whole.symm, fun {mem total} held inside => ?_⟩
    · dsimp only
      omega
    · dsimp only
      rw [← whole, length_append, length]
      omega
    · have ⟨rdlength, rdata', parsed, same⟩ := data_read held inside
      have ⟨before, _⟩ := holds_append.mp held
      have ⟨first, fields⟩ := holds_append.mp before
      rw [length_append, position] at inside
      have nameInside : (printer.pkt ++ name).length ≤ total := by
        rw [length_append]
        omega
      have owner := read first nameInside 4
      rw [← header, length_append, Nat.zero_add] at fields
      have ⟨fields, ttl⟩ := holds_append.mp fields
      have ⟨type, dnsclass⟩ := holds_append.mp fields
      have dnsclass' : word16 mem (printer.pkt.length + name.length + 2) = rr.dnsclass :=
        word16_of_holds dnsclass
      have ttl' : word32 mem (printer.pkt.length + name.length + 4) = rr.ttl :=
        word32_of_holds ttl
      rw [position] at rdlength parsed
      have accepted : ¬(rr.dnsclass ≠ 1 ∧ isKnown rr.type = true) := fun both =>
        both.1 valid.dnsclass
      refine ⟨⟨readAs table rr.name, rr.type, rr.dnsclass, rr.ttl,
        word16 mem (printer.pkt.length + name.length + 8), rdata'⟩, ?_, ?_⟩
      · rw [parseRr, result_bind_of_ok owner]
        dsimp only
        rw [if_neg (by omega), result_bind_of_ok (read16_result mem _),
          result_bind_of_ok (read16_result mem _), word16_of_holds type, dnsclass',
          if_neg accepted, result_bind_of_ok (read32_result mem _),
          result_bind_of_ok (read16_result mem _), if_neg (by omega), result_bind_of_ok parsed, ttl',
          length]
        exact congrArg Except.ok (Prod.ext rfl (by dsimp only; omega))
      · have ⟨rname, rtype, rclass, rttl, rlen, rdata⟩ := rr
        simp [ParsedRr.value, ParsedRr.names, Faithful, same]

/-- The records of a section. -/
theorem printAll_spec {α : Type} {print : α → Printer → Option Printer}
    {parse : (Nat → UInt8) → Nat → Nat → Parser (α × Nat)} {names : α → List Str} {value : α → α}
    {valid : α → Prop}
    (step : ∀ {record printer printer' table}, print record printer = some printer' →
      printer.Stands table → valid record →
        Appended parse names value record table printer printer') {records : List α}
    (h : printAll print records printer = some printer') (stands : printer.Stands table)
    (all : ∀ record ∈ records, valid record) :
    printer'.Stands (rememberAll table (records.flatMap names)) ∧
      ∃ text, printer'.pkt = printer.pkt ++ text ∧
        ∀ {mem : Nat → UInt8} {total : Nat}, Holds mem 0 printer'.pkt →
          printer'.pkt.length ≤ total → ∃ records',
            (parseAll (parse mem total) records.length printer.pkt.length).result =
              .ok (records', printer'.pkt.length) ∧
            (records'.map value = records.map value ↔
              Faithful table (records.flatMap names)) := by
  induction records generalizing printer table with
  | nil =>
    obtain rfl := Option.some.inj h
    exact ⟨stands, [], (append_nil _).symm, fun _ _ => ⟨[], rfl, iff_of_true rfl trivial⟩⟩
  | cons record rest ih =>
    have ⟨between, printed, others⟩ := Option.bind_eq_some_iff.mp h
    have ⟨first, later⟩ := forall_mem_cons.mp all
    have ⟨stands', text, appended, read⟩ := step printed stands first
    have ⟨stands'', text', appended', read'⟩ := ih others stands' later
    rw [flatMap_cons, rememberAll_append]
    refine ⟨stands'', text ++ text', by rw [appended', appended, append_assoc],
      fun {mem total} held fits => ?_⟩
    have held' := held
    rw [appended', holds_append] at held'
    have fits' : between.pkt.length ≤ total := by
      rw [appended', length_append] at fits
      omega
    have ⟨record', parsed, same⟩ := read held'.1 fits'
    have ⟨records', parsed', same'⟩ := read' held fits
    have start : printer.pkt.length + text.length = between.pkt.length := by
      rw [appended, length_append]
    refine ⟨record' :: records', ?_, ?_⟩
    · rw [length_cons, parseAll, result_bind_of_ok parsed]
      rw [result_bind_of_ok (result_access _ _), start, result_bind_of_ok parsed']
      rfl
    · rw [map_cons, map_cons, List.cons.injEq, same, same', faithful_append]

/-! ## Packets -/

/-- A response whose header counts its questions and records, all of class IN. -/
structure ParsedPacket.Valid (packet : ParsedPacket) : Prop where
  qdcount : packet.hdr.qdcount.toNat = packet.q.length
  anscount : packet.hdr.anscount.toNat = packet.ans.length
  nscount : packet.hdr.nscount.toNat = packet.ns.length
  arcount : packet.hdr.arcount.toNat = packet.arr.length
  q : ∀ query ∈ packet.q, query.Valid
  ans : ∀ rr ∈ packet.ans, rr.Valid
  ns : ∀ rr ∈ packet.ns, rr.Valid
  arr : ∀ rr ∈ packet.arr, rr.Valid

/-- The names of a packet in the order in which they are printed. -/
def ParsedPacket.names (packet : ParsedPacket) : List Str :=
  packet.q.flatMap ParsedQuery.names ++ (packet.ans.flatMap ParsedRr.names ++
    (packet.ns.flatMap ParsedRr.names ++ packet.arr.flatMap ParsedRr.names))

/-- A packet without the lengths of the data of its records. -/
def ParsedPacket.value (packet : ParsedPacket) : ParsedPacket :=
  { packet with
    ans := packet.ans.map ParsedRr.value
    ns := packet.ns.map ParsedRr.value
    arr := packet.arr.map ParsedRr.value }

theorem readHdr_printHdr {mem : Nat → UInt8} {hdr : Hdr} (held : Holds mem 0 (printHdr hdr)) :
    (readHdr mem).result = .ok hdr := by
  have ⟨held, sixth⟩ := holds_append.mp held
  have ⟨held, fifth⟩ := holds_append.mp held
  have ⟨held, fourth⟩ := holds_append.mp held
  have ⟨held, third⟩ := holds_append.mp held
  have ⟨first, second⟩ := holds_append.mp held
  have words : word16 mem 0 = hdr.id ∧ word16 mem 2 = hdr.flags ∧ word16 mem 4 = hdr.qdcount ∧
      word16 mem 6 = hdr.anscount ∧ word16 mem 8 = hdr.nscount ∧ word16 mem 10 = hdr.arcount :=
    ⟨word16_of_holds first, word16_of_holds second, word16_of_holds third,
      word16_of_holds fourth, word16_of_holds fifth, word16_of_holds sixth⟩
  have ⟨id, flags, qdcount, anscount, nscount, arcount⟩ := words
  rw [readHdr_result, id, flags, qdcount, anscount, nscount, arcount]

/-- What is printed is parsed, as the same packet exactly if no name is taken for another one. -/
theorem printPacket_spec {packet : ParsedPacket} (valid : packet.Valid)
    (printed : printPacket packet maxPkt = some pkt) {mem : Nat → UInt8} (held : Holds mem 0 pkt) :
    ∃ packet', (pjDnsParsePacket mem pkt.length).result = .ok packet' ∧
      (packet'.value = packet.value ↔ Faithful [] packet.names) := by
  rw [printPacket, if_neg (by decide), valid.qdcount, valid.anscount, valid.nscount, valid.arcount,
    take_length, take_length, take_length, take_length] at printed
  have ⟨first, questions, printed⟩ := Option.bind_eq_some_iff.mp printed
  have ⟨second, answers, printed⟩ := Option.bind_eq_some_iff.mp printed
  have ⟨third, servers, printed⟩ := Option.bind_eq_some_iff.mp printed
  have ⟨last, additional, printed⟩ := Option.bind_eq_some_iff.mp printed
  obtain rfl := Option.some.inj printed
  have twelve : (printHdr packet.hdr).length = 12 := rfl
  have start : Printer.Stands { pkt := printHdr packet.hdr, size := maxPkt - 12, tab := [] } [] :=
    ⟨⟨by dsimp only [maxPkt]; omega, by dsimp only [maxPkt]; rw [twelve]; omega⟩, .nil⟩
  have ⟨standsQ, text, wholeQ, q⟩ := printAll_spec printQuery_spec questions start valid.q
  have ⟨standsAns, text, wholeAns, ans⟩ :=
    printAll_spec printRecord_spec answers standsQ valid.ans
  have ⟨standsNs, text, wholeNs, ns⟩ := printAll_spec printRecord_spec servers standsAns valid.ns
  have ⟨_, rest, wholeArr, arr⟩ := printAll_spec printRecord_spec additional standsNs valid.arr
  -- The memory holds the packet as it was after each section.
  have prefixes : ∀ {pkt before text : Str}, Holds mem 0 pkt → pkt = before ++ text →
      Holds mem 0 before ∧ before.length ≤ pkt.length := by
    rintro _ before text held rfl
    exact ⟨(holds_append.mp held).1, by rw [length_append]; omega⟩
  have ⟨heldNs, fitsNs⟩ := prefixes held wholeArr
  have ⟨heldAns, fitsAns⟩ := prefixes heldNs wholeNs
  have ⟨heldQ, fitsQ⟩ := prefixes heldAns wholeAns
  have ⟨header, long⟩ := prefixes heldQ wholeQ
  rw [twelve] at q long
  have ⟨q', parsedQ, sameQ⟩ := q heldQ (by omega : _ ≤ last.pkt.length)
  have ⟨ans', parsedAns, sameAns⟩ := ans heldAns (by omega : _ ≤ last.pkt.length)
  have ⟨ns', parsedNs, sameNs⟩ := ns heldNs fitsNs
  have ⟨arr', parsedArr, sameArr⟩ := arr held (Nat.le_refl last.pkt.length)
  refine ⟨⟨packet.hdr, q', ans', ns', arr'⟩, ?_, ?_⟩
  · rw [pjDnsParsePacket, if_neg (by omega), result_bind_of_ok (readHdr_printHdr header),
      parseSections, valid.qdcount, valid.anscount, valid.nscount, valid.arcount,
      result_bind_of_ok parsedQ, result_bind_of_ok parsedAns, result_bind_of_ok parsedNs,
      result_bind_of_ok parsedArr]
    rfl
  · rw [ParsedPacket.names, faithful_append, faithful_append, faithful_append, ← sameQ, ← sameAns,
      ← sameNs, ← sameArr]
    have ⟨hdr, q, ans, ns, arr⟩ := packet
    simp [ParsedPacket.value]

/-- A packet that is printed is parsed again as the same packet exactly if no name is taken for
another one by its encoded bytes. -/
theorem dns_round_trip_iff {packet : ParsedPacket} (valid : packet.Valid) {pkt : Str}
    (printed : printPacket packet maxPkt = some pkt) {mem : Nat → UInt8}
    (held : Holds mem 0 pkt) :
    (∃ packet', (pjDnsParsePacket mem pkt.length).result = .ok packet' ∧
      packet'.value = packet.value) ↔ Faithful [] packet.names := by
  have ⟨packet', parsed, same⟩ := printPacket_spec valid printed held
  rw [← same]
  constructor
  · rintro ⟨other, parsed', value⟩
    obtain rfl := Except.ok.inj (parsed.symm.trans parsed')
    exact value
  · exact fun value => ⟨packet', parsed, value⟩

/-- A packet of questions. -/
def questions (names : List Str) : ParsedPacket where
  hdr := { id := 7, flags := 0x8000, qdcount := UInt16.ofNat names.length, anscount := 0,
           nscount := 0, arcount := 0 }
  q := names.map fun name => { name, type := typeA, dnsclass := 1 }
  ans := []
  ns := []
  arr := []

theorem questions_valid {names : List Str} (few : names.length < 65536)
    (domains : ∀ name ∈ names, DomainName name) : (questions names).Valid where
  qdcount := by
    simp only [questions, UInt16.toNat_ofNat', length_map]
    omega
  anscount := rfl
  nscount := rfl
  arcount := rfl
  q := forall_mem_map.mpr fun name member => ⟨domains name member, rfl⟩
  ans := nofun
  ns := nofun
  arr := nofun

theorem label_of_decide {label : Str} (h : label ≠ [] ∧ label.length ≤ 63 ∧ 46 ∉ label) :
    Label label :=
  ⟨h.1, h.2.1, h.2.2⟩

set_option maxRecDepth 4000 in
/-- The names `a.b` and `a` are read back, the second `a` through a pointer. -/
theorem dns_round_trip_iff_compressed :
    let packet := questions [[97, 46, 98], [97], [97]]
    ∃ pkt, printPacket packet maxPkt = some pkt ∧ ∃ packet',
      (pjDnsParsePacket (fun p => pkt.getD p 0) pkt.length).result = .ok packet' ∧
        packet'.value = packet.value := by
  intro packet
  have a : Label [97] := label_of_decide (by decide)
  have b : Label [98] := label_of_decide (by decide)
  have single : DomainName [97] := ⟨[[97]], forall_mem_singleton.mpr a, rfl⟩
  have double : DomainName [97, 46, 98] :=
    ⟨[[97], [98]], forall_mem_cons.mpr ⟨a, forall_mem_singleton.mpr b⟩, rfl⟩
  have valid : packet.Valid := questions_valid (by decide) (forall_mem_cons.mpr
    ⟨double, forall_mem_cons.mpr ⟨single, forall_mem_singleton.mpr single⟩⟩)
  have ⟨pkt, printed⟩ := Option.isSome_iff_exists.mp
    (by decide : (printPacket packet maxPkt).isSome)
  have faithful : Faithful [] packet.names := ⟨rfl, rfl, rfl, trivial⟩
  exact ⟨pkt, printed, (dns_round_trip_iff valid printed (holds_getD [] pkt)).mpr faithful⟩

set_option maxRecDepth 4000 in
/-- The one label `a\x01b` is taken for the name `a.b` before it. -/
theorem dns_round_trip_fails :
    let packet := questions [[97, 46, 98], [97, 1, 98]]
    packet.Valid ∧ ∃ pkt, printPacket packet maxPkt = some pkt ∧
      ¬∃ packet', (pjDnsParsePacket (fun p => pkt.getD p 0) pkt.length).result = .ok packet' ∧
        packet'.value = packet.value := by
  intro packet
  have a : Label [97] := label_of_decide (by decide)
  have b : Label [98] := label_of_decide (by decide)
  have long : Label [97, 1, 98] := label_of_decide (by decide)
  have double : DomainName [97, 46, 98] :=
    ⟨[[97], [98]], forall_mem_cons.mpr ⟨a, forall_mem_singleton.mpr b⟩, rfl⟩
  have single : DomainName [97, 1, 98] := ⟨[[97, 1, 98]], forall_mem_singleton.mpr long, rfl⟩
  have valid : packet.Valid := questions_valid (by decide)
    (forall_mem_cons.mpr ⟨double, forall_mem_singleton.mpr single⟩)
  have ⟨pkt, printed⟩ := Option.isSome_iff_exists.mp
    (by decide : (printPacket packet maxPkt).isSome)
  refine ⟨valid, pkt, printed, ?_⟩
  rintro ⟨packet', parsed, value⟩
  have ⟨other, parsed', same⟩ := printPacket_spec valid printed (holds_getD [] pkt)
  obtain rfl := Except.ok.inj (parsed'.symm.trans parsed)
  have taken : readAs [[97, 46, 98]] [97, 1, 98] = [97, 1, 98] := (same.mp value).2.1
  exact absurd taken (by decide)

end Pj.Dns
