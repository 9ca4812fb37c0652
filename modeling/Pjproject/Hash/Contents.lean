import Pjproject.Hash.Table
import Pjproject.Lib.Entries

/-!
# Contents of a hash table

All entries of a table, row by row, are entries with distinct keys. Setting a value puts an entry
into this list, replaces one or takes one out, whatever other keys have the same row or the same
hash value.
-/

namespace Pj.Hash
open Option List

variable {ν : Type*}

/-- The hash value that is reported for a key. -/
def HashKey.hash (key : HashKey) : UInt32 := pjHashCalc 0 key.bytes

/-- No hash value, or the one reported for the key. -/
def HashKey.Reported (key : HashKey) (hval : UInt32) : Prop := hval = 0 ∨ hval = key.hash

/-- The length fits an `unsigned`. -/
def HashKey.Fits (key : HashKey) : Prop := key.bytes.length < 2 ^ 32

/-- The entries of all rows. -/
def HashTable.entries (ht : HashTable ν) : List (HashEntry ν) := ht.table.flatten

/-- Entries are in the row of their hash value, and their keys differ. -/
structure HashTable.Inv (ht : HashTable ν) : Prop where
  length : ht.table.length = ht.rows.toNat + 1
  placed : ∀ row, ∀ entry ∈ ht.chain row,
    entry.hash = pjHashCalc 0 entry.key ∧ entry.keylen = entry.key.length ∧
      ht.row entry.hash = row
  distinct : Entries.Distinct HashEntry.key ht.entries
  count : ht.count = UInt32.ofNat ht.entries.length

variable {ht : HashTable ν}

/-- The row of any hash value is one of the table. -/
theorem HashTable.Inv.row_lt (h : ht.Inv) (hash : UInt32) :
    ht.row hash < ht.table.length := by
  have masked : (hash &&& ht.rows).toNat ≤ ht.rows.toNat := by
    exact Nat.and_le_right
  rw [h.length, HashTable.row]
  omega

/-- The entries of a chain are in the table. -/
theorem HashTable.mem_entries {row : Nat} {entry : HashEntry ν} (member : entry ∈ ht.chain row) :
    entry ∈ ht.entries := by
  rw [HashTable.chain, getD_eq_getElem?_getD] at member
  cases inTable : ht.table[row]? with
  | none => simp [inTable] at member
  | some chain =>
    rw [inTable] at member
    exact mem_flatten.mpr ⟨chain, mem_of_getElem? inTable, member⟩

/-- An entry of the table is in the row of its key. -/
theorem HashTable.Inv.mem_chain (h : ht.Inv) {entry : HashEntry ν} (member : entry ∈ ht.entries) :
    entry ∈ ht.chain (ht.row (pjHashCalc 0 entry.key)) := by
  have ⟨chain, inTable, inChain⟩ := mem_flatten.mp member
  obtain ⟨row, bound, rfl⟩ := getElem_of_mem inTable
  have same : ht.chain row = ht.table[row] := getD_eq_getElem _ _ bound
  rw [← same] at inChain
  have ⟨hash, _, here⟩ := h.placed row entry inChain
  rw [← hash, here]
  exact inChain

/-! ## Search -/

variable {hval : UInt32}

/-- The search compares keys. -/
theorem HashTable.Inv.matches_iff (h : ht.Inv) {row : Nat} {entry : HashEntry ν}
    (member : entry ∈ ht.chain row) {key : HashKey} (fits : key.Fits) :
    entry.matches key.hash key.keylen key.bytes = true ↔ entry.key = key.bytes := by
  have ⟨hash, length, _⟩ := h.placed row entry member
  have keylen : key.keylen = key.bytes.length := Nat.mod_eq_of_lt fits
  rw [HashEntry.matches, keylen, take_length, hash, length]
  constructor
  · intro found
    simp only [Bool.and_eq_true, decide_eq_true_eq] at found
    exact found.2
  · intro same
    rw [same]
    simp [HashKey.hash]

/-- What the search finds: the entry of the key, or none. -/
theorem HashTable.Inv.search (h : ht.Inv) {key : HashKey} (fits : key.Fits) (row : Nat) :
    (∃ before entry after, ht.chain row = before ++ entry :: after ∧ entry.key = key.bytes ∧
        (ht.chain row).findIdx (·.matches key.hash key.keylen key.bytes) = before.length) ∨
      (∀ entry ∈ ht.chain row, entry.key ≠ key.bytes) ∧
        (ht.chain row).findIdx (·.matches key.hash key.keylen key.bytes) =
          (ht.chain row).length := by
  rcases Entries.findIdx_cases (·.matches key.hash key.keylen key.bytes) (ht.chain row) with
    ⟨before, entry, after, parts, found, pos⟩ | ⟨absent, pos⟩
  · have member : entry ∈ ht.chain row := by simp [parts]
    exact .inl ⟨before, entry, after, parts, (h.matches_iff member fits).mp found, pos⟩
  · refine .inr ⟨fun entry member same => ?_, pos⟩
    have found := (h.matches_iff member fits).mpr same
    rw [absent entry member] at found
    contradiction

/-- The hash value that the search uses and reports. -/
theorem HashKey.Reported.hash_eq {key : HashKey} (h : key.Reported hval) :
    (if hval ≠ 0 then hval else pjHashCalc 0 key.bytes) = key.hash := by
  split
  · next given => exact h.resolve_left given
  · rfl

/-- Without a value to set, the search changes nothing. -/
theorem findEntry_none (ht : HashTable ν) {key : HashKey} (reported : key.Reported hval) :
    findEntry ht key none hval =
      { ht := ht, hval := key.hash, row := ht.row key.hash
        pos := (ht.chain (ht.row key.hash)).findIdx
          (·.matches key.hash key.keylen key.bytes) } := by
  unfold findEntry
  dsimp only
  rw [reported.hash_eq]
  split
  · contradiction
  · rfl

/-- `pj_hash_get` finds the value of the key and reports its hash value. -/
theorem HashTable.Inv.pjHashGet_eq (h : ht.Inv) {key : HashKey} (fits : key.Fits)
    (reported : key.Reported hval) :
    pjHashGet ht key hval =
      ((Entries.lookup HashEntry.key ht.entries key.bytes).map (·.value), key.hash) := by
  rw [pjHashGet, findEntry_none ht reported, Found.entry]
  rcases h.search fits (ht.row key.hash) with ⟨before, entry, after, parts, same, pos⟩ |
    ⟨absent, pos⟩
  · have inTable : entry ∈ ht.entries := HashTable.mem_entries (by rw [parts]; simp)
    rw [pos, parts, ← same, Entries.lookup_eq_some h.distinct inTable]
    simp
  · have none : Entries.lookup HashEntry.key ht.entries key.bytes = none := by
      refine Entries.lookup_eq_none_iff.mpr fun entry member same => ?_
      have here := h.mem_chain member
      rw [same] at here
      exact absent entry here same
    rw [pos, none]
    simp

/-! ## Change -/

/-- The entry that is made for a key. -/
def HashKey.entry (key : HashKey) (value : ν) : HashEntry ν :=
  { key := key.bytes, hash := key.hash, keylen := key.bytes.length, value := value }

/-- What `hash_set` does to the entries `before ++ old ++ after`, of which `old` is that of the
key or none. -/
structure HashTable.Sets (ht ht' : HashTable ν) (key : HashKey) (value : Option ν) : Prop where
  inv : ht'.Inv
  changed : ∃ before after old, ht.entries = before ++ old ++ after ∧
    (∀ entry ∈ before ++ after, entry.key ≠ key.bytes) ∧
    (old = [] ∨ ∃ value, old = [key.entry value]) ∧
    ht'.entries = before ++ (value.map key.entry).toList ++ after

section
variable {key : HashKey} (h : ht.Inv)
include h

/-- An entry of the key in its row is the one that is made for it. -/
theorem HashTable.Inv.entry_eq {row : Nat} {entry : HashEntry ν} (member : entry ∈ ht.chain row)
    (same : entry.key = key.bytes) : entry = key.entry entry.value := by
  have ⟨hash, length, _⟩ := h.placed row entry member
  cases entry with
  | mk bytes hash' keylen value =>
    simp only at same hash length
    rw [HashKey.entry, HashKey.hash, hash, length, same]

variable {old : List (HashEntry ν)}

/-- No other entry of the table has the key. -/
theorem HashTable.Inv.others {before after : List (HashEntry ν)}
    (entries : ht.entries = before ++ old ++ after)
    (single : old = [] ∧ (∀ entry ∈ ht.chain (ht.row key.hash), entry.key ≠ key.bytes) ∨ ∃ value,
    old = [key.entry value]) :
    Entries.Distinct HashEntry.key (before ++ after) ∧
      ∀ entry ∈ before ++ after, entry.key ≠ key.bytes := by
  have distinct := h.distinct
  rw [entries] at distinct
  rcases single with ⟨rfl, absent⟩ | ⟨value, rfl⟩
  · rw [append_nil] at entries distinct
    refine ⟨distinct, fun entry member same => ?_⟩
    rw [← entries] at member
    have here := h.mem_chain member
    rw [same] at here
    exact absent entry here same
  · rw [append_assoc, singleton_append] at distinct
    exact Entries.distinct_middle.mp distinct

/-- A chain that is changed at the entry of a key only. -/
theorem HashTable.Inv.sets (value : Option ν) (count : UInt32) {before after : List (HashEntry ν)}
    (chain : ht.chain (ht.row key.hash) = before ++ old ++ after)
    (single : old = [] ∧ (∀ entry ∈ ht.chain (ht.row key.hash), entry.key ≠ key.bytes) ∨ ∃ value,
    old = [key.entry value])
    (counts : count + UInt32.ofNat old.length = ht.count + UInt32.ofNat
    (value.map key.entry).toList.length) :
    ht.Sets
      { ht with
        table := ht.table.set (ht.row key.hash)
          (before ++ (value.map key.entry).toList ++ after)
        count := count } key value := by
  have ⟨first, last, whole, replaced⟩ := Entries.flatten_set (h.row_lt key.hash)
  rw [← HashTable.chain, chain] at whole
  have entries : ht.entries = (first ++ before) ++ old ++ (after ++ last) := by
    rw [HashTable.entries, whole]
    simp
  have entries' : (ht.table.set (ht.row key.hash)
      (before ++ (value.map key.entry).toList ++ after)).flatten =
      (first ++ before) ++ (value.map key.entry).toList ++ (after ++ last) := by
    rw [replaced]
    simp
  have ⟨distinct, others⟩ := h.others entries single
  refine ⟨⟨?_, ?_, ?_, ?_⟩, first ++ before, after ++ last, old, entries, others, ?_, entries'⟩
  · rw [length_set]
    exact h.length
  · intro row entry member
    rw [HashTable.chain, Entries.getD_set (h.row_lt key.hash)] at member
    split at member
    · next here =>
      rcases mem_append.mp member with member | member
      · rcases mem_append.mp member with member | member
        · exact h.placed row entry (by rw [← here, chain]; simp [member])
        · obtain ⟨new, _, rfl⟩ := map_eq_some_iff.mp (mem_toList.mp member)
          exact ⟨rfl, rfl, here⟩
      · exact h.placed row entry (by rw [← here, chain]; simp [member])
    · exact h.placed row entry member
  · rw [HashTable.entries, entries']
    cases value with
    | none => simpa using distinct
    | some new =>
      simp only [map_some, toList_some, append_assoc, singleton_append]
      rw [← append_assoc]
      exact Entries.distinct_middle.mpr ⟨distinct, others⟩
  · rw [HashTable.entries, entries']
    have counted := h.count
    rw [entries, length_append, length_append] at counted
    rw [counted] at counts
    rw [length_append, length_append]
    simp only [UInt32.ofNat_add] at counts ⊢
    have same : count + UInt32.ofNat old.length =
        UInt32.ofNat (first ++ before).length +
          UInt32.ofNat (value.map key.entry).toList.length +
          UInt32.ofNat (after ++ last).length + UInt32.ofNat old.length := by
      rw [counts]
      ac_rfl
    exact (UInt32.add_left_inj _).mp same
  · exact single.imp And.left id

/-- Setting a value changes the entry of the key only. -/
theorem HashTable.Inv.pjHashSet_sets (fits : key.Fits) (reported : key.Reported hval)
    (value : Option ν) : ht.Sets (pjHashSet ht key hval value) key value := by
  have keylen : key.keylen = key.bytes.length := Nat.mod_eq_of_lt fits
  rcases h.search fits (ht.row key.hash) with ⟨before, entry, after, parts, same, pos⟩ |
    ⟨absent, pos⟩
  · have old := h.entry_eq (by rw [parts]; simp) same
    have found : findEntry ht key value hval =
        { ht := ht, hval := key.hash, row := ht.row key.hash, pos := before.length } := by
      unfold findEntry
      dsimp only
      rw [reported.hash_eq, pos]
      simp [parts]
    have single : ∃ value, [entry] = [key.entry value] := ⟨entry.value, by rw [← old]⟩
    have chain : ht.chain (ht.row key.hash) = before ++ [entry] ++ after := by simp [parts]
    have update : ∀ new : ν, { entry with value := new } = key.entry new := fun new => by
      rw [old]
      rfl
    rw [pjHashSet, found]
    simp only [Found.entry, parts]
    cases value with
    | none =>
      have sets := h.sets none (ht.count - 1) chain (.inr single) (by simp)
      have erased : (before ++ entry :: after).eraseIdx before.length = before ++ after := by
        rw [eraseIdx_append_of_length_le (Nat.le_refl _), Nat.sub_self,
          eraseIdx_cons_zero]
      simpa [erased] using sets
    | some new =>
      have sets := h.sets (some new) ht.count chain (.inr single) rfl
      simpa [update] using sets
  · cases value with
    | none =>
      have unchanged : pjHashSet ht key hval none = ht := by
        rw [pjHashSet, findEntry_none ht reported]
        simp [Found.entry, pos]
      have entries : ht.entries = ht.entries ++ [] ++ [] := by simp
      have ⟨_, others⟩ := h.others entries (.inl ⟨rfl, absent⟩)
      rw [unchanged]
      exact ⟨h, ht.entries, [], [], entries, others, .inl rfl, entries⟩
    | some new =>
      have chain : ht.chain (ht.row key.hash) = ht.chain (ht.row key.hash) ++ [] ++ [] := by simp
      have sets := h.sets (some new) (ht.count + 1) chain (.inl ⟨rfl, absent⟩) (by simp)
      have created : findEntry ht key (some new) hval =
          { ht :=
              { ht with
                table := ht.table.set (ht.row key.hash)
                  (ht.chain (ht.row key.hash) ++ [key.entry new])
                count := ht.count + 1 }
            hval := key.hash, row := ht.row key.hash
            pos := (ht.chain (ht.row key.hash)).length } := by
        unfold findEntry
        dsimp only
        rw [reported.hash_eq, pos, getElem?_eq_none (Nat.le_refl _), keylen,
          take_length]
        rfl
      rw [pjHashSet, created]
      have here : HashTable.chain
          { ht with
            table := ht.table.set (ht.row key.hash)
              (ht.chain (ht.row key.hash) ++ [key.entry new])
            count := ht.count + 1 } (ht.row key.hash) =
          ht.chain (ht.row key.hash) ++ [key.entry new] := by
        rw [HashTable.chain, Entries.getD_set (h.row_lt key.hash), if_pos rfl]
      simp only [Found.entry, here, getElem?_concat_length, set_set]
      have again : (ht.chain (ht.row key.hash) ++ [key.entry new]).set
          (ht.chain (ht.row key.hash)).length { key.entry new with value := new } =
          ht.chain (ht.row key.hash) ++ [key.entry new] := by
        rw [set_append_right _ _ (Nat.le_refl _), Nat.sub_self]
        rfl
      rw [again]
      simpa using sets

end

end Pj.Hash
