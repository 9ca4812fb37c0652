import Mathlib.Tactic.Ring
import Pjproject.Hash.Contents

/-!
# The hash table is a finite map

After any sequence of settings the table holds the map that has, for every key, the value that was
set last. An iteration visits each key of the map once. The limits are those of an `unsigned`:
the length of a key is kept modulo `2 ^ 32`, and so is the count.
-/

namespace Pj.Hash
open Function List

variable {ν : Type*}

/-- The arguments of `pj_hash_set`. The hash value is none or one that was reported. -/
structure HashOp (ν : Type*) where
  key : HashKey
  hval : UInt32
  reported : key.Reported hval
  value : Option ν

/-- A setting in the table. -/
def HashTable.step (ht : HashTable ν) (op : HashOp ν) : HashTable ν :=
  pjHashSet ht op.key op.hval op.value

/-- A setting in the map. -/
def mapStep (map : Str → Option ν) (op : HashOp ν) : Str → Option ν :=
  update map op.key.bytes op.value

/-- The map that a table holds. -/
def HashTable.value (ht : HashTable ν) (bytes : Str) : Option ν :=
  (Entries.lookup HashEntry.key ht.entries bytes).map (·.value)

/-! ## Creation -/

theorem shiftLeft_two_pow {exponent : Nat} (h : exponent < 31) :
    UInt32.ofNat (2 ^ exponent) <<< 1 = UInt32.ofNat (2 ^ (exponent + 1)) := by
  have each : ∀ exponent : Fin 31,
      UInt32.ofNat (2 ^ exponent.val) <<< 1 = UInt32.ofNat (2 ^ (exponent.val + 1)) := by decide
  exact each ⟨exponent, h⟩

/-- The size of the table is a power of two that is not less than a size below `2 ^ 31`. -/
theorem tableSizeFrom_eq {size : UInt32} (small : size.toNat < 2 ^ 31) {fuel exponent : Nat}
    (enough : exponent + fuel = 35) (bound : exponent < 31) :
    ∃ result, exponent < result ∧ result ≤ 31 ∧ size.toNat ≤ 2 ^ result ∧
      tableSizeFrom size fuel (UInt32.ofNat (2 ^ exponent)) =
        some (UInt32.ofNat (2 ^ result)) := by
  induction fuel generalizing exponent with
  | zero => omega
  | succ fuel ih =>
    have value : (UInt32.ofNat (2 ^ (exponent + 1))).toNat = 2 ^ (exponent + 1) := by
      have fits : 2 ^ (exponent + 1) < 2 ^ 32 := Nat.pow_lt_pow_right (by omega) (by omega)
      exact Nat.mod_eq_of_lt fits
    rw [tableSizeFrom, shiftLeft_two_pow bound]
    split
    · next smaller =>
      have less := UInt32.lt_iff_toNat_lt.mp smaller
      have next : exponent + 1 < 31 := by
        rw [value] at less
        exact (Nat.pow_lt_pow_iff_right (by omega)).mp (Nat.lt_trans less small)
      have ⟨result, lower, rest⟩ := ih (by omega) next
      exact ⟨result, by omega, rest⟩
    · next reached =>
      have large := Nat.le_of_not_lt fun less => reached (UInt32.lt_iff_toNat_lt.mpr less)
      rw [value] at large
      exact ⟨exponent + 1, by omega, by omega, large, rfl⟩

/-- A table is created without entries. -/
theorem pjHashCreate_inv (ν : Type*) {size : UInt32} (small : size.toNat < 2 ^ 31) :
    ∃ ht, pjHashCreate ν size = some ht ∧ ht.Inv ∧ ht.value = fun _ => none := by
  have ⟨result, lower, upper, _, created⟩ :=
    tableSizeFrom_eq small (rfl : 3 + 32 = 35) (by omega)
  have eight : UInt32.ofNat (2 ^ 3) = 8 := rfl
  rw [eight] at created
  have value : (UInt32.ofNat (2 ^ result)).toNat = 2 ^ result := by
    have fits : 2 ^ result < 2 ^ 32 := Nat.pow_lt_pow_right (by omega) (by omega)
    exact Nat.mod_eq_of_lt fits
  have positive : 0 < 2 ^ result := Nat.two_pow_pos result
  have rows : (UInt32.ofNat (2 ^ result) - 1).toNat = 2 ^ result - 1 := by
    rw [UInt32.toNat_sub_of_le _ _
      (UInt32.le_iff_toNat_le.mpr (by rw [value]; exact positive)), value]
    rfl
  have size_eq : (UInt32.ofNat (2 ^ result) - 1 + 1).toNat = 2 ^ result := by
    rw [UInt32.sub_add_cancel, value]
  have empty : (List.replicate (UInt32.ofNat (2 ^ result) - 1 + 1).toNat
      ([] : List (HashEntry ν))).flatten = [] := by simp
  refine ⟨{ table := List.replicate (UInt32.ofNat (2 ^ result) - 1 + 1).toNat [], count := 0
            rows := UInt32.ofNat (2 ^ result) - 1 },
    by rw [pjHashCreate, created]; rfl, ⟨?_, ?_, ?_, ?_⟩, ?_⟩
  · rw [length_replicate, size_eq, rows]
    omega
  · intro row entry member
    have inTable := HashTable.mem_entries member
    rw [HashTable.entries, empty] at inTable
    contradiction
  · rw [HashTable.entries, empty]
    exact nodup_nil
  · rw [HashTable.entries, empty]
    rfl
  · funext bytes
    rw [HashTable.value, HashTable.entries, empty]
    rfl

/-! ## Settings -/

variable {ht : HashTable ν}

/-- An entry or none between others that do not have its key. -/
theorem value_middle {before after middle : List (HashEntry ν)} {key : HashKey}
    (distinct : Entries.Distinct HashEntry.key (before ++ middle ++ after))
    (single : middle = [] ∨ ∃ value, middle = [key.entry value]) {bytes : Str}
    (other : bytes ≠ key.bytes) :
    Entries.lookup HashEntry.key (before ++ middle ++ after) bytes =
      Entries.lookup HashEntry.key (before ++ after) bytes := by
  rcases single with rfl | ⟨value, rfl⟩
  · rw [append_nil]
  · rw [append_assoc, singleton_append] at distinct ⊢
    rw [Entries.lookup_middle distinct, if_neg]
    exact other

/-- The table holds the changed map. -/
theorem HashTable.Sets.value_eq {ht' : HashTable ν} (h : ht.Inv) {key : HashKey}
    {value : Option ν} (sets : ht.Sets ht' key value) :
    ht'.value = update ht.value key.bytes value := by
  have ⟨before, after, old, entries, others, single, entries'⟩ := sets.changed
  have distinct := h.distinct
  have distinct' := sets.inv.distinct
  rw [entries] at distinct
  rw [entries'] at distinct'
  have single' : (value.map key.entry).toList = [] ∨
      ∃ new, (value.map key.entry).toList = [key.entry new] := by
    cases value with
    | none => exact .inl rfl
    | some new => exact .inr ⟨new, rfl⟩
  funext bytes
  by_cases same : bytes = key.bytes
  · rw [same, update_self, HashTable.value, entries']
    cases value with
    | none =>
      have absent : Entries.lookup HashEntry.key (before ++ [] ++ after) key.bytes = none := by
        rw [append_nil]
        exact Entries.lookup_eq_none_iff.mpr others
      exact congrArg _ absent
    | some new =>
      have found := Entries.lookup_eq_some distinct'
        (show key.entry new ∈ before ++ [key.entry new] ++ after by simp)
      exact congrArg (Option.map HashEntry.value) found
  · rw [update_of_ne same, HashTable.value, HashTable.value, entries, entries',
      value_middle distinct single same, value_middle distinct' single' same]

/-- A run of settings keeps the invariant, and the table holds the map that they make. -/
theorem run_refines (h : ht.Inv) {ops : List (HashOp ν)} (fits : ∀ op ∈ ops, op.key.Fits) :
    (ops.foldl HashTable.step ht).Inv ∧
      (ops.foldl HashTable.step ht).value = ops.foldl mapStep ht.value := by
  induction ops generalizing ht with
  | nil => exact ⟨h, rfl⟩
  | cons op rest ih =>
    have sets := h.pjHashSet_sets (fits op mem_cons_self) op.reported op.value
    have ⟨inv, value⟩ := ih sets.inv fun op member => fits op (mem_cons_of_mem _ member)
    refine ⟨inv, value.trans ?_⟩
    rw [foldl_cons, mapStep, ← sets.value_eq h]

/-! ## Iteration -/

/-- An iteration visits the rest of a chain, and then the rows behind it. -/
theorem visits_chain {index : Nat} {rest : List (HashEntry ν)}
    (later : Visits ht
      (firstFrom (index + 1) ((ht.table.take (ht.rows.toNat + 1)).drop (index + 1))) rest)
    (entry : HashEntry ν) (next : List (HashEntry ν)) :
    Visits ht (some { index := index, entry := entry, next := next })
      (entry :: (next ++ rest)) := by
  induction next generalizing entry with
  | nil => exact .entry later
  | cons other next ih => exact .entry (ih other)

/-- An iteration that has come to some rows visits their entries. -/
theorem visits_rows {index : Nat} {rows : List (List (HashEntry ν))}
    (here : rows = (ht.table.take (ht.rows.toNat + 1)).drop index) :
    Visits ht (firstFrom index rows) rows.flatten := by
  induction rows generalizing index with
  | nil => exact .done
  | cons chain rows ih =>
    have later : rows = (ht.table.take (ht.rows.toNat + 1)).drop (index + 1) := by
      rw [← tail_drop, ← here]
      rfl
    cases chain with
    | nil => exact ih later
    | cons entry next => exact visits_chain (later ▸ ih later) entry next

/-- An iteration visits all entries. -/
theorem HashTable.Inv.visits (h : ht.Inv) :
    Visits ht (pjHashFirst ht) ht.entries := by
  have whole : ht.table.take (ht.rows.toNat + 1) = ht.table := by
    rw [← h.length, take_length]
  have visits : Visits ht (firstFrom 0 (ht.table.take (ht.rows.toNat + 1)))
      (ht.table.take (ht.rows.toNat + 1)).flatten := visits_rows drop_zero.symm
  rw [whole] at visits
  rw [pjHashFirst, HashTable.entries, whole]
  exact visits

/-- A key is in the table if the map has a value for it. -/
theorem HashTable.mem_keys {bytes : Str} :
    bytes ∈ ht.entries.map HashEntry.key ↔ ht.value bytes ≠ none := by
  rw [HashTable.value, ne_eq, Option.map_eq_none_iff, Entries.lookup_eq_none_iff]
  simp

variable {count : Nat}

/-- The hash value of a key of equal bytes of value 1. -/
theorem pjHashCalc_ones (count : Nat) :
    ∃ value, pjHashCalc 0 (List.replicate count 1) = UInt32.ofNat value ∧
      32 * value + 1 = 33 ^ count := by
  induction count with
  | zero => exact ⟨0, rfl, rfl⟩
  | succ count ih =>
    have ⟨value, hash, power⟩ := ih
    refine ⟨value * 33 + 1, ?_, by rw [Nat.pow_succ, ← power]; ring⟩
    have last : pjHashCalc 0 (List.replicate count 1 ++ [1]) =
        pjHashCalc (pjHashCalc 0 (List.replicate count 1)) [1] := foldl_append
    rw [replicate_succ', last, hash]
    simp [pjHashCalc, hashMultiplier]

/-- Squaring doubles the power of two that divides the difference to 1. -/
theorem pow_two_pow_sub_one (exponent : Nat) :
    ∃ factor, 33 ^ 2 ^ exponent = 2 ^ (exponent + 5) * factor + 1 := by
  induction exponent with
  | zero => exact ⟨1, rfl⟩
  | succ exponent ih =>
    have ⟨factor, power⟩ := ih
    refine ⟨factor * (2 ^ (exponent + 4) * factor + 1), ?_⟩
    rw [Nat.pow_succ 2 exponent, Nat.pow_mul, power]
    ring

/-- So the hash value of a power of two of them ends in that many zero bits. -/
theorem pjHashCalc_ones_dvd (exponent : Nat) :
    ∃ factor, pjHashCalc 0 (List.replicate (2 ^ exponent) 1) =
      UInt32.ofNat (2 ^ exponent * factor) := by
  have ⟨value, hash, power⟩ := pjHashCalc_ones (2 ^ exponent)
  have ⟨factor, multiple⟩ := pow_two_pow_sub_one exponent
  rw [multiple, Nat.pow_add, Nat.mul_right_comm] at power
  have divided : value = 2 ^ exponent * factor := by omega
  exact ⟨factor, by rw [hash, divided]⟩

/-- The string of that many bytes of value 1. -/
def onesKey (count : Nat) : HashKey :=
  .string (List.replicate count 1) fun member => absurd (eq_of_mem_replicate member) (by decide)

/-- The string of `2 ^ 32` bytes of value 1 has the hash value of the empty one. -/
theorem onesKey_hash (h : count = 2 ^ 32) :
    (onesKey count).hash = pjHashCalc 0 [] := by
  have ⟨factor, hash⟩ := pjHashCalc_ones_dvd 32
  rw [← h] at hash
  rw [HashKey.hash, onesKey, HashKey.bytes, hash, h]
  apply UInt32.toNat_inj.mp
  exact Nat.mul_mod_right _ _

/-- It also has the length of the empty one. -/
theorem onesKey_keylen (h : count = 2 ^ 32) : (onesKey count).keylen = 0 := by
  rw [HashKey.keylen, onesKey, HashKey.bytes, length_replicate, h, Nat.mod_self]

/-- A key of four bytes for each number. -/
def numberKey (number : Nat) : HashKey :=
  .sized [UInt8.ofNat number, UInt8.ofNat (number / 2 ^ 8), UInt8.ofNat (number / 2 ^ 16),
    UInt8.ofNat (number / 2 ^ 24)] (by simp)

theorem numberKey_inj {left right : Nat} (h : left < 2 ^ 32) (h' : right < 2 ^ 32)
    (same : (numberKey left).bytes = (numberKey right).bytes) : left = right := by
  simp only [numberKey, HashKey.bytes, List.cons.injEq, and_true] at same
  have ⟨first, second, third, fourth⟩ := same
  have low : ∀ left right : Nat, UInt8.ofNat left = UInt8.ofNat right →
      left % 2 ^ 8 = right % 2 ^ 8 := fun _ _ same => congrArg UInt8.toNat same
  have first := low _ _ first
  have second := low _ _ second
  have third := low _ _ third
  have fourth := low _ _ fourth
  omega

/-- The settings of the keys of the first numbers. -/
def numberOps (count : Nat) : List (HashOp Unit) :=
  (List.range count).map fun number =>
    { key := numberKey number, hval := 0, reported := .inl rfl, value := some () }

theorem numberOps_fits (count : Nat) : ∀ op ∈ numberOps count, op.key.Fits := by
  intro op member
  obtain ⟨number, _, rfl⟩ := mem_map.mp member
  simp [HashKey.Fits, numberKey, HashKey.bytes]

/-- The keys of these settings are in the map. -/
theorem numberOps_map {bytes : Str} :
    (numberOps count).foldl mapStep (fun _ => none) bytes ≠ none ↔
      bytes ∈ (List.range count).map fun number => (numberKey number).bytes := by
  induction count with
  | zero => simp [numberOps]
  | succ count ih =>
    have last : numberOps (count + 1) = numberOps count ++
        [{ key := numberKey count, hval := 0, reported := .inl rfl, value := some () }] := by
      rw [numberOps, range_succ, map_append]
      rfl
    rw [last, foldl_concat, mapStep, range_succ, map_append, mem_append, ← ih]
    by_cases same : bytes = (numberKey count).bytes
    · simp [same]
    · simp [same]

section
variable {created : HashTable Unit} (h : created.Inv) (empty : created.value = fun _ => none)
include h empty

/-- So the count is their number, as an `unsigned`. -/
theorem numberOps_count (bound : count ≤ 2 ^ 32) :
    pjHashCount ((numberOps count).foldl HashTable.step created) = UInt32.ofNat count := by
  have ⟨inv, value⟩ := run_refines h (numberOps_fits count)
  have numbers : ((List.range count).map fun number => (numberKey number).bytes).Nodup := by
    refine List.Nodup.map_on (fun left below right below' same => ?_) nodup_range
    rw [mem_range] at below below'
    exact numberKey_inj (by omega) (by omega) same
  have keys : (((numberOps count).foldl HashTable.step created).entries.map HashEntry.key).Perm
      ((List.range count).map fun number => (numberKey number).bytes) := by
    refine (perm_ext_iff_of_nodup inv.distinct numbers).mpr fun bytes => ?_
    rw [HashTable.mem_keys, value, empty, numberOps_map]
  have length := keys.length_eq
  rw [length_map, length_map, length_range] at length
  rw [pjHashCount, inv.count, length]

/-- Each of them is found. -/
theorem numberOps_get {number : Nat} (bound : number < count) :
    (pjHashGet ((numberOps count).foldl HashTable.step created) (numberKey number) 0).1 =
      some () := by
  have ⟨inv, value⟩ := run_refines h (numberOps_fits count)
  have present : (numberKey number).bytes ∈
      (List.range count).map fun number => (numberKey number).bytes :=
    mem_map.mpr ⟨number, mem_range.mpr bound, rfl⟩
  rw [← numberOps_map, ← empty, ← value, Option.ne_none_iff_exists'] at present
  have ⟨_, present⟩ := present
  rw [inv.pjHashGet_eq (by simp [HashKey.Fits, numberKey, HashKey.bytes]) (.inl rfl)]
  exact present

end

/-- Keys that agree in what the search compares are found alike. -/
theorem pjHashGet_congr (ht : HashTable ν) (left right : HashKey) (hash : left.hash = right.hash)
    (keylen : left.keylen = right.keylen)
    (front : left.bytes.take left.keylen = right.bytes.take right.keylen) :
    pjHashGet ht left 0 = pjHashGet ht right 0 := by
  have search : (fun entry : HashEntry ν => entry.matches left.hash left.keylen left.bytes) =
      fun entry => entry.matches right.hash right.keylen right.bytes := by
    funext entry
    rw [HashEntry.matches, HashEntry.matches, front, hash, keylen]
  rw [pjHashGet, pjHashGet, findEntry_none ht (.inl rfl), findEntry_none ht (.inl rfl), search,
    hash]

end Pj.Hash
