import Mathlib.Data.List.GetD
import Mathlib.Data.List.Nodup
import Mathlib.Tactic.Ring

/-!
# Entries with distinct keys

A list of entries, each with a key of its own, is a finite map. To put an entry anywhere into
the list, or to take one out of it, changes what is found under its key and nothing else.
-/

namespace Entries
open List

variable {α κ : Type*} {key : α → κ}

/-- No two entries have the same key. -/
def Distinct (key : α → κ) (entries : List α) : Prop := (entries.map key).Nodup

/-- An entry in the middle of a list has a key that no other entry has. -/
theorem distinct_middle {before after : List α} {entry : α} :
    Distinct key (before ++ entry :: after) ↔
      Distinct key (before ++ after) ∧ ∀ other ∈ before ++ after, key other ≠ key entry := by
  rw [Distinct, (perm_middle.map key).nodup_iff, map_cons, nodup_cons, and_comm,
    Distinct]
  simp only [mem_map, not_exists, not_and, ne_eq]

/-- Where a search stops: at an entry it was for, or at the end. -/
theorem findIdx_cases (found : α → Bool) (entries : List α) :
    (∃ before entry after, entries = before ++ entry :: after ∧ found entry = true ∧
        entries.findIdx found = before.length) ∨
      (∀ entry ∈ entries, found entry = false) ∧ entries.findIdx found = entries.length := by
  by_cases all : ∀ entry ∈ entries, found entry = false
  · exact .inr ⟨all, findIdx_eq_length_of_false all⟩
  · have bound : entries.findIdx found < entries.length :=
      findIdx_lt_length.mpr (by simpa using all)
    have parts := take_append_drop (entries.findIdx found) entries
    rw [drop_eq_getElem_cons bound] at parts
    refine .inl ⟨_, _, _, parts.symm, findIdx_getElem, ?_⟩
    rw [length_take, Nat.min_eq_left (Nat.le_of_lt bound)]

variable [DecidableEq κ]

/-- The entry of a key. -/
def lookup (key : α → κ) (entries : List α) (k : κ) : Option α :=
  entries.find? fun entry => key entry = k

/-- What is found is an entry with that key. -/
theorem mem_of_lookup {entries : List α} {entry : α} {k : κ}
    (h : lookup key entries k = some entry) : entry ∈ entries ∧ key entry = k :=
  ⟨mem_of_find?_eq_some h, by simpa using find?_some h⟩

/-- The entry of a key is found. -/
theorem lookup_eq_some {entries : List α} (distinct : Distinct key entries) {entry : α}
    (member : entry ∈ entries) : lookup key entries (key entry) = some entry := by
  cases found : lookup key entries (key entry) with
  | none =>
    have absent := find?_eq_none.mp found entry member
    simp at absent
  | some other =>
    have ⟨member', same⟩ := mem_of_lookup found
    rw [inj_on_of_nodup_map distinct member' member same]

/-- Nothing is found under a key that no entry has. -/
theorem lookup_eq_none_iff {entries : List α} {k : κ} :
    lookup key entries k = none ↔ ∀ entry ∈ entries, key entry ≠ k := by
  simp [lookup, find?_eq_none]

/-- An entry in the middle of the list is found under its key, and hides no other. -/
theorem lookup_middle {before after : List α} {entry : α}
    (distinct : Distinct key (before ++ entry :: after)) (k : κ) :
    lookup key (before ++ entry :: after) k =
      if k = key entry then some entry else lookup key (before ++ after) k := by
  by_cases same : k = key entry
  · rw [if_pos same, same]
    exact lookup_eq_some distinct (by simp)
  · have other : ¬key entry = k := fun eq => same eq.symm
    rw [if_neg same]
    simp [lookup, find?_append, other]

variable {table : List (List α)}

/-- A row is set, and no other one. -/
theorem getD_set {row : Nat} (h : row < table.length) (chain : List α) (other : Nat) :
    (table.set row chain).getD other [] = if row = other then chain else table.getD other [] := by
  rw [getD_eq_getElem?_getD, getElem?_set]
  split
  · next same => simp [← same, h]
  · rw [getD_eq_getElem?_getD]

/-- The entries around a row, whatever chain it gets. -/
theorem flatten_set {row : Nat} (h : row < table.length) :
    ∃ before after, table.flatten = before ++ table.getD row [] ++ after ∧
      ∀ chain, (table.set row chain).flatten = before ++ chain ++ after := by
  refine ⟨(table.take row).flatten, (table.drop (row + 1)).flatten, ?_, ?_⟩
  · have parts := take_append_drop row table
    rw [drop_eq_getElem_cons h] at parts
    have whole := congrArg List.flatten parts
    rw [flatten_append, flatten_cons] at whole
    rw [← whole, getD_eq_getElem _ _ h, append_assoc]
  · intro chain
    rw [set_eq_take_append_cons_drop, if_pos h, flatten_append, flatten_cons,
      append_assoc]

end Entries
