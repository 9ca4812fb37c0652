import Mathlib.Data.List.Perm.Basic
import Mathlib.Tactic.Ring

/-!
# Selection sort

A list is sorted in descending order of a key by swapping slots, while pointers into the list are
renamed with each swap. The sorted list is a permutation of the list, a renamed pointer points to
the entry it pointed to, and the keys descend.
-/

namespace SelectionSort
open List

variable {α : Type*} (key : α → ℕ) (none : α)

/-- The slot of the first highest key from a slot on. -/
def highest (entries : List α) (i : ℕ) : ℕ :=
  (List.range' (i + 1) (entries.length - (i + 1))).foldl
    (fun best j => if key (entries.getD best none) < key (entries.getD j none) then j else best) i

/-- The entries of two slots are swapped. -/
def swap (entries : List α) (i j : ℕ) : List α :=
  (entries.set i (entries.getD j none)).set j (entries.getD i none)

/-- Where a pointer goes when two slots are swapped. -/
def swapSlot (i j slot : ℕ) : ℕ :=
  if slot = j then i else if slot = i then j else slot

/-- A number of slots from one on are sorted; with the entries goes where each slot went. -/
def sortFrom (entries : List α) (moved : ℕ → ℕ) (i : ℕ) : ℕ → List α × (ℕ → ℕ)
  | 0 => (entries, moved)
  | count + 1 =>
    let j := highest key none entries i
    sortFrom (swap none entries i j) (swapSlot i j ∘ moved) (i + 1) count

/-- The sorted list. -/
def sort (entries : List α) : List α × (ℕ → ℕ) :=
  sortFrom key none entries id 0 (entries.length - 1)

variable {key none} {entries : List α} {i j : ℕ}

theorem getD_of_lt (inside : i < entries.length) : entries.getD i none = entries[i] := by
  rw [getD_eq_getElem?_getD, getElem?_eq_getElem inside, Option.getD_some]

/-- The loop over some slots finds one of them, or the one it starts with. -/
theorem foldl_highest (key : α → ℕ) (none : α) (entries : List α) (slots : List ℕ) (best : ℕ) :
    let found := slots.foldl
      (fun best j => if key (entries.getD best none) < key (entries.getD j none) then j else best) best
    (found = best ∨ found ∈ slots) ∧
      ∀ j, j = best ∨ j ∈ slots → key (entries.getD j none) ≤ key (entries.getD found none) := by
  induction slots generalizing best with
  | nil =>
    refine ⟨.inl rfl, fun j member => ?_⟩
    rw [member.resolve_right not_mem_nil]
    exact Nat.le_refl _
  | cons slot rest ih =>
    rw [foldl_cons]
    by_cases higher : key (entries.getD best none) < key (entries.getD slot none)
    · simp only [if_pos higher]
      have later := ih slot
      refine ⟨.inr (mem_cons.mpr later.1), fun j member => ?_⟩
      rcases member with rfl | member
      · exact Nat.le_trans (Nat.le_of_lt higher) (later.2 slot (.inl rfl))
      · exact later.2 j (mem_cons.mp member)
    · simp only [if_neg higher]
      have later := ih best
      refine ⟨later.1.imp_right (mem_cons_of_mem slot), fun j member => ?_⟩
      rcases member with rfl | member
      · exact later.2 j (.inl rfl)
      · rcases mem_cons.mp member with rfl | member
        · exact Nat.le_trans (Nat.le_of_not_lt higher) (later.2 best (.inl rfl))
        · exact later.2 j (.inr member)

theorem highest_spec (key : α → ℕ) (none : α) (inside : i < entries.length) :
    i ≤ highest key none entries i ∧ highest key none entries i < entries.length ∧
      ∀ j, i ≤ j → j < entries.length →
        key (entries.getD j none) ≤ key (entries.getD (highest key none entries i) none) := by
  have found := foldl_highest key none entries (List.range' (i + 1) (entries.length - (i + 1))) i
  have between : ∀ j, j ∈ List.range' (i + 1) (entries.length - (i + 1)) ↔
      i + 1 ≤ j ∧ j < entries.length := by
    intro j
    rw [mem_range'_1]
    omega
  refine ⟨?_, ?_, fun j low high => ?_⟩
  · rcases found.1 with here | later
    · exact Nat.le_of_eq here.symm
    · exact Nat.le_of_succ_le ((between _).mp later).1
  · rcases found.1 with here | later
    · exact Nat.lt_of_le_of_lt (Nat.le_of_eq here) inside
    · exact ((between _).mp later).2
  · apply found.2 j
    rcases Nat.eq_or_lt_of_le low with here | later
    · exact .inl here.symm
    · exact .inr ((between j).mpr ⟨later, high⟩)

@[simp]
theorem length_swap : (swap none entries i j).length = entries.length := by
  rw [swap, length_set, length_set]

section
variable (hi : i < entries.length) (hj : j < entries.length)
include hi hj

theorem swap_perm : (swap none entries i j).Perm entries := by
  rw [swap, getD_of_lt hi, getD_of_lt hj]
  exact set_set_perm hi hj

/-- A swapped slot has what the other had. -/
theorem getD_swap (slot : ℕ) :
    (swap none entries i j).getD slot none =
      entries.getD (if slot = j then i else if slot = i then j else slot) none := by
  simp only [swap, getD_eq_getElem?_getD, getElem?_set, length_set]
  by_cases first : j = slot
  · subst first
    simp [hj, hi]
  · by_cases second : i = slot
    · subst second
      simp [first, Ne.symm first, hi, hj]
    · simp [first, second, Ne.symm first, Ne.symm second]

/-- A pointer follows its entry. -/
theorem swap_swapSlot {slot : ℕ} {entry : α} (held : entries[slot]? = some entry) :
    (swap none entries i j)[swapSlot i j slot]? = some entry := by
  simp only [swap, swapSlot, getElem?_set, length_set, getD_eq_getElem?_getD]
  by_cases first : slot = j
  · subst first
    have entry_eq : entries[slot] = entry := by
      rwa [getElem?_eq_getElem hj, Option.some.injEq] at held
    by_cases same : slot = i
    · subst same
      simp [hi, entry_eq]
    · simp [hi, hj, entry_eq, same]
  · by_cases second : slot = i
    · subst second
      simp [first, hj, held]
    · simp [first, second, Ne.symm first, Ne.symm second, held]

end

/-- What sorting leaves: the entries, where the pointers say. -/
structure Tracks (entries : List α) (sorted : List α × (ℕ → ℕ)) : Prop where
  perm : sorted.1.Perm entries
  slot : ∀ slot entry, entries[slot]? = some entry → sorted.1[sorted.2 slot]? = some entry

theorem tracks_sortFrom {start : List α} {moved : ℕ → ℕ} {count : ℕ}
    (tracks : Tracks start (entries, moved)) (inside : i + count ≤ entries.length) :
    Tracks start (sortFrom key none entries moved i count) := by
  induction count generalizing entries moved i with
  | zero => exact tracks
  | succ count ih =>
    have here : i < entries.length := by omega
    have found := highest_spec key none here
    apply ih
    · exact
        { perm := (swap_perm here found.2.1).trans tracks.perm
          slot := fun slot entry held =>
            swap_swapSlot here found.2.1 (tracks.slot slot entry held) }
    · rw [length_swap]
      omega

theorem tracks_sort (key : α → ℕ) (none : α) (entries : List α) :
    Tracks entries (sort key none entries) := by
  apply tracks_sortFrom
  · exact ⟨List.Perm.refl entries, fun slot entry held => held⟩
  · omega

/-- The slots before one have keys that descend and that no later slot exceeds. -/
def Descends (key : α → ℕ) (none : α) (entries : List α) (i : ℕ) : Prop :=
  ∀ a b, a < i → a < b → b < entries.length →
    key (entries.getD b none) ≤ key (entries.getD a none)

theorem descends_swap (inside : i < entries.length) (descends : Descends key none entries i) :
    Descends key none (swap none entries i (highest key none entries i)) (i + 1) := by
  have found := highest_spec key none inside
  generalize highest key none entries i = j at found
  intro a b low ordered high
  rw [length_swap] at high
  rw [getD_swap inside found.2.1, getD_swap inside found.2.1]
  -- Where the entry of slot `b` was, it was not before slot `i`.
  rcases Nat.lt_succ_iff_lt_or_eq.mp low with before | rfl
  · have stays : (if a = j then i else if a = i then j else a) = a := by
      rw [if_neg (Nat.ne_of_lt (Nat.lt_of_lt_of_le before found.1)), if_neg (Nat.ne_of_lt before)]
    rw [stays]
    apply descends a _ before
    · split_ifs <;> omega
    · split_ifs <;> omega
  · have top : (if a = j then a else if a = a then j else a) = j := by
      by_cases same : a = j
      · rw [if_pos same]
        exact same
      · rw [if_neg same, if_pos rfl]
    rw [top]
    apply found.2.2
    · split_ifs <;> omega
    · split_ifs <;> omega

theorem descends_sortFrom {moved : ℕ → ℕ} {count : ℕ} (inside : i + count ≤ entries.length)
    (descends : Descends key none entries i) :
    Descends key none (sortFrom key none entries moved i count).1 (i + count) := by
  induction count generalizing entries moved i with
  | zero => exact descends
  | succ count ih =>
    have inside' : i + 1 + count ≤ (swap none entries i (highest key none entries i)).length := by
      rw [length_swap]
      omega
    rw [show i + (count + 1) = i + 1 + count by omega]
    exact ih inside' (descends_swap (by omega) descends)

/-- The keys of the sorted list descend. -/
theorem sort_pairwise : (sort key none entries).1.Pairwise fun upper lower => key lower ≤ key upper := by
  have descends : Descends key none (sort key none entries).1 (0 + (entries.length - 1)) :=
    descends_sortFrom (by omega) fun a b low => absurd low (Nat.not_lt_zero a)
  have length := (tracks_sort key none entries).perm.length_eq
  rw [pairwise_iff_getElem]
  intro a b ha hb ordered
  have keys := descends a b (by omega) ordered hb
  rwa [getD_of_lt ha, getD_of_lt hb] at keys

end SelectionSort
