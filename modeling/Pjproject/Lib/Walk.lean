import Mathlib.Data.List.Basic
import Mathlib.Tactic.Ring

/-!
# Walks along a list that changes

A walk along a list keeps a cursor: the key of the element to go on with, or nothing at the end of
the list. Elements may be put at the end of the list and taken out of it meanwhile, if a cursor at
an element that is taken out moves to the one behind it. What is ahead of the walk changes with the
list. A walk that stops at the elements it wants comes to each of them once, unless it is taken out.
-/

namespace Walk
open List

variable {α κ : Type*} [DecidableEq κ] (key : α → κ)

/-- The elements from a cursor on. -/
def ahead (entries : List α) : Option κ → List α
  | none => []
  | some at' => entries.dropWhile fun entry => key entry ≠ at'

/-- The cursor at the first of some elements. -/
def cursor (rest : List α) : Option κ := rest.head?.map key

/-- The cursor behind an element. -/
def behind (entries : List α) (at' : κ) : Option κ := cursor key (ahead key entries (some at')).tail

/-- The elements without one. -/
def erase (entries : List α) (out : κ) : List α := entries.filter fun entry => key entry ≠ out

/-- A cursor makes room for an element that is taken out. -/
def step (entries : List α) (out : κ) (at' : Option κ) : Option κ :=
  if at' = some out then behind key entries out else at'

variable {key} {entries rest : List α} {at' : Option κ} {out : κ}

/-- What is dropped before a suffix that starts with an element. -/
theorem dropWhile_suffix {front : List α} {first : α} (nodup : ((front ++ first :: rest).map key).Nodup) :
    (front ++ first :: rest).dropWhile (fun entry => key entry ≠ key first) = first :: rest := by
  induction front with
  | nil => simp
  | cons entry front ih =>
    rw [cons_append, map_cons, nodup_cons] at nodup
    have apart : key entry ≠ key first := by
      intro same
      apply nodup.1
      rw [same, map_append, map_cons]
      exact mem_append_right _ mem_cons_self
    rw [cons_append, dropWhile_cons_of_pos (by simpa using apart)]
    exact ih nodup.2

/-- The cursor at a suffix has the suffix ahead. -/
theorem ahead_cursor (nodup : (entries.map key).Nodup) (suffix : rest <:+ entries) :
    ahead key entries (cursor key rest) = rest := by
  cases rest with
  | nil => rfl
  | cons first rest =>
    obtain ⟨front, rfl⟩ := suffix
    exact dropWhile_suffix nodup

theorem suffix_erase (suffix : rest <:+ entries) : erase key rest out <:+ erase key entries out := by
  obtain ⟨front, rfl⟩ := suffix
  rw [erase, erase, filter_append]
  exact suffix_append ..

/-- An element and the others. -/
theorem perm_erase {entry : α} (nodup : (entries.map key).Nodup) (member : entry ∈ entries) :
    entries.Perm (entry :: erase key entries (key entry)) := by
  induction entries with
  | nil => cases member
  | cons first rest ih =>
    rw [map_cons, nodup_cons] at nodup
    rcases mem_cons.mp member with here | later
    · have others : erase key rest (key first) = rest := by
        apply filter_eq_self.mpr
        intro other listed
        rw [decide_eq_true_eq]
        intro same
        exact nodup.1 (same ▸ mem_map_of_mem listed)
      rw [here, erase, filter_cons_of_neg (by simp)]
      change (first :: rest).Perm (first :: erase key rest (key first))
      rw [others]
    · have apart : key first ≠ key entry := by
        intro same
        exact nodup.1 (same ▸ mem_map_of_mem later)
      rw [erase, filter_cons_of_pos (by simpa using apart)]
      exact ((ih nodup.2 later).cons first).trans (List.Perm.swap ..)

/-- The head of a suffix without an element, and the cursor that makes room for it. -/
theorem step_cursor (nodup : (entries.map key).Nodup) (suffix : rest <:+ entries) :
    step key entries out (cursor key rest) = cursor key (erase key rest out) := by
  cases rest with
  | nil => rfl
  | cons first rest =>
    obtain ⟨front, rfl⟩ := suffix
    have tail : ahead key (front ++ first :: rest) (some (key first)) = first :: rest :=
      dropWhile_suffix nodup
    rw [map_append, map_cons] at nodup
    have unique := (nodup_cons.mp (nodup_append.mp nodup).2.1).1
    by_cases here : key first = out
    · have kept : erase key rest out = rest := by
        apply filter_eq_self.mpr
        intro entry member
        rw [decide_eq_true_eq]
        intro same
        apply unique
        rw [here, ← same]
        exact mem_map_of_mem member
      have gone : erase key (first :: rest) out = rest := by
        rw [erase, filter_cons_of_neg (by simpa using here)]
        exact kept
      have moved : cursor key (first :: rest) = some out := congrArg some here
      rw [gone, step, if_pos moved, behind, ← here, tail]
      rfl
    · have stays : erase key (first :: rest) out = first :: erase key rest out := by
        rw [erase, filter_cons_of_pos (by simpa using here)]
        rfl
      have waits : cursor key (first :: rest) ≠ some out := fun same => here (Option.some.inj same)
      rw [stays, step, if_neg waits]
      rfl

/-! ## Visits -/

variable {ν : Type*} {number : α → ν} {wanted : α → Bool} {present visited gone : List ν} {first : α}

/-- A walk with a rest ahead of it: no number was visited twice or is visited again, and those that
were wanted when it began are visited, gone or ahead. -/
structure Visits (number : α → ν) (wanted : α → Bool) (rest : List α) (present visited gone : List ν) :
    Prop where
  once : visited.Nodup
  apart : ∀ seen ∈ visited, seen ∉ rest.map number
  everyone : ∀ seen ∈ present, seen ∈ visited ∨ seen ∈ gone ∨ seen ∈ (rest.filter wanted).map number

omit [DecidableEq κ] in
theorem visits_start : Visits number wanted entries ((entries.filter wanted).map number) [] gone where
  once := nodup_nil
  apart := by
    intro seen member
    cases member
  everyone := fun seen member => .inr (.inr member)

/-- What is wanted in a list lies behind what is not. -/
theorem filter_dropWhile (entries : List α) :
    (entries.dropWhile fun entry => !wanted entry).filter wanted = entries.filter wanted := by
  induction entries with
  | nil => rfl
  | cons entry entries ih =>
    by_cases here : wanted entry = true
    · rw [dropWhile_cons_of_neg (by simpa using here)]
    · rw [dropWhile_cons_of_pos (by simpa using here), ih, filter_cons_of_neg here]

section
variable (visits : Visits number wanted rest present visited gone)
include visits

/-- The next element that is wanted is visited. -/
theorem Visits.visit {later : List α} (nodup : (rest.map number).Nodup)
    (found : (rest.dropWhile fun entry => !wanted entry) = first :: later) :
    Visits number wanted later present (visited ++ [number first]) gone := by
  have suffix : first :: later <:+ rest := found ▸ List.dropWhile_suffix _
  have unique : ((first :: later).map number).Nodup := (suffix.sublist.map number).nodup nodup
  rw [map_cons, nodup_cons] at unique
  have apart : ∀ seen ∈ visited, seen ∉ (first :: later).map number := by
    intro seen member again
    exact visits.apart seen member ((suffix.sublist.map number).subset again)
  exact {
    once := by
      apply nodup_append.mpr
      refine ⟨visits.once, by simp, ?_⟩
      intro seen member other same equal
      rw [equal, mem_singleton.mp same] at member
      exact apart _ member mem_cons_self
    apart := by
      intro seen member again
      rcases mem_append.mp member with before | now
      · exact apart seen before (mem_cons_of_mem _ again)
      · rw [mem_singleton.mp now] at again
        exact unique.1 again
    everyone := by
      intro seen member
      rw [mem_append]
      rcases visits.everyone seen member with before | gone | ahead
      · exact .inl (.inl before)
      · exact .inr (.inl gone)
      · rw [← filter_dropWhile, found] at ahead
        have ⟨entry, listed, same⟩ := mem_map.mp ahead
        rcases mem_cons.mp (mem_filter.mp listed).1 with here | behind
        · rw [← same, here]
          exact .inl (.inr mem_cons_self)
        · rw [← same]
          exact .inr (.inr (mem_map_of_mem
            (mem_filter.mpr ⟨behind, (mem_filter.mp listed).2⟩))) }

/-- A walk that finds nothing more that is wanted has visited everyone who stayed. -/
theorem Visits.through (found : (rest.dropWhile fun entry => !wanted entry) = []) :
    ∀ seen ∈ present, seen ∈ visited ∨ seen ∈ gone := by
  intro seen member
  rcases visits.everyone seen member with before | gone | ahead
  · exact .inl before
  · exact .inr gone
  · rw [← filter_dropWhile, found] at ahead
    cases ahead

/-- An element is taken out. -/
theorem Visits.erase (leaving : ∀ entry ∈ rest, key entry = out → number entry = number first) :
    Visits number wanted (erase key rest out) present visited (gone ++ [number first]) where
  once := visits.once
  apart := by
    intro seen member again
    exact visits.apart seen member ((filter_sublist.map number).subset again)
  everyone := by
    intro seen member
    rw [mem_append]
    rcases visits.everyone seen member with before | gone | ahead
    · exact .inl before
    · exact .inr (.inl (.inl gone))
    · have ⟨entry, listed, same⟩ := mem_map.mp ahead
      rw [mem_filter] at listed
      rw [← same]
      by_cases leaves : key entry = out
      · rw [leaving entry listed.1 leaves]
        exact .inr (.inl (.inr mem_cons_self))
      · have stays : entry ∈ Walk.erase key rest out :=
          mem_filter.mpr ⟨listed.1, decide_eq_true leaves⟩
        exact .inr (.inr (mem_map_of_mem (mem_filter.mpr ⟨stays, listed.2⟩)))

/-- An element with a new number is put at the end. -/
theorem Visits.append (fresh : number first ∉ visited) :
    Visits number wanted (rest ++ [first]) present visited gone where
  once := visits.once
  apart := by
    intro seen member again
    rw [map_append] at again
    rcases mem_append.mp again with before | now
    · exact visits.apart seen member before
    · rw [map_singleton, mem_singleton] at now
      exact fresh (now ▸ member)
  everyone := by
    intro seen member
    rcases visits.everyone seen member with before | gone | ahead
    · exact .inl before
    · exact .inr (.inl gone)
    · rw [filter_append, map_append]
      exact .inr (.inr (mem_append_left _ ahead))

end

end Walk
