import Pjproject.Pjlib.Str

/-!
# Tokens of a string

`pj_strtok` finds the next token from an index on, between delimiters that each call chooses.
-/

namespace Pj
open List

/-- `pj_strtok`: the index of the token, which is the length of the string where there is none, and
the token. -/
def pjStrtok (str delim : Str) (startIdx : Nat) : Nat × Str :=
  if str = [] ∨ str.length < startIdx then (str.length, []) else
  let tok := str.drop startIdx
  let strIdx := (tok.takeWhile (· ∈ delim)).length
  if startIdx + strIdx = str.length then (str.length, tok)
  else (startIdx + strIdx, (tok.drop strIdx).takeWhile (· ∉ delim))

/-- A token behind delimiters, up to the next one. -/
theorem pjStrtok_append {before gap token rest delim : Str} (skipped : ∀ byte ∈ gap, byte ∈ delim)
    (kept : ∀ byte ∈ token, byte ∉ delim) (some' : token ≠ [])
    (stop : ∀ byte ∈ rest.head?, byte ∈ delim) :
    pjStrtok (before ++ gap ++ token ++ rest) delim before.length =
      (before.length + gap.length, token) := by
  obtain ⟨first, later, rfl⟩ := exists_cons_of_ne_nil some'
  have dropped : (before ++ gap ++ (first :: later) ++ rest).drop before.length =
      gap ++ ((first :: later) ++ rest) := by
    rw [append_assoc, append_assoc, drop_left]
  have gone : (gap ++ ((first :: later) ++ rest)).takeWhile (· ∈ delim) = gap := by
    rw [takeWhile_append_of_pos (by simpa using skipped), cons_append,
      takeWhile_cons_of_neg (by simpa using kept first mem_cons_self), append_nil]
  have taken : ((first :: later) ++ rest).takeWhile (· ∉ delim) = first :: later := by
    rw [takeWhile_append_of_pos (by simpa using kept)]
    cases rest with
    | nil => exact append_nil _
    | cons byte rest =>
      rw [takeWhile_cons_of_neg (by simpa using stop byte rfl), append_nil]
  have long : before.length + gap.length ≠ (before ++ gap ++ (first :: later) ++ rest).length := by
    simp
  have inside : ¬(before ++ gap ++ (first :: later) ++ rest = [] ∨
      (before ++ gap ++ (first :: later) ++ rest).length < before.length) := by
    simp
  unfold pjStrtok
  rw [if_neg inside]
  simp only [dropped, gone]
  rw [if_neg long, drop_left, taken]

end Pj
