import Mathlib.Tactic.Ring

/-!
# Writers that check their room

A writer is a list of steps: it checks that there is room left for so many elements, or it puts
some. What is written does not depend on the room, only how far the writer comes. A writer is
guarded if all that it puts was checked for, and it checks before it puts something. It comes to its
end in the room that it needs.
-/

namespace CheckedWriter

variable {α : Type}

/-- A step of a writer. -/
inductive Op (α : Type)
  | check (count : Nat)
  | put (piece : List α)

/-- What a writer puts in all. -/
def text : List (Op α) → List α
  | [] => []
  | .check _ :: ops => text ops
  | .put piece :: ops => piece ++ text ops

/-- Whether a writer comes to its end, and what it has put by then. -/
def run (fits : Int → Nat → Bool) (left : Int) : List (Op α) → Bool × List α
  | [] => (true, [])
  | .check count :: ops => if fits left count then run fits left ops else (false, [])
  | .put piece :: ops =>
    let rest := run fits (left - piece.length) ops
    (rest.1, piece ++ rest.2)

/-- All that is put was checked for, with so much room that was found before, and something is put
behind each check. -/
def Guarded : Nat → List (Op α) → Prop
  | _, [] => True
  | found, .check count :: ops => text ops ≠ [] ∧ Guarded (max found count) ops
  | found, .put piece :: ops => piece.length ≤ found ∧ Guarded (found - piece.length) ops

/-- The room that a writer needs. -/
def room : List (Op α) → Nat
  | [] => 0
  | .check count :: ops => max count (room ops)
  | .put piece :: ops => piece.length + room ops

variable {fits : Int → Nat → Bool} {left : Int} {found : Nat} {ops second : List (Op α)}

theorem text_append (ops second : List (Op α)) : text (ops ++ second) = text ops ++ text second := by
  induction ops with
  | nil => rfl
  | cons op ops ih => cases op <;> simp [text, ih]

theorem Guarded.mono {more : Nat} (h : Guarded found ops) (le : found ≤ more) :
    Guarded more ops := by
  induction ops generalizing found more with
  | nil => trivial
  | cons op ops ih =>
    cases op with
    | check count => exact ⟨h.1, ih h.2 (by omega)⟩
    | put piece => exact ⟨Nat.le_trans h.1 le, ih h.2 (Nat.sub_le_sub_right le _)⟩

/-- A writer that checks first goes behind another one. -/
theorem Guarded.append (h : Guarded found ops) (h' : Guarded 0 second) :
    Guarded found (ops ++ second) := by
  induction ops generalizing found with
  | nil => exact h'.mono (Nat.zero_le _)
  | cons op ops ih =>
    cases op with
    | check count =>
      refine ⟨fun none => h.1 ?_, ih h.2⟩
      exact (List.append_eq_nil_iff.mp ((text_append ops second).symm.trans none)).1
    | put piece => exact ⟨h.1, ih h.2⟩

theorem run_append (ops second : List (Op α)) : run fits left (ops ++ second) =
    if (run fits left ops).1 then
      ((run fits (left - (text ops).length) second).1,
        text ops ++ (run fits (left - (text ops).length) second).2)
    else run fits left ops := by
  induction ops generalizing left with
  | nil => simp [run, text]
  | cons op ops ih =>
    cases op with
    | check count =>
      simp only [List.cons_append, run, text]
      split
      · exact ih
      · rfl
    | put piece =>
      simp only [List.cons_append, run, text, ih, List.length_append, Int.natCast_add, Int.sub_sub,
        List.append_assoc]
      split <;> rfl

/-- A writer that comes to its end has put all of its text. -/
theorem run_done (h : (run fits left ops).1 = true) : (run fits left ops).2 = text ops := by
  rw [← List.append_nil ops, run_append, if_pos h, List.append_nil]
  exact List.append_nil _

/-- A guarded writer that does not come to its end lacks some of its text. -/
theorem run_short (h : Guarded found ops) (stopped : (run fits left ops).1 = false) :
    (run fits left ops).2.length < (text ops).length := by
  induction ops generalizing left found with
  | nil => cases stopped
  | cons op ops ih =>
    cases op with
    | check count =>
      rw [run] at stopped ⊢
      split at stopped
      · next fit =>
        rw [if_pos fit]
        exact ih h.2 stopped
      · next full =>
        rw [if_neg full]
        exact List.length_pos_iff.mpr h.1
    | put piece =>
      have rest := ih h.2 stopped
      simp only [run, text, List.length_append]
      omega

/-- A guarded writer stays inside. -/
theorem run_inside (h : Guarded found ops) (inside : found ≤ left)
    (sound : ∀ left count, 0 ≤ left → fits left count = true → count ≤ left) :
    (run fits left ops).2.length ≤ left := by
  induction ops generalizing left found with
  | nil => exact Int.le_trans (Int.natCast_nonneg found) inside
  | cons op ops ih =>
    cases op with
    | check count =>
      rw [run]
      split
      · next fit =>
        have enough := sound left count (by omega) fit
        exact ih h.2 (by omega)
      · exact Int.le_trans (Int.natCast_nonneg found) inside
    | put piece =>
      have here := h.1
      have rest := ih h.2 (by omega : _ ≤ left - piece.length)
      simp only [run, List.length_append]
      omega

/-- A guarded writer comes to its end in the room that it needs. -/
theorem run_done_iff (h : Guarded found ops) (inside : found ≤ left)
    (decides : ∀ less count, 0 ≤ less → less ≤ left → (fits less count = true ↔ count ≤ less)) :
    (run fits left ops).1 = true ↔ room ops ≤ left := by
  induction ops generalizing left found with
  | nil => exact iff_of_true rfl (Int.le_trans (Int.natCast_nonneg found) inside)
  | cons op ops ih =>
    cases op with
    | check count =>
      have here := decides left count (by omega) (Int.le_refl _)
      rw [run, room]
      by_cases fit : fits left count = true
      · rw [if_pos fit, ih h.2 (by have := here.mp fit; omega) decides]
        have := here.mp fit
        omega
      · rw [if_neg fit]
        have := mt here.mpr fit
        simp only [Bool.false_eq_true, false_iff]
        omega
    | put piece =>
      have here := h.1
      have rest := ih h.2 (by omega : _ ≤ left - piece.length)
        fun less count nonneg le => decides less count nonneg (by omega)
      rw [run, room]
      exact rest.trans (by omega)

end CheckedWriter
