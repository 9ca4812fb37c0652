import Mathlib.Tactic.Ring

/-!
# Sequences of checks

A function that compares or validates is a sequence of checks, of which the first one to fail
gives its error. It passes exactly if each of them does.
-/

namespace Checks

variable {ε α β : Type}

/-- Fails unless a proposition holds. -/
def check (holds : Prop) [Decidable holds] (error : ε) : Except ε Unit :=
  if holds then .ok () else .error error

/-- Fails if there is no value. -/
def found (value : Option α) (error : ε) : Except ε α := value.elim (.error error) .ok

/-- Checks elements from front to back. -/
def each (test : α → Except ε Unit) : List α → Except ε Unit
  | [] => .ok ()
  | first :: rest => test first >>= fun _ => each test rest

@[simp] theorem check_ok {holds : Prop} [Decidable holds] {error : ε} {passed : Unit} :
    check holds error = .ok passed ↔ holds := by
  unfold check
  split <;> simp [*]

@[simp] theorem found_ok {value : Option α} {error : ε} {result : α} :
    found value error = .ok result ↔ value = some result := by
  cases value <;> simp [found]

/-- A sequence of two parts passes if they do. -/
@[simp] theorem bind_ok {first : Except ε α} {next : α → Except ε β} {result : β} :
    first >>= next = .ok result ↔
      ∃ between, first = .ok between ∧ next between = .ok result := by
  cases first <;> simp [bind, Except.bind]

/-- The part of a sequence in front returns nothing. -/
theorem then_ok {first : Except ε Unit} {next : Except ε β} {result : β} :
    (first >>= fun _ => next) = .ok result ↔ first = .ok () ∧ next = .ok result := by
  rw [bind_ok]
  exact ⟨fun ⟨_, passed, rest⟩ => ⟨passed, rest⟩, fun ⟨passed, rest⟩ => ⟨(), passed, rest⟩⟩

/-- All elements pass if each one does. -/
theorem each_ok {test : α → Except ε Unit} {elements : List α} :
    each test elements = .ok () ↔ ∀ element ∈ elements, test element = .ok () := by
  induction elements with
  | nil => exact iff_of_true rfl nofun
  | cons first rest ih => rw [each, then_ok, ih, List.forall_mem_cons]

end Checks
