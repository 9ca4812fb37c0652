import Mathlib.Data.List.Basic
import Mathlib.Tactic.Ring

/-!
# Runs of a step function

A run feeds a list of inputs to a step function from a start state. `Meets ok` says that
every step of a run meets a condition on the state before it and its input, `Always inv`
that every state the run reaches, the start included, satisfies an invariant. An
invariant kept by the steps that meet the condition holds along every run that meets it;
one that the other steps break holds along no other run.
-/

namespace Run

variable {σ α : Type*} {step : σ → α → σ} {ok : σ → α → Prop} {inv : σ → Prop}

/-- Every step of the run meets `ok` in the state before it. -/
def Meets (step : σ → α → σ) (ok : σ → α → Prop) : σ → List α → Prop
  | _, [] => True
  | state, input :: rest => ok state input ∧ Meets step ok (step state input) rest

/-- Every state of the run satisfies `inv`. -/
def Always (step : σ → α → σ) (inv : σ → Prop) : σ → List α → Prop
  | state, [] => inv state
  | state, input :: rest => inv state ∧ Always step inv (step state input) rest

/-- A decidable condition can be tested along a run. -/
instance Meets.decidable [∀ state input, Decidable (ok state input)] :
    ∀ (state : σ) (inputs : List α), Decidable (Meets step ok state inputs)
  | _, [] => .isTrue trivial
  | state, input :: rest =>
    haveI := Meets.decidable (step state input) rest
    inferInstanceAs (Decidable (ok state input ∧ Meets step ok (step state input) rest))

/-- A condition that every step meets. -/
theorem meets_of_forall (met : ∀ state input, ok state input) (state : σ) (inputs : List α) :
    Meets step ok state inputs := by
  induction inputs generalizing state with
  | nil => exact trivial
  | cons input rest ih => exact ⟨met state input, ih (step state input)⟩

/-- A run in two parts. -/
theorem meets_append {state : σ} {before after : List α} :
    Meets step ok state (before ++ after) ↔
      Meets step ok state before ∧ Meets step ok (before.foldl step state) after := by
  induction before generalizing state with
  | nil => exact (and_iff_right trivial).symm
  | cons input rest ih => exact (and_congr_right fun _ => ih).trans and_assoc.symm

section
variable {state : σ} {inputs : List α} (h : Always step inv state inputs)
include h

/-- The start of a run satisfies what all its states satisfy. -/
theorem Always.start : inv state := by
  cases inputs with
  | nil => exact h
  | cons input rest => exact h.1

/-- The end of a run satisfies what all its states satisfy. -/
theorem Always.last : inv (inputs.foldl step state) := by
  induction inputs generalizing state with
  | nil => exact h
  | cons input rest ih => exact ih h.2

end

/-- A property that each round of a loop keeps, of a loop that may fail. -/
theorem foldlM_kept {round : σ → α → Option σ} (kept : σ → Prop)
    {inputs : List α}
    (each : ∀ input ∈ inputs, ∀ state state', kept state → round state input = some state' →
      kept state')
    {state state' : σ} (start : kept state) (done : inputs.foldlM round state = some state') :
    kept state' := by
  induction inputs generalizing state with
  | nil =>
    cases done
    exact start
  | cons input rest ih =>
    have ⟨next, first, later⟩ := Option.bind_eq_some_iff.mp done
    exact ih (fun input member => each input (List.mem_cons_of_mem _ member))
      (each input List.mem_cons_self state next start first) later

/-- A state that a run from the start ends in. -/
def Reaches (step : σ → α → σ) (start state : σ) : Prop :=
  ∃ inputs : List α, inputs.foldl step start = state

/-- A run reaches its start. -/
theorem reaches_start {start : σ} : Reaches step start start :=
  ⟨[], rfl⟩

/-- A run goes on from the states it reaches. -/
theorem Reaches.next {start state : σ} (h : Reaches step start state) (input : α) :
    Reaches step start (step state input) := by
  obtain ⟨inputs, rfl⟩ := h
  exact ⟨inputs ++ [input], List.foldl_concat step start input inputs⟩

/-- What all states of all runs satisfy, every state that is reached does. -/
theorem Reaches.of_always {start state : σ} (h : Reaches step start state)
    (always : ∀ inputs : List α, Always step inv start inputs) : inv state := by
  obtain ⟨inputs, rfl⟩ := h
  exact (always inputs).last

/-- A weaker property of all states. -/
theorem Always.imp {goal : σ → Prop} (imp : ∀ state, inv state → goal state) {state : σ}
    {inputs : List α} (h : Always step inv state inputs) : Always step goal state inputs := by
  induction inputs generalizing state with
  | nil => exact imp state h
  | cons input rest ih => exact ⟨imp state h.1, ih h.2⟩

/-- The induction over runs: an invariant kept by every step that meets `ok` holds in
every state of a run whose steps meet it. -/
theorem always (kept : ∀ state input, inv state → ok state input → inv (step state input))
    {state : σ} {inputs : List α} (start : inv state) (h : Meets step ok state inputs) :
    Always step inv state inputs := by
  induction inputs generalizing state with
  | nil => exact start
  | cons input rest ih => exact ⟨start, ih (kept state input start h.1) h.2⟩

section
variable {state : σ} {inputs : List α} (kept : ∀ state input, inv state → inv (step state input))
include kept

/-- An invariant that every step keeps holds in every state of every run. -/
theorem always_of_forall (start : inv state) : Always step inv state inputs := by
  induction inputs generalizing state with
  | nil => exact start
  | cons input rest ih => exact ⟨start, ih (kept state input start)⟩

/-- Two conditions that agree in the states of an invariant which every step keeps. -/
theorem meets_iff {ok' : σ → α → Prop}
    (same : ∀ state input, inv state → (ok state input ↔ ok' state input)) (start : inv state) :
    Meets step ok state inputs ↔ Meets step ok' state inputs := by
  induction inputs generalizing state with
  | nil => exact Iff.rfl
  | cons input rest ih => exact and_congr (same state input start) (ih (kept state input start))

end

/-- If the invariant implies a property that the other steps break, the property holds along
a run exactly when every step meets the condition. -/
theorem always_iff {goal : σ → Prop}
    (kept : ∀ state input, inv state → ok state input → inv (step state input))
    (sound : ∀ state, inv state → goal state)
    (broken : ∀ state input, inv state → ¬ok state input → ¬goal (step state input))
    {state : σ} {inputs : List α} (start : inv state) :
    Always step goal state inputs ↔ Meets step ok state inputs := by
  induction inputs generalizing state with
  | nil => exact iff_of_true (sound state start) trivial
  | cons input rest ih =>
    by_cases met : ok state input
    · have next := ih (kept state input start met)
      exact ⟨fun h => ⟨met, next.mp h.2⟩, fun h => ⟨sound state start, next.mpr h.2⟩⟩
    · have unmet := broken state input start met
      exact ⟨fun h => absurd h.2.start unmet, fun h => absurd h.1 met⟩

end Run
