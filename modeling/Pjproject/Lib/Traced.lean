import Mathlib.Tactic.Ring

/-!
# Computations that log their accesses

A computation that may fail, with the list of the accesses that it makes. An access is whatever
the reader of the log wants to know of: a position that is read, an index that is written. The
accesses before a failure are logged too.
-/

/-- What a computation returns and the accesses it makes. -/
structure Traced (A ε α : Type) where
  result : Except ε α
  log : List A

namespace Traced

variable {A ε α β : Type}

instance : Monad (Traced A ε) where
  pure value := { result := .ok value, log := [] }
  bind first next :=
    match first.result with
    | .error error => { result := .error error, log := first.log }
    | .ok value => { result := (next value).result, log := first.log ++ (next value).log }

theorem bind_bind {γ : Type} (first : Traced A ε α) (next : α → Traced A ε β)
    (last : β → Traced A ε γ) :
    first >>= next >>= last = first >>= fun value => next value >>= last := by
  have ⟨result, log⟩ := first
  cases result with
  | error error => rfl
  | ok value =>
    simp only [bind]
    cases (next value).result with
    | error error => rfl
    | ok value => simp only [List.append_assoc]

theorem pure_then (value : α) (next : α → Traced A ε β) : pure value >>= next = next value := by
  simp [bind, pure]

/-- Fails. -/
def throw (error : ε) : Traced A ε α := { result := .error error, log := [] }

/-- Makes accesses and returns a value. -/
def access (log : List A) (value : α) : Traced A ε α := { result := .ok value, log := log }

/-- Every access is good. -/
def All (good : A → Prop) (run : Traced A ε α) : Prop := ∀ made ∈ run.log, good made

variable {good : A → Prop}

@[simp] theorem result_pure (value : α) : (pure value : Traced A ε α).result = .ok value := rfl

@[simp] theorem result_throw (error : ε) : (throw error : Traced A ε α).result = .error error := rfl

@[simp] theorem result_access (log : List A) (value : α) :
    (access log value : Traced A ε α).result = .ok value := rfl

theorem result_bind_of_ok {first : Traced A ε α} {value : α} (h : first.result = .ok value)
    (next : α → Traced A ε β) : (first >>= next).result = (next value).result := by
  simp only [bind, h]

theorem result_bind_of_error {first : Traced A ε α} {error : ε} (h : first.result = .error error)
    (next : α → Traced A ε β) : (first >>= next).result = .error error := by
  simp only [bind, h]

theorem result_bind (first : Traced A ε α) (next : α → Traced A ε β) :
    (first >>= next).result = first.result.bind fun value => (next value).result := by
  simp only [bind]
  cases first.result <;> rfl

/-- A sequence returns if both parts do. -/
theorem result_bind_eq_ok {first : Traced A ε α} {next : α → Traced A ε β} {value : β} :
    (first >>= next).result = .ok value ↔
      ∃ between, first.result = .ok between ∧ (next between).result = .ok value := by
  cases h : first.result with
  | error error =>
    rw [result_bind_of_error h]
    exact ⟨nofun, fun ⟨_, failed, _⟩ => nomatch failed⟩
  | ok between =>
    rw [result_bind_of_ok h]
    exact ⟨fun second => ⟨between, rfl, second⟩, fun ⟨_, same, second⟩ =>
      Except.ok.inj same ▸ second⟩

@[simp] theorem all_pure (value : α) : (pure value : Traced A ε α).All good := nofun

@[simp] theorem all_throw (error : ε) : (throw error : Traced A ε α).All good := nofun

@[simp] theorem all_access (log : List A) (value : α) :
    (access log value : Traced A ε α).All good ↔ ∀ made ∈ log, good made := Iff.rfl

/-- The second part makes accesses where the first one returns. -/
theorem all_bind {first : Traced A ε α} {next : α → Traced A ε β} :
    (first >>= next).All good ↔
      first.All good ∧ ∀ value, first.result = .ok value → (next value).All good := by
  cases h : first.result with
  | error error =>
    have log : (first >>= next).log = first.log := by simp only [bind, h]
    rw [All, log]
    exact ⟨fun all => ⟨all, nofun⟩, fun all => all.1⟩
  | ok between =>
    have log : (first >>= next).log = first.log ++ (next between).log := by simp only [bind, h]
    rw [All, log, List.forall_mem_append]
    refine and_congr_right fun _ => ⟨fun all value same => ?_, fun all => all between rfl⟩
    exact Except.ok.inj same ▸ all

theorem all_bind_of_ok {first : Traced A ε α} {value : α} (h : first.result = .ok value)
    (next : α → Traced A ε β) :
    (first >>= next).All good ↔ first.All good ∧ (next value).All good := by
  rw [all_bind]
  refine and_congr_right fun _ => ⟨fun all => all value h, fun all other same => ?_⟩
  rw [h] at same
  exact Except.ok.inj same ▸ all

/-! ## What a computation gives

A total and a partial specification: the accesses are good, and what is returned meets a condition.
The total one also says that something is returned. -/

/-- Makes good accesses and returns a value with a property. -/
def Gives (good : A → Prop) (run : Traced A ε α) (post : α → Prop) : Prop :=
  run.All good ∧ ∃ value, run.result = .ok value ∧ post value

/-- Makes good accesses, and a value that is returned has a property. -/
def Ensures (good : A → Prop) (run : Traced A ε α) (post : α → Prop) : Prop :=
  run.All good ∧ ∀ value, run.result = .ok value → post value

variable {run first : Traced A ε α} {next : α → Traced A ε β} {value : α} {between post : α → Prop}
  {last : β → Prop}

theorem gives_pure (h : post value) : (pure value : Traced A ε α).Gives good post :=
  ⟨all_pure value, value, rfl, h⟩

theorem gives_access {log : List A} (accesses : ∀ made ∈ log, good made) (h : post value) :
    (access log value : Traced A ε α).Gives good post :=
  ⟨accesses, value, rfl, h⟩

theorem ensures_throw {error : ε} : (throw error : Traced A ε α).Ensures good post :=
  ⟨all_throw error, nofun⟩

theorem Gives.imp (h : run.Gives good between) (imp : ∀ value, between value → post value) :
    run.Gives good post := by
  have ⟨all, value, returned, holds⟩ := h
  exact ⟨all, value, returned, imp value holds⟩

theorem Gives.ensures (h : run.Gives good post) : run.Ensures good post := by
  have ⟨all, value, returned, holds⟩ := h
  refine ⟨all, fun other same => ?_⟩
  rw [returned] at same
  exact Except.ok.inj same ▸ holds

theorem Gives.bind (h : first.Gives good between)
    (then' : ∀ value, between value → (next value).Gives good last) :
    (first >>= next).Gives good last := by
  have ⟨all, value, returned, holds⟩ := h
  have ⟨allNext, result, returnedNext, holdsNext⟩ := then' value holds
  refine ⟨(all_bind_of_ok returned next).mpr ⟨all, allNext⟩, result, ?_, holdsNext⟩
  rw [result_bind_of_ok returned, returnedNext]

/-- The part in front may fail. -/
theorem Ensures.bind (h : first.Ensures good between)
    (then' : ∀ value, between value → (next value).Ensures good last) :
    (first >>= next).Ensures good last := by
  refine ⟨all_bind.mpr ⟨h.1, fun value returned => (then' value (h.2 value returned)).1⟩, ?_⟩
  intro result returned
  have ⟨value, front, back⟩ := result_bind_eq_ok.mp returned
  exact (then' value (h.2 value front)).2 result back

/-- What is returned is changed at the end. -/
theorem ensures_map (change : α → β) :
    (first >>= fun value => pure (change value)).Ensures good last ↔
      first.Ensures good fun value => last (change value) := by
  constructor
  · intro ensures
    refine ⟨(all_bind.mp ensures.1).1, fun value returned => ?_⟩
    exact ensures.2 _ (result_bind_of_ok returned _)
  · intro ensures
    exact ensures.bind fun value holds => (gives_pure holds).ensures

/-- A bad access of the part in front. -/
theorem not_ensures_bind_of_not_all (h : ¬first.All good) : ¬(first >>= next).Ensures good last :=
  fun ensures => h (all_bind.mp ensures.1).1

/-- The part behind fails its specification at the value that it gets. -/
theorem not_ensures_bind (returned : first.result = .ok value)
    (h : ¬(next value).Ensures good last) : ¬(first >>= next).Ensures good last := by
  intro ensures
  apply h
  refine ⟨((all_bind_of_ok returned next).mp ensures.1).2, fun result back => ?_⟩
  exact ensures.2 result ((result_bind_of_ok returned next).trans back)

/-- The part behind fails its specification at every value that it can get. -/
theorem Gives.bind_not (h : first.Gives good between)
    (then' : ∀ value, between value → ¬(next value).Ensures good last) :
    ¬(first >>= next).Ensures good last := by
  have ⟨_, value, returned, holds⟩ := h
  exact not_ensures_bind returned (then' value holds)

end Traced
