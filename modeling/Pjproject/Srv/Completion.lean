import Mathlib.Data.List.GetD
import Pjproject.Lib.Run
import Pjproject.Srv.Entries

/-!
# The end of a resolution

The callback is called when the number of hosts that are resolved is that of the targets. A host that is
done with is one without a pending query, so the callback is called once and last, unless the start of a
query fails for some targets and not for all of them: such a failure is counted without a look at the
number, and again when the other query of the target is answered.
-/

namespace Pj.Srv
open List Dns Pjnath.Stun

variable {query : AsyncQuery} {before rest : List SrvTarget} {target : SrvTarget} {i errCnt : Nat}
  {err : Int}

/-! ## Targets -/

/-- No query of a target is pending or is to come. -/
def settled (target : SrvTarget) : Bool := target.qA = .null && target.qAaaa = .null

/-- The pointers of a target are no dummies. -/
def SrvTarget.Clear (target : SrvTarget) : Prop := target.qA ≠ .dummy ∧ target.qAaaa ≠ .dummy

theorem SrvTarget.Fresh.settled (fresh : target.Fresh) : settled target = true := by
  simp [Srv.settled, fresh.1, fresh.2]

theorem SrvTarget.Fresh.clear (fresh : target.Fresh) : target.Clear := by
  simp [SrvTarget.Clear, fresh.1, fresh.2]

theorem null_iff {ptr : QueryPtr} (clear : ptr ≠ .dummy) : ptr = .null ↔ ptr ≠ .pending := by
  cases ptr with
  | null => exact iff_of_true rfl nofun
  | dummy => exact absurd rfl clear
  | pending => exact iff_of_false nofun (not_not_intro rfl)

/-- A target without dummies is settled if no query is pending. -/
theorem SrvTarget.Clear.settled_iff (clear : target.Clear) :
    settled target = true ↔ target.qA ≠ .pending ∧ target.qAaaa ≠ .pending := by
  rw [settled, Bool.and_eq_true, decide_eq_true_eq, decide_eq_true_eq, null_iff clear.1,
    null_iff clear.2]

theorem getD_mid : (before ++ target :: rest).getD before.length .zero = target := by
  rw [getD_eq_getElem?_getD, getElem?_append_right (Nat.le_refl _), Nat.sub_self]
  rfl

theorem set_mid (target' : SrvTarget) :
    (before ++ target :: rest).set before.length target' = before ++ target' :: rest := by
  rw [set_append_right _ _ (Nat.le_refl _), Nat.sub_self, set_cons_zero]

/-! ## The callback -/

/-- The callback is called if all hosts have been resolved. -/
theorem finish_spec (query : AsyncQuery) :
    query.finish.srv = query.srv ∧ query.finish.option = query.option ∧
      query.finish.hostResolved = query.hostResolved ∧
      (query.hostResolved ≠ query.srv.length → query.finish.called = query.called) ∧
      (query.hostResolved = query.srv.length →
        query.finish.called.length = query.called.length + 1) := by
  unfold AsyncQuery.finish
  split
  · rename_i waiting
    exact ⟨rfl, rfl, rfl, fun _ => rfl, fun done => absurd done waiting⟩
  · rename_i done
    exact ⟨rfl, rfl, rfl, fun waiting => absurd waiting done, fun _ => length_append⟩

/-- The other pointer of a target. -/
def SrvTarget.other (target : SrvTarget) (isTypeA : Bool) : QueryPtr :=
  if isTypeA then target.qAaaa else target.qA

/-- A target after the answer to one of its queries. -/
structure Answered (target : SrvTarget) (isTypeA : Bool) (target' : SrvTarget) : Prop where
  own : (if isTypeA then target'.qA else target'.qAaaa) = .null
  other : target'.other isTypeA = target.other isTypeA

/-- An answer is kept in the target, and completes the host if its other query is done. -/
theorem addressCallback_spec (srv : query.srv = before ++ target :: rest) (isTypeA : Bool)
    (answer : Answer) :
    ∃ target' lastError, Answered target isTypeA target' ∧
      addressCallback query before.length isTypeA answer =
        AsyncQuery.finish { query with
          srv := before ++ target' :: rest
          lastError := lastError
          hostResolved := if target.other isTypeA = .null then query.hostResolved + 1
            else query.hostResolved } := by
  unfold addressCallback
  rw [srv, getD_mid]
  simp only [set_mid]
  cases isTypeA with
  | true =>
    refine ⟨_, _, ⟨?_, ?_⟩, rfl⟩
    · cases (readAnswer answer).2 with
      | none => rfl
      | some rec => rfl
    · cases (readAnswer answer).2 with
      | none => rfl
      | some rec => rfl
  | false =>
    refine ⟨_, _, ⟨?_, ?_⟩, rfl⟩
    · cases (readAnswer answer).2 with
      | none => rfl
      | some rec => rfl
    · cases (readAnswer answer).2 with
      | none => rfl
      | some rec => rfl

/-! ## The loop -/

/-- How far the loop of `resolve_hostnames` is between the targets before and the rest: no start of a
query has failed, or one has for every target before. -/
inductive Progress (query : AsyncQuery) (before rest : List SrvTarget) (errCnt : Nat) (err : Int) : Prop
  | good (none : errCnt = 0) (success : err = pjSuccess) (clear : ∀ target ∈ before, target.Clear)
      (count : query.hostResolved = before.countP settled + rest.countP located)
      (called : query.called.length = if query.hostResolved = query.srv.length then 1 else 0)
  | bad (some : 0 < errCnt) (failure : err ≠ pjSuccess) (all : errCnt = before.length)
      (count : query.hostResolved = before.length) (bare : ∀ target ∈ rest, target.addr = [])
      (called : query.called = [])

/-- The loop is between two targets. -/
structure Ready (query : AsyncQuery) (before rest : List SrvTarget) (errCnt : Nat) (err : Int) :
    Prop where
  srv : query.srv = before ++ rest
  fresh : ∀ target ∈ rest, target.Fresh
  progress : Progress query before rest errCnt err

/-- The loop is at a target, which is not counted. -/
structure Loop (query : AsyncQuery) (before : List SrvTarget) (target : SrvTarget)
    (rest : List SrvTarget) (errCnt : Nat) (err : Int) : Prop where
  srv : query.srv = before ++ target :: rest
  fresh : ∀ target ∈ rest, target.Fresh
  progress : Progress query before rest errCnt err

/-- The loop is over: the hosts without a pending query are counted, and the callback has been called
if they are all. -/
structure Over (query : AsyncQuery) : Prop where
  clear : ∀ target ∈ query.srv, target.Clear
  count : query.hostResolved = query.srv.countP settled
  called : query.called.length = if query.hostResolved = query.srv.length then 1 else 0

/-- The states of a resolution in which no start of a query fails, or one does for every target. -/
def Inv (state : State) : Prop :=
  (state.query.option.resolveAaaaOnly = true → state.query.option.resolveAaaa = true) ∧
  match state.phase with
  | .srv => state.query.srv = [] ∧ state.query.hostResolved = 0 ∧ state.query.called = []
  | .startA i errCnt err => ∃ before target rest, before.length = i ∧
      Loop state.query before target rest errCnt err ∧ target.qA = .null ∧
      target.qAaaa = if state.query.option.resolveAaaa then .dummy else .null
  | .startAaaa i errCnt err => ∃ before target rest, before.length = i ∧
      Loop state.query before target rest errCnt err ∧ target.qA ≠ .dummy ∧
      target.qAaaa ≠ .pending ∧ (target.qA = .pending → target.qAaaa = .dummy)
  | .returned => Over state.query

theorem countP_le (p : SrvTarget → Bool) (srv : List SrvTarget) : srv.countP p ≤ srv.length :=
  countP_le_length

/-- While the loop is at a target, the callback has not been called. -/
theorem Loop.called (loop : Loop query before target rest errCnt err) :
    query.called = [] ∧ query.hostResolved < query.srv.length := by
  have length : query.srv.length = before.length + (rest.length + 1) := by
    rw [loop.srv, length_append, length_cons]
  cases loop.progress with
  | good _ _ _ count called =>
    have few := countP_le settled before
    have few' := countP_le located rest
    have less : query.hostResolved < query.srv.length := by omega
    rw [if_neg (Nat.ne_of_lt less)] at called
    exact ⟨eq_nil_of_length_eq_zero called, less⟩
  | bad _ _ _ count _ called => exact ⟨called, by omega⟩

/-- A target that has addresses is passed by. -/
theorem Ready.skip (ready : Ready query before (target :: rest) errCnt err)
    (found : target.addr ≠ []) : Ready query (before ++ [target]) rest errCnt err := by
  have ⟨own, others⟩ := forall_mem_cons.mp ready.fresh
  refine ⟨?_, others, ?_⟩
  · rw [ready.srv, append_assoc, singleton_append]
  · cases ready.progress with
    | good none success clear count called =>
      refine .good none success ?_ ?_ called
      · intro other member
        rcases mem_append.mp member with member | member
        · exact clear other member
        · rw [mem_singleton.mp member]
          exact own.clear
      · have here : located target = true := by simp [located, found]
        rw [count, countP_append, countP_cons_of_pos here,
          countP_cons_of_pos own.settled, countP_nil]
        omega
    | bad _ _ _ _ bare _ => exact absurd (bare target mem_cons_self) found

/-- A query is started for a target that has none. -/
theorem Ready.begin (ready : Ready query before (target :: rest) errCnt err)
    (none : target.addr = []) (target' : SrvTarget) :
    Loop { query with srv := query.srv.set before.length target' } before target' rest errCnt err := by
  have ⟨own, others⟩ := forall_mem_cons.mp ready.fresh
  have srv : query.srv.set before.length target' = before ++ target' :: rest := by
    rw [ready.srv, set_mid]
  refine ⟨srv, others, ?_⟩
  have length : (query.srv.set before.length target').length = query.srv.length := length_set
  cases ready.progress with
  | good none' success clear count called =>
    have away : ¬located target = true := by simp [located, none]
    rw [countP_cons_of_neg away] at count
    refine .good none' success clear count ?_
    rw [length]
    exact called
  | bad some' failure all count bare called =>
    exact .bad some' failure all count (fun other member => bare other (mem_cons_of_mem _ member))
      called

/-- An error is the end, whatever has been started. -/
theorem over_onError (status : Int) (count : query.hostResolved = query.srv.length)
    (called : query.called = []) : Over (query.onError status) where
  clear := by
    intro target member
    have ⟨old, _, same⟩ := mem_map.mp member
    rw [← same]
    exact ⟨nofun, nofun⟩
  count := by
    have all : (query.srv.map SrvTarget.cancel).countP settled = query.srv.length := by
      rw [countP_map]
      exact countP_eq_length.mpr fun _ _ => rfl
    exact count.trans all.symm
  called := by
    have length : (query.onError status).srv.length = query.srv.length := length_map _
    have same : (query.onError status).hostResolved = query.srv.length := count
    rw [length, if_pos same, AsyncQuery.onError, called]
    rfl

/-- The loop ends, or starts a query for the next target without addresses. -/
theorem inv_resolveHostnames (ready : Ready query before rest errCnt err)
    (option : query.option.resolveAaaaOnly = true → query.option.resolveAaaa = true) :
    Inv (resolveHostnames query errCnt err rest.length) := by
  induction rest generalizing before with
  | nil =>
    have srv : query.srv = before := ready.srv.trans (append_nil before)
    rw [length_nil, resolveHostnames]
    cases ready.progress with
    | good none success clear count called =>
      have finished : Over query := by
        refine ⟨?_, ?_, called⟩
        · rw [srv]
          exact clear
        · rw [count, srv]
          rfl
      rw [if_neg (not_not_intro success), ite_self]
      exact ⟨option, finished⟩
    | bad some' failure all count _ called =>
      rw [← srv] at all count
      rw [if_pos all, if_pos failure]
      exact ⟨option, over_onError err count called⟩
  | cons target rest ih =>
    have length : query.srv.length = before.length + (rest.length + 1) := by
      rw [ready.srv, length_append, length_cons]
    have place : query.srv.length - (rest.length + 1) = before.length := by omega
    have here : query.srv.getD before.length .zero = target := by
      rw [ready.srv, getD_mid]
    rw [length_cons, resolveHostnames]
    simp only [place, here]
    by_cases found : target.addr = []
    · rw [if_neg (not_not_intro found)]
      cases only : query.option.resolveAaaaOnly with
      | false =>
        refine ⟨fun both => absurd (only.symm.trans both) Bool.false_ne_true, ?_⟩
        exact ⟨before, _, rest, rfl, ready.begin found _, rfl, rfl⟩
      | true =>
        have aaaa := option only
        rw [if_neg (not_not_intro rfl), if_pos aaaa]
        refine ⟨fun _ => aaaa, ?_⟩
        exact ⟨before, _, rest, rfl, ready.begin found _, nofun, nofun, nofun⟩
    · rw [if_pos found]
      exact ih (ready.skip found)

/-! ## Answers and starts -/

variable {isTypeA : Bool} {target' : SrvTarget}

/-- The number of pending hosts after an answer. -/
theorem settled_answered (clear : target.other isTypeA ≠ .dummy)
    (answered : Answered target isTypeA target') :
    target'.Clear ∧ (settled target' = true ↔ target.other isTypeA = .null) := by
  have ⟨own, other⟩ := answered
  cases isTypeA with
  | true =>
    simp only [SrvTarget.other, if_true] at own other clear ⊢
    rw [SrvTarget.Clear, settled, own, other]
    exact ⟨⟨nofun, clear⟩, by simp⟩
  | false =>
    simp only [SrvTarget.other, Bool.false_eq_true, if_false] at own other clear ⊢
    rw [SrvTarget.Clear, settled, own, other]
    exact ⟨⟨clear, nofun⟩, by simp⟩

/-- The answer completes the host of the loop, or leaves it to the query that is pending. -/
theorem Loop.cached (loop : Loop query before target rest 0 err) (isTypeA : Bool)
    (clear : target.other isTypeA ≠ .dummy) (answer : Answer) :
    ∃ target', Ready (addressCallback query before.length isTypeA answer) (before ++ [target']) rest 0 err ∧
      (addressCallback query before.length isTypeA answer).option = query.option := by
  have ⟨target', lastError, answered, result⟩ := addressCallback_spec loop.srv isTypeA answer
  have ⟨clear', done⟩ := settled_answered clear answered
  have idle := loop.called
  rw [result]
  generalize same : ({ query with
    srv := before ++ target' :: rest
    lastError := lastError
    hostResolved := if target.other isTypeA = .null then query.hostResolved + 1
      else query.hostResolved } : AsyncQuery) = query'
  have ⟨srv, option, count, waits, ends⟩ := finish_spec query'
  have count' : query'.hostResolved = if target.other isTypeA = .null then query.hostResolved + 1
      else query.hostResolved := by rw [← same]
  have srv' : query'.srv = before ++ target' :: rest := by rw [← same]
  have called' : query'.called = [] := by
    rw [← same]
    exact idle.1
  have option' : query'.option = query.option := by rw [← same]
  refine ⟨target', ⟨?_, loop.fresh, ?_⟩, option.trans option'⟩
  · rw [srv, srv', append_assoc, singleton_append]
  · cases loop.progress with
    | bad some' => exact absurd some' (Nat.lt_irrefl 0)
    | good none success clear others called =>
      refine .good none success ?_ ?_ ?_
      · intro other member
        rcases mem_append.mp member with member | member
        · exact clear other member
        · rw [mem_singleton.mp member]
          exact clear'
      · rw [count, count', countP_append, others]
        by_cases finished : target.other isTypeA = .null
        · rw [if_pos finished, countP_cons_of_pos (done.mpr finished), countP_nil]
          omega
        · have open' : ¬settled target' = true := fun closed => finished (done.mp closed)
          rw [if_neg finished, countP_cons_of_neg open', countP_nil]
          omega
      · rw [count, srv]
        by_cases all : query'.hostResolved = query'.srv.length
        · rw [if_pos all, ends all, called']
          rfl
        · rw [if_neg all, waits all, called']
          rfl

/-- The target of the loop is changed. -/
theorem Loop.update (loop : Loop query before target rest errCnt err) {query' : AsyncQuery}
    (srv : query'.srv = before ++ target' :: rest)
    (count : query'.hostResolved = query.hostResolved) (called : query'.called = query.called) :
    Loop query' before target' rest errCnt err := by
  have length : query'.srv.length = query.srv.length := by
    rw [srv, loop.srv, length_append, length_append, length_cons, length_cons]
  refine ⟨srv, loop.fresh, ?_⟩
  cases loop.progress with
  | good none success clear others held =>
    refine .good none success clear (count.trans others) ?_
    rw [called, count, length]
    exact held
  | bad some' failure all others bare held =>
    exact .bad some' failure all (count.trans others) bare (called.trans held)

/-- The answer to one query of the target of the loop, while the other one is to come. -/
theorem Loop.waiting (loop : Loop query before target rest errCnt err)
    (waits : target.other isTypeA ≠ .null) (answer : Answer) :
    ∃ target', Answered target isTypeA target' ∧
      Loop (addressCallback query before.length isTypeA answer) before target' rest errCnt err ∧
      (addressCallback query before.length isTypeA answer).option = query.option := by
  have ⟨target', lastError, answered, result⟩ := addressCallback_spec loop.srv isTypeA answer
  rw [if_neg waits] at result
  have length : (before ++ target' :: rest).length = query.srv.length := by
    rw [loop.srv, length_append, length_append, length_cons, length_cons]
  have idle : query.hostResolved ≠ (before ++ target' :: rest).length := by
    rw [length]
    exact Nat.ne_of_lt loop.called.2
  rw [result]
  have ⟨srv, option, count, waits', _⟩ := finish_spec { query with
    srv := before ++ target' :: rest, lastError := lastError, hostResolved := query.hostResolved }
  exact ⟨target', answered, loop.update srv count (waits' idle), option⟩

/-- A host whose query is pending. -/
theorem Loop.pending (loop : Loop query before target rest 0 err) (clear : target'.Clear)
    (open' : settled target' = false) :
    Ready { query with srv := query.srv.set before.length target' } (before ++ [target']) rest 0 err := by
  have idle := loop.called
  have length : (query.srv.set before.length target').length = query.srv.length := length_set
  refine ⟨?_, loop.fresh, ?_⟩
  · rw [loop.srv, set_mid, append_assoc, singleton_append]
  · cases loop.progress with
    | bad some' => exact absurd some' (Nat.lt_irrefl 0)
    | good none success clear' others called =>
      refine .good none success ?_ ?_ ?_
      · intro other member
        rcases mem_append.mp member with member | member
        · exact clear' other member
        · rw [mem_singleton.mp member]
          exact clear
      · rw [countP_append, countP_cons_of_neg (by simp [open']), countP_nil, Nat.add_zero]
        exact others
      · rw [length]
        exact called

/-- A host whose query could not be started, like those before. -/
theorem Loop.failed (loop : Loop query before target rest errCnt err) (failure : Failure)
    (all : errCnt = before.length) (bare : ∀ target ∈ rest, target.addr = []) :
    Ready { query with hostResolved := query.hostResolved + 1 } (before ++ [target]) rest (errCnt + 1)
      failure.status := by
  have idle := loop.called
  refine ⟨?_, loop.fresh, ?_⟩
  · rw [append_assoc, singleton_append]
    exact loop.srv
  · have length : (before ++ [target]).length = before.length + 1 := length_append
    have count : query.hostResolved = before.length := by
      cases loop.progress with
      | good none _ _ count _ =>
        have first : before = [] := eq_nil_of_length_eq_zero (all.symm.trans none)
        have away : rest.countP located = 0 := by
          apply countP_eq_zero.mpr
          intro other member
          simp [located, bare other member]
        rw [count, first, away]
        rfl
      | bad _ _ _ count _ _ => exact count
    exact .bad (Nat.succ_pos errCnt) failure.failure (by omega) (by
      change query.hostResolved + 1 = _
      omega) bare idle.1

/-! ## Steps -/

/-- The start of a query fails. -/
def Start.fails : Start → Bool
  | .failed _ _ => true
  | _ => false

/-- A start fails for the first target without addresses, and for every one before and behind it: it
fails after those of all targets before, while no target behind has addresses. The last start of a
target succeeds after those of all targets before. -/
def StartsTogether (query : AsyncQuery) (i errCnt : Nat) (isLast : Bool) (start : Start) : Prop :=
  if start.fails then errCnt = i ∧ ∀ target ∈ query.srv.drop (i + 1), target.addr = []
  else isLast = true → errCnt = 0

/-- Either no start of a query fails, or one does for every target, before any is answered later. -/
def FailsTogether (state : State) : Event → Prop
  | .srv _ _ _ => True
  | .start start =>
    match state.phase with
    | .startA i errCnt _ =>
      StartsTogether state.query i errCnt (!state.query.option.resolveAaaa) start
    | .startAaaa i errCnt _ => StartsTogether state.query i errCnt true start
    | _ => True
  | .answer _ _ _ =>
    match state.phase with
    | .startA _ errCnt _ | .startAaaa _ errCnt _ => errCnt = 0
    | _ => True

theorem Loop.drop (loop : Loop query before target rest errCnt err) :
    query.srv.drop (before.length + 1) = rest := by
  rw [loop.srv, drop_append, drop_eq_nil_of_le (Nat.le_succ _), nil_append,
    Nat.add_sub_cancel_left]
  rfl

theorem inv_afterHost (ready : Ready query (before ++ [target]) rest errCnt err)
    (option : query.option.resolveAaaaOnly = true → query.option.resolveAaaa = true) :
    Inv (afterHost query before.length errCnt err) := by
  have length : query.srv.length - (before.length + 1) = rest.length := by
    rw [ready.srv, length_append, length_append, length_singleton]
    omega
  rw [afterHost, length]
  exact inv_resolveHostnames ready option

section
variable {start : Start} (loop : Loop query before target rest errCnt err)
  (option : query.option.resolveAaaaOnly = true → query.option.resolveAaaa = true)
include loop option

/-- The start of a query of type A. -/
theorem inv_startA (qAaaa : target.qAaaa = if query.option.resolveAaaa then .dummy else .null)
    (together : StartsTogether query before.length errCnt (!query.option.resolveAaaa) start) :
    Inv (startA query before.length errCnt err start) := by
  cases start with
  | failed failure cleared =>
    obtain ⟨all, bare⟩ : errCnt = before.length ∧ _ := together
    rw [loop.drop] at bare
    exact inv_afterHost (loop.failed failure all bare) option
  | pending =>
    have here : query.srv.getD before.length .zero = target := by
      rw [loop.srv, getD_mid]
    simp only [startA, AsyncQuery.setA, here]
    cases aaaa : query.option.resolveAaaa with
    | true =>
      rw [aaaa, if_pos rfl] at qAaaa
      have srv : query.srv.set before.length { target with qA := .pending } =
          before ++ { target with qA := .pending } :: rest := by
        rw [loop.srv, set_mid]
      have other : target.qAaaa ≠ .pending := by
        rw [qAaaa]
        nofun
      exact ⟨option, before, { target with qA := .pending }, rest, rfl, loop.update srv rfl rfl, nofun,
        other, fun _ => qAaaa⟩
    | false =>
      rw [aaaa, if_neg Bool.false_ne_true] at qAaaa
      have none : errCnt = 0 := together (by rw [aaaa]; rfl)
      rw [none] at loop ⊢
      refine inv_afterHost (loop.pending ⟨nofun, ?_⟩ rfl) option
      rw [qAaaa]
      nofun
  | cached answer =>
    simp only [startA]
    cases aaaa : query.option.resolveAaaa with
    | true =>
      rw [aaaa, if_pos rfl] at qAaaa
      have waits : target.other true ≠ .null := by
        rw [SrvTarget.other, if_pos rfl, qAaaa]
        nofun
      have ⟨target', answered, loop', same⟩ := loop.waiting waits answer
      have own : target'.qA = .null := answered.own
      have other : target'.qAaaa = .dummy := answered.other.trans qAaaa
      rw [if_pos (by rw [same, aaaa])]
      refine ⟨?_, before, target', rest, rfl, loop', ?_, ?_, fun _ => other⟩
      · rw [same]
        exact option
      · rw [own]
        nofun
      · rw [other]
        nofun
    | false =>
      rw [aaaa, if_neg Bool.false_ne_true] at qAaaa
      have none : errCnt = 0 := together (by rw [aaaa]; rfl)
      rw [none] at loop ⊢
      have clear : target.other true ≠ .dummy := by
        rw [SrvTarget.other, if_pos rfl, qAaaa]
        nofun
      have ⟨target', ready, same⟩ := loop.cached true clear answer
      rw [same, aaaa]
      apply inv_afterHost ready
      rw [same]
      exact option

/-- The start of a query of type AAAA. -/
theorem inv_startAaaa (clear : target.qA ≠ .dummy)
    (together : StartsTogether query before.length errCnt true start) :
    Inv (startAaaa query before.length errCnt err start) := by
  have here : query.srv.getD before.length .zero = target := by
    rw [loop.srv, getD_mid]
  cases start with
  | failed failure cleared =>
    obtain ⟨all, bare⟩ : errCnt = before.length ∧ _ := together
    rw [loop.drop] at bare
    cases cleared with
    | false => exact inv_afterHost (loop.failed failure all bare) option
    | true =>
      have srv : (query.setAaaa before.length .null).srv =
          before ++ { target with qAaaa := .null } :: rest := by
        rw [AsyncQuery.setAaaa, here]
        rw [loop.srv, set_mid]
      have loop' : Loop (query.setAaaa before.length .null) before { target with qAaaa := .null } rest
          errCnt err := loop.update srv rfl rfl
      exact inv_afterHost (loop'.failed failure all bare) option
  | pending =>
    have none : errCnt = 0 := together rfl
    rw [none] at loop ⊢
    simp only [startAaaa, AsyncQuery.setAaaa, here]
    refine inv_afterHost (loop.pending ⟨clear, nofun⟩ ?_) option
    simp [settled]
  | cached answer =>
    have none : errCnt = 0 := together rfl
    rw [none] at loop ⊢
    have ⟨target', ready, same⟩ := loop.cached false clear answer
    apply inv_afterHost ready
    rw [same]
    exact option

end

/-! ## Answers later -/

/-- The query of a type is pending. -/
def SrvTarget.IsPending (target : SrvTarget) (isTypeA : Bool) : Prop :=
  (if isTypeA then target.qA else target.qAaaa) = .pending

theorem SrvTarget.Fresh.not_pending (fresh : target.Fresh) (isTypeA : Bool) :
    ¬target.IsPending isTypeA := by
  intro pending
  cases isTypeA with
  | true => exact absurd (fresh.1.symm.trans pending) nofun
  | false => exact absurd (fresh.2.symm.trans pending) nofun

theorem exists_mid {srv : List SrvTarget} (inside : i < srv.length) :
    ∃ before target rest, srv = before ++ target :: rest ∧ before.length = i := by
  refine ⟨srv.take i, srv[i], srv.drop (i + 1), ?_, length_take_of_le (Nat.le_of_lt inside)⟩
  rw [getElem_cons_drop, take_append_drop]

/-- An answer settles a target if its other query is done. -/
theorem countP_answered (clear : target.Clear) (pending : target.IsPending isTypeA)
    (answered : Answered target isTypeA target') :
    target'.Clear ∧ (before ++ target' :: rest).countP settled =
      (before ++ target :: rest).countP settled + if target.other isTypeA = .null then 1 else 0 := by
  have clearOther : target.other isTypeA ≠ .dummy := by
    cases isTypeA with
    | true => exact clear.2
    | false => exact clear.1
  have open' : ¬settled target = true := by
    cases isTypeA with
    | true =>
      have own : target.qA = .pending := pending
      simp [settled, own]
    | false =>
      have own : target.qAaaa = .pending := pending
      simp [settled, own]
  have ⟨clear', done⟩ := settled_answered clearOther answered
  refine ⟨clear', ?_⟩
  rw [countP_append, countP_append, countP_cons_of_neg open']
  by_cases finished : target.other isTypeA = .null
  · rw [if_pos finished, countP_cons_of_pos (done.mpr finished)]
    omega
  · rw [if_neg finished, countP_cons_of_neg fun closed => finished (done.mp closed)]
    omega

/-- The answer to a query of a target before that of the loop. -/
theorem Loop.earlier (loop : Loop query before target rest 0 err) (inside : i < before.length)
    (pending : (query.srv.getD i .zero).IsPending isTypeA) (answer : Answer) :
    ∃ before', before'.length = before.length ∧
      Loop (addressCallback query i isTypeA answer) before' target rest 0 err ∧
      (addressCallback query i isTypeA answer).option = query.option := by
  have ⟨first, held, later, same, place⟩ := exists_mid inside
  have srv : query.srv = first ++ held :: (later ++ target :: rest) := by
    rw [loop.srv, same, append_assoc, cons_append]
  rw [srv, ← place, getD_mid] at pending
  have ⟨held', lastError, answered, result⟩ := addressCallback_spec srv isTypeA answer
  rw [place] at result
  have length : (first ++ held' :: later).length = before.length := by
    rw [same, length_append, length_append, length_cons, length_cons]
  have srv' : first ++ held' :: (later ++ target :: rest) =
      (first ++ held' :: later) ++ target :: rest := by
    rw [append_assoc, cons_append]
  cases loop.progress with
  | bad some' => exact absurd some' (Nat.lt_irrefl 0)
  | good none success clear count called =>
    have clearHeld : held.Clear := by
      apply clear
      rw [same]
      exact mem_append_right _ mem_cons_self
    have ⟨clear', count'⟩ := @countP_answered first later held _ held' clearHeld pending answered
    rw [← same] at count'
    have resolved : (if held.other isTypeA = .null then query.hostResolved + 1 else query.hostResolved) =
        (first ++ held' :: later).countP settled + rest.countP located := by
      rw [count', count]
      split
      · omega
      · omega
    have few := countP_le settled (first ++ held' :: later)
    have few' := countP_le located rest
    have total : ((first ++ held' :: later) ++ target :: rest).length =
        (first ++ held' :: later).length + (rest.length + 1) := by
      rw [length_append, length_cons]
    rw [srv', resolved] at result
    have ⟨srvEnd, option, countEnd, waits, _⟩ := finish_spec { query with
      srv := (first ++ held' :: later) ++ target :: rest
      lastError := lastError
      hostResolved := (first ++ held' :: later).countP settled + rest.countP located }
    rw [← result] at srvEnd option countEnd waits
    have away : (first ++ held' :: later).countP settled + rest.countP located ≠
        ((first ++ held' :: later) ++ target :: rest).length := by
      omega
    have waiting := waits away
    have idle := loop.called.1
    refine ⟨_, length, ⟨srvEnd, loop.fresh, .good none success ?_ countEnd ?_⟩, option⟩
    · intro other member
      rcases mem_append.mp member with member | member
      · apply clear
        rw [same]
        exact mem_append_left _ member
      · rcases mem_cons.mp member with now | member
        · rw [now]
          exact clear'
        · apply clear
          rw [same]
          exact mem_append_right _ (mem_cons_of_mem _ member)
    · rw [waiting, countEnd, srvEnd, if_neg away]
      exact congrArg List.length idle

/-- The answer to a query after the loop. -/
theorem Over.answer (over' : Over query) (pending : (query.srv.getD i .zero).IsPending isTypeA)
    (answer : Answer) :
    Over (addressCallback query i isTypeA answer) ∧
      (addressCallback query i isTypeA answer).option = query.option := by
  have inside : i < query.srv.length := by
    by_contra outside
    rw [getD_eq_default _ _ (Nat.le_of_not_lt outside)] at pending
    exact zero_bare.1.not_pending isTypeA pending
  have ⟨first, held, later, srv, place⟩ := exists_mid inside
  rw [srv, ← place, getD_mid] at pending
  have ⟨held', lastError, answered, result⟩ := addressCallback_spec srv isTypeA answer
  rw [place] at result
  have clearHeld : held.Clear := by
    apply over'.clear
    rw [srv]
    exact mem_append_right _ mem_cons_self
  have ⟨clear', count'⟩ := @countP_answered first later held _ held' clearHeld pending answered
  have resolved : (if held.other isTypeA = .null then query.hostResolved + 1 else query.hostResolved) =
      (first ++ held' :: later).countP settled := by
    rw [count', ← srv, over'.count]
    split
    · rfl
    · rfl
  rw [resolved] at result
  -- The host of the query was not settled, so the callback has not been called.
  have idle : query.called = [] := by
    have open' : ¬settled held = true := by
      cases isTypeA with
      | true =>
        have own : held.qA = .pending := pending
        simp [settled, own]
      | false =>
        have own : held.qAaaa = .pending := pending
        simp [settled, own]
    have fewer : query.srv.countP settled ≠ query.srv.length := by
      intro all
      apply open'
      apply countP_eq_length.mp all
      rw [srv]
      exact mem_append_right _ mem_cons_self
    have none := over'.called
    rw [over'.count, if_neg fewer] at none
    exact eq_nil_of_length_eq_zero none
  have ⟨srvEnd, option, countEnd, waits, ends⟩ := finish_spec { query with
    srv := first ++ held' :: later
    lastError := lastError
    hostResolved := (first ++ held' :: later).countP settled }
  rw [← result] at srvEnd option countEnd waits ends
  refine ⟨⟨?_, ?_, ?_⟩, option⟩
  · rw [srvEnd]
    intro other member
    rcases mem_append.mp member with member | member
    · apply over'.clear
      rw [srv]
      exact mem_append_left _ member
    · rcases mem_cons.mp member with now | member
      · rw [now]
        exact clear'
      · apply over'.clear
        rw [srv]
        exact mem_append_right _ (mem_cons_of_mem _ member)
  · rw [countEnd, srvEnd]
  · rw [countEnd, srvEnd]
    by_cases all : (first ++ held' :: later).countP settled = (first ++ held' :: later).length
    · rw [if_pos all, ends all]
      exact congrArg (List.length · + 1) idle
    · rw [if_neg all, waits all]
      exact congrArg List.length idle

/-! ## The answer with SRV records -/

/-- The targets are resolved, or there is nothing to ask for. -/
theorem inv_resolveTargets (counted : Counted query) (called : query.called = [])
    (option : query.option.resolveAaaaOnly = true → query.option.resolveAaaa = true) :
    Inv (resolveTargets query) := by
  have targets : ∃ query', (if query.srv = [] then query.fallback else query) = query' ∧
      Counted query' ∧ query'.called = [] ∧ query'.srv ≠ [] ∧
      (query'.option.resolveAaaaOnly = true → query'.option.resolveAaaa = true) := by
    by_cases none : query.srv = []
    · rw [if_pos none]
      refine ⟨_, rfl, ⟨?_, ?_⟩, called, nofun, ?_⟩
      · intro target member
        rw [mem_singleton.mp member]
        exact ⟨rfl, rfl⟩
      · have zero := counted.count
        rw [none] at zero
        exact zero
      · intro only
        exact (Bool.and_eq_true_iff.mp only).1
    · rw [if_neg none]
      exact ⟨query, rfl, counted, called, none, option⟩
  have ⟨query', same, counted', called', some', option'⟩ := targets
  unfold resolveTargets
  simp only [same]
  by_cases all : query'.hostResolved = query'.srv.length
  · rw [if_neg (not_not_intro all)]
    have ⟨srv, kept, count, _, ends⟩ := finish_spec query'
    have settledAll : query'.srv.countP settled = query'.srv.length :=
      countP_eq_length.mpr fun target member => (counted'.fresh target member).settled
    refine ⟨?_, ?_, ?_, ?_⟩
    · rw [kept]
      exact option'
    · rw [srv]
      exact fun target member => (counted'.fresh target member).clear
    · rw [count, srv, settledAll]
      exact all
    · rw [count, srv, if_pos all, ends all, called']
      rfl
  · rw [if_pos all]
    refine inv_resolveHostnames ⟨(nil_append _).symm, counted'.fresh, ?_⟩ option'
    refine .good rfl rfl (forall_mem_nil _) ?_ ?_
    · rw [countP_nil, Nat.zero_add]
      exact counted'.count
    · rw [if_neg all, called']
      rfl

theorem inv_srvCallback (inet : InetPton) (rand : Nat → Nat) (none : query.srv = [])
    (start : query.hostResolved = 0) (called : query.called = [])
    (option : query.option.resolveAaaaOnly = true → query.option.resolveAaaa = true) (answer : Answer) :
    Inv (srvCallback inet rand query answer) := by
  have bare : Counted query := by
    constructor
    · rw [none]
      exact forall_mem_nil _
    · rw [none]
      exact start
  cases answer with
  | ok response =>
    rw [srvCallback]
    split
    · exact inv_resolveTargets bare called option
    · have ⟨counted, same⟩ := buildServerEntries_counted inet rand response start
      apply inv_resolveTargets counted
      · rw [same.called]
        exact called
      · rw [same.option]
        exact option
  | error failed =>
    rw [srvCallback]
    split
    · refine ⟨option, over_onError _ ?_ called⟩
      rw [none]
      exact start
    · exact inv_resolveTargets ⟨bare.fresh, bare.count⟩ called option

/-! ## Runs -/

/-- Nothing is left to do: the answer with SRV records is there, the queries of all targets have been
started, and none of them is pending. -/
def Complete (state : State) : Prop :=
  state.phase = .returned ∧ ∀ target ∈ state.query.srv, target.qA ≠ .pending ∧ target.qAaaa ≠ .pending

/-- The callback is called once, at the end. -/
def CalledOnce (state : State) : Prop :=
  (Complete state → state.query.called.length = 1) ∧ (¬Complete state → state.query.called = [])

theorem Inv.calledOnce {state : State} (inv : Inv state) : CalledOnce state := by
  have ⟨query, phase⟩ := state
  have ⟨_, inv⟩ := inv
  have early : phase ≠ .returned → query.called = [] → CalledOnce ⟨query, phase⟩ :=
    fun going idle => ⟨fun complete => absurd complete.1 going, fun _ => idle⟩
  cases phase with
  | srv => exact early nofun inv.2.2
  | startA i errCnt err =>
    have ⟨before, target, rest, _, loop, _⟩ := inv
    exact early nofun loop.called.1
  | startAaaa i errCnt err =>
    have ⟨before, target, rest, _, loop, _⟩ := inv
    exact early nofun loop.called.1
  | returned =>
    have over' : Over query := inv
    have all : Complete ⟨query, .returned⟩ ↔ query.hostResolved = query.srv.length := by
      rw [over'.count, countP_eq_length]
      constructor
      · intro complete target member
        exact (over'.clear target member).settled_iff.mpr (complete.2 target member)
      · intro every
        refine ⟨rfl, fun target member => ?_⟩
        exact (over'.clear target member).settled_iff.mp (every target member)
    constructor
    · intro complete
      have called := over'.called
      rw [if_pos (all.mp complete)] at called
      exact called
    · intro going
      have called := over'.called
      rw [if_neg fun every => going (all.mpr every)] at called
      exact eq_nil_of_length_eq_zero called

theorem isPending_iff :
    query.isPending i isTypeA = true ↔ (query.srv.getD i .zero).IsPending isTypeA := by
  cases isTypeA with
  | true => exact decide_eq_true_iff
  | false => exact decide_eq_true_iff

/-- A query that is pending is one of the targets up to that of the loop. -/
theorem Loop.place (loop : Loop query before target rest errCnt err)
    (pending : (query.srv.getD i .zero).IsPending isTypeA) :
    i < before.length ∨ i = before.length ∧ target.IsPending isTypeA := by
  rcases Nat.lt_or_ge i before.length with earlier | later
  · exact .inl earlier
  · by_cases here : i = before.length
    · rw [here, loop.srv, getD_mid] at pending
      exact .inr ⟨here, pending⟩
    · have fresh : (rest.getD (i - (before.length + 1)) .zero).Fresh := by
        rw [getD_eq_getElem?_getD]
        cases found : rest[i - (before.length + 1)]? with
        | none => exact zero_bare.1
        | some held => exact loop.fresh held (mem_of_getElem? found)
      have same : query.srv.getD i .zero = rest.getD (i - (before.length + 1)) .zero := by
        rw [loop.srv, getD_append_right _ _ _ _ later]
        obtain ⟨more, split⟩ : ∃ more, i - before.length = more + 1 :=
          ⟨i - before.length - 1, by omega⟩
        rw [split, getD_cons_succ]
        congr 1
        omega
      rw [same] at pending
      exact absurd pending (fresh.not_pending isTypeA)

theorem inv_step {state : State} {event : Event} (inv : Inv state)
    (together : FailsTogether state event) : Inv (step state event) := by
  have ⟨query, phase⟩ := state
  cases event with
  | srv inet rand answer =>
    cases phase with
    | srv =>
      obtain ⟨option, none, start, called⟩ := inv
      exact inv_srvCallback inet rand none start called option answer
    | startA | startAaaa | returned => exact inv
  | start start =>
    cases phase with
    | startA i errCnt err =>
      have ⟨option, before, target, rest, place, loop, _, qAaaa⟩ := inv
      subst place
      exact inv_startA loop option qAaaa together
    | startAaaa i errCnt err =>
      have ⟨option, before, target, rest, place, loop, clear, _⟩ := inv
      subst place
      exact inv_startAaaa loop option clear together
    | srv | returned => exact inv
  | answer i isTypeA answer =>
    have waits : step ⟨query, phase⟩ (.answer i isTypeA answer) =
        if query.isPending i isTypeA then ⟨addressCallback query i isTypeA answer, phase⟩
        else ⟨query, phase⟩ := by
      cases phase with
      | srv | startA | startAaaa | returned => rfl
    rw [waits]
    by_cases pending : query.isPending i isTypeA = true
    · rw [if_pos pending]
      rw [isPending_iff] at pending
      cases phase with
      | srv =>
        obtain ⟨_, none, _⟩ := inv
        rw [none] at pending
        exact absurd pending (zero_bare.1.not_pending isTypeA)
      | startA place errCnt err =>
        have ⟨option, before, target, rest, here, loop, qA, qAaaa⟩ := inv
        have none : errCnt = 0 := together
        rw [none] at loop ⊢
        rcases loop.place pending with earlier | ⟨_, own⟩
        · have ⟨before', length, loop', same⟩ := loop.earlier earlier pending answer
          refine ⟨?_, before', target, rest, length.trans here, loop', qA, ?_⟩
          · rw [same]
            exact option
          · rw [same]
            exact qAaaa
        · cases isTypeA with
          | true => exact absurd (qA.symm.trans own) nofun
          | false =>
            have other : target.qAaaa = .pending := own
            rw [qAaaa] at other
            split at other
            · cases other
            · cases other
      | startAaaa place errCnt err =>
        have ⟨option, before, target, rest, here, loop, clear, idle, dummy⟩ := inv
        have none : errCnt = 0 := together
        rw [none] at loop ⊢
        rcases loop.place pending with earlier | ⟨now, own⟩
        · have ⟨before', length, loop', same⟩ := loop.earlier earlier pending answer
          refine ⟨?_, before', target, rest, length.trans here, loop', clear, idle, dummy⟩
          rw [same]
          exact option
        · cases isTypeA with
          | false => exact absurd own idle
          | true =>
            have other : target.qAaaa = .dummy := dummy own
            have waits : target.other true ≠ .null := by
              change target.qAaaa ≠ .null
              rw [other]
              nofun
            have ⟨target', answered, loop', same⟩ := loop.waiting waits answer
            have done : target'.qA = .null := answered.own
            have kept : target'.qAaaa = .dummy := answered.other.trans other
            rw [← now] at loop' same
            refine ⟨?_, before, target', rest, here, loop', ?_, ?_, fun _ => kept⟩
            · rw [same]
              exact option
            · rw [done]
              nofun
            · rw [kept]
              nofun
      | returned =>
        have ⟨option, over'⟩ := inv
        have ⟨over'', same⟩ := Over.answer over' pending answer
        refine ⟨?_, over''⟩
        rw [same]
        exact option
    · rw [if_neg pending]
      exact inv

/-- A name is no address. -/
def noInet : InetPton := ⟨fun _ => none, fun _ => none⟩

/-- A record of a target. -/
def srvRecord (target : Str) : ParsedRr := ⟨[115], typeSrv, 1, 60, 0, .srv 0 0 5060 target⟩

/-- A response with records. -/
def response (ans arr : List ParsedRr) : ParsedPacket where
  hdr := ⟨1, 0, 0, UInt16.ofNat ans.length, 0, UInt16.ofNat arr.length⟩
  q := []
  ans := ans
  ns := []
  arr := arr

/-- `PJLIB_UTIL_EDNSNOWORKINGNS`. -/
def noWorkingNs : Failure := ⟨320046, by decide⟩

/-- Two targets, of which the second one is answered from the cache and the first one later. -/
def cachedRun : List Event :=
  [.srv noInet (fun _ => 0) (.ok (response [srvRecord [97], srvRecord [98]] [])), .start .pending,
    .start (.cached (.error noWorkingNs)), .answer 0 true (.error noWorkingNs)]

/-- The resolution of a service with queries of type A. -/
def initial : State := ⟨pjDnsSrvResolve ⟨true, false, false, false⟩ [100] 5060, .srv⟩

/-- The first target has an address from an additional record, and no query can be started for the
second one: the callback is never called. -/
def failedRun : List Event :=
  [.srv noInet (fun _ => 0) (.ok (response [srvRecord [97], srvRecord [98]]
      [⟨[97], typeA, 1, 60, 4, .addr [127, 0, 0, 1]⟩])),
    .start (.failed noWorkingNs true)]

end Pj.Srv
