import Pjproject.Srv.Resolver

/-!
# The targets of an answer

After an answer with SRV records, no query of an address is pending, and the hosts that count as resolved
are those with addresses.
-/

namespace Pj.Srv
open List Dns Pjnath.Stun

/-- No query has been started for a target. -/
def SrvTarget.Fresh (target : SrvTarget) : Prop := target.qA = .null ∧ target.qAaaa = .null

/-- A target that has only been built. -/
def SrvTarget.Bare (target : SrvTarget) : Prop := target.Fresh ∧ target.addr = []

/-- A target with addresses. -/
def located (target : SrvTarget) : Bool := target.addr ≠ []

theorem zero_bare : SrvTarget.zero.Bare := ⟨⟨rfl, rfl⟩, rfl⟩

theorem targetOf_bare {rr : ParsedRr} {target : SrvTarget} (built : targetOf rr = some target) :
    target.Bare := by
  unfold targetOf at built
  split at built
  · cases built
  · split at built
    · split at built
      · cases built
      · cases built
        exact ⟨⟨rfl, rfl⟩, rfl⟩
    · cases built

/-! ## The order -/

variable {i : Nat}

variable {srv : List SrvTarget}

theorem mem_swap {j : Nat} {P : SrvTarget → Prop} (none : P .zero)
    (all : ∀ target ∈ srv, P target) : ∀ target ∈ SelectionSort.swap .zero srv i j, P target := by
  have place : ∀ i, P (srv.getD i .zero) := by
    intro i
    rw [getD_eq_getElem?_getD]
    cases found : srv[i]? with
    | none => exact none
    | some target => exact all target (mem_of_getElem? found)
  intro target member
  rcases mem_or_eq_of_mem_set member with member | same
  · rcases mem_or_eq_of_mem_set member with member | same
    · exact all target member
    · rw [same]
      exact place j
  · rw [same]
    exact place i

section
variable (bare : ∀ target ∈ srv, target.Bare)
include bare

theorem runningSums_bare (sum : Nat) : ∀ target ∈ runningSums sum srv, target.Bare := by
  induction srv generalizing sum with
  | nil => exact forall_mem_nil _
  | cons first rest ih =>
    have ⟨own, others⟩ := forall_mem_cons.mp bare
    exact forall_mem_cons.mpr ⟨own, ih others _⟩

theorem elect_bare (rand i : Nat) : ∀ target ∈ elect rand i srv, target.Bare := by
  have summed : ∀ target ∈ srv.take i ++ runningSums 0 ((srv.drop i).takeWhile fun target =>
      target.priority = (srv.getD i .zero).priority) ++ srv.drop (i + ((srv.drop i).takeWhile
        fun target => target.priority = (srv.getD i .zero).priority).length), target.Bare := by
    intro target member
    rcases mem_append.mp member with member | member
    · rcases mem_append.mp member with member | member
      · exact bare target (mem_of_mem_take member)
      · apply runningSums_bare _ 0 target member
        intro other inside
        exact bare other (mem_of_mem_drop ((takeWhile_sublist _).mem inside))
    · exact bare target (mem_of_mem_drop member)
  unfold elect
  dsimp only
  split
  · exact mem_swap zero_bare summed
  · exact summed

theorem electAll_bare (rand : Nat → Nat) :
    ∀ target ∈ electAll rand (sortByPriority srv), target.Bare := by
  have sorted : ∀ target ∈ sortByPriority srv, target.Bare := by
    intro target member
    have perm := (SelectionSort.tracks_sort (fun target => 65535 - target.priority) .zero srv).perm
    exact bare target (perm.mem_iff.mp member)
  unfold electAll
  generalize List.range (sortByPriority srv).length = rounds
  generalize sortByPriority srv = targets at sorted ⊢
  induction rounds generalizing targets with
  | nil => exact sorted
  | cons i rest ih => exact ih _ (elect_bare sorted (rand i) i)

end

/-! ## The addresses -/

variable {query : AsyncQuery}

/-- The hosts that are resolved are the targets with addresses. -/
structure Counted (query : AsyncQuery) : Prop where
  fresh : ∀ target ∈ query.srv, target.Fresh
  count : query.hostResolved = query.srv.countP located

/-- What the answer leaves as it is. -/
structure SameJob (query query' : AsyncQuery) : Prop where
  option : query'.option = query.option
  called : query'.called = query.called

theorem SameJob.trans {query' query'' : AsyncQuery} (one : SameJob query query')
    (other : SameJob query' query'') : SameJob query query'' :=
  ⟨other.option.trans one.option, other.called.trans one.called⟩

theorem located_add (target : SrvTarget) (address : Address) : located (target.add address) = true := by
  simp [located, SrvTarget.add]

theorem getD_of_lt (inside : i < srv.length) :
    srv.getD i .zero = srv[i] := SelectionSort.getD_of_lt inside

/-- A target gets an address, and is counted if it had none. -/
theorem Counted.add (counted : Counted query) (inside : i < query.srv.length) (address : Address) :
    Counted { query with
      srv := query.srv.set i ((query.srv.getD i .zero).add address)
      hostResolved := if (query.srv.getD i .zero).addr = [] then query.hostResolved + 1
        else query.hostResolved } := by
  rw [getD_of_lt inside]
  constructor
  · intro target member
    rcases mem_or_eq_of_mem_set member with member | same
    · exact counted.fresh target member
    · have before := counted.fresh _ (getElem_mem inside)
      rw [same]
      exact ⟨before.1, before.2⟩
  · change (if query.srv[i].addr = [] then _ else _) = (query.srv.set i _).countP located
    rw [countP_set inside, located_add, if_pos rfl, counted.count]
    by_cases none : query.srv[i].addr = []
    · have unlocated : ¬located query.srv[i] = true := by simp [located, none]
      rw [if_pos none, if_neg unlocated]
      omega
    · have here : located query.srv[i] = true := by simp [located, none]
      have positive : 0 < query.srv.countP located :=
        countP_pos_iff.mpr ⟨_, getElem_mem inside, here⟩
      rw [if_neg none, if_pos here]
      omega

theorem addRecord_counted (counted : Counted query) (rr : ParsedRr) :
    Counted (addRecord query rr) ∧ SameJob query (addRecord query rr) := by
  unfold addRecord
  split
  · exact ⟨counted, rfl, rfl⟩
  · split
    · exact ⟨counted, rfl, rfl⟩
    · rename_i j found
      have inside := (findIdx?_eq_some_iff_getElem.mp found).1
      exact ⟨counted.add inside (addressOf rr), rfl, rfl⟩

theorem addRecords_counted (counted : Counted query) (arr : List ParsedRr) :
    Counted (arr.foldl addRecord query) ∧ SameJob query (arr.foldl addRecord query) := by
  induction arr generalizing query with
  | nil => exact ⟨counted, rfl, rfl⟩
  | cons rr rest ih =>
    have first := addRecord_counted counted rr
    have later := ih first.1
    exact ⟨later.1, first.2.trans later.2⟩

theorem addLiteral_counted (inet : InetPton) (counted : Counted query)
    (inside : i < query.srv.length) :
    Counted (addLiteral inet query i) ∧ SameJob query (addLiteral inet query i) ∧
      (addLiteral inet query i).srv.length = query.srv.length := by
  unfold addLiteral
  dsimp only
  split
  · exact ⟨counted, ⟨rfl, rfl⟩, rfl⟩
  · rename_i address found
    have none : (query.srv.getD i .zero).addr = [] := by
      unfold literalOf at found
      by_contra some'
      rw [if_pos some'] at found
      cases found
    have added := counted.add inside address
    rw [if_pos none] at added
    exact ⟨added, ⟨rfl, rfl⟩, length_set⟩

theorem addLiterals_counted (inet : InetPton) (counted : Counted query) {rounds : List Nat}
    (inside : ∀ i ∈ rounds, i < query.srv.length) :
    Counted (rounds.foldl (addLiteral inet) query) ∧
      SameJob query (rounds.foldl (addLiteral inet) query) := by
  induction rounds generalizing query with
  | nil => exact ⟨counted, rfl, rfl⟩
  | cons i rest ih =>
    have ⟨own, others⟩ := forall_mem_cons.mp inside
    have ⟨first, same, length⟩ := addLiteral_counted inet counted own
    rw [← length] at others
    have later := ih first others
    exact ⟨later.1, same.trans later.2⟩

/-- After an answer with SRV records, the hosts that are resolved are those with addresses. -/
theorem buildServerEntries_counted (inet : InetPton) (rand : Nat → Nat) (response : ParsedPacket)
    (start : query.hostResolved = 0) :
    Counted (buildServerEntries inet rand query response) ∧
      SameJob query (buildServerEntries inet rand query response) := by
  have built : ∀ target ∈ (response.ans.filterMap targetOf).take pjDnsSrvMaxAddr, target.Bare := by
    intro target member
    have ⟨rr, _, same⟩ := mem_filterMap.mp (mem_of_mem_take member)
    exact targetOf_bare same
  unfold buildServerEntries
  dsimp only
  split
  · exact ⟨⟨forall_mem_nil _, start⟩, rfl, rfl⟩
  · have bare := electAll_bare built rand
    generalize electAll rand (sortByPriority _) = srv at bare ⊢
    have counted : Counted { query with srv := srv } := by
      refine ⟨fun target member => (bare target member).1, ?_⟩
      have none : srv.countP located = 0 := by
        apply countP_eq_zero.mpr
        intro target member
        simp [located, (bare target member).2]
      exact start.trans none.symm
    have records := addRecords_counted counted response.arr
    have literals := addLiterals_counted inet records.1 fun i member => mem_range.mp member
    have ordered : SameJob query { query with srv := srv } := ⟨rfl, rfl⟩
    exact ⟨literals.1, (ordered.trans records.2).trans literals.2⟩

end Pj.Srv
