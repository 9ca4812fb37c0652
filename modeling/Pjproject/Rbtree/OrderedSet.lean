import Pjproject.Lib.Run
import Pjproject.Rbtree.Removal

/-!
# The tree as an ordered set

A client inserts elements and erases nodes that are in the tree. It gives an element its key before
it inserts it, and leaves the key alone while the element is in the tree. Nothing is assumed of the
colours of the nodes.
-/

namespace Pj.Rbtree
open List RedBlack

variable {ν κ : Type} [DecidableEq ν] {tree tree' : RbTree ν κ} {shape : Shape ν}
  {stored : List (ν × κ)}

/-- What the client does. -/
inductive Op (ν κ : Type)
  | insert (element : ν) (key : κ)
  | erase (node : ν)

/-- The tree, and the nodes that are in it with the keys they were inserted under. -/
abbrev State (ν κ : Type) := RbTree ν κ × List (ν × κ)

/-- The key of an element is set unless the element is in the tree. -/
def assign (tree : RbTree ν κ) (stored : List (ν × κ)) (element : ν) (key : κ) : RbTree ν κ :=
  if element ∈ stored.map Prod.fst then tree
  else { tree with key := Function.update tree.key element key }

/-- One operation. -/
def perform (state : State ν κ) : Op ν κ → Option (State ν κ)
  | .insert element key => do
    let (rv, tree) ← pjRbtreeInsert (assign state.1 state.2 element key) element
    return (tree, if rv = 0 then (element, key) :: state.2 else state.2)
  | .erase node =>
    if node ∈ state.2.map Prod.fst then do
      let (_, tree) ← pjRbtreeErase state.1 node
      return (tree, state.2.filter (·.1 ≠ node))
    else some state

/-- A step of a run. -/
def step (state : Option (State ν κ)) (op : Op ν κ) : Option (State ν κ) :=
  state.bind (perform · op)

/-- An empty tree, in a memory whose nodes may have any fields. -/
def start (memory : RbTree ν κ) (comp : RbtreeComp κ) : Option (State ν κ) :=
  some (pjRbtreeInit memory comp, [])

/-! ## The invariant of the runs -/

variable {element node : ν}

variable {key : κ}

/-- A tree of this shape has the nodes the client inserted, under their keys. -/
structure Holds (tree : RbTree ν κ) (stored : List (ν × κ)) (shape : Shape ν) : Prop where
  rep : Rep tree shape
  nodes : (shape.walk .left).Perm (stored.map Prod.fst)
  keys : ∀ entry ∈ stored, tree.key entry.1 = entry.2

omit [DecidableEq ν] in
theorem Holds.mem_iff (h : Holds tree stored shape) :
    node ∈ shape.walk .left ↔ node ∈ stored.map Prod.fst :=
  h.nodes.mem_iff

theorem init_holds (memory : RbTree ν κ) (comp : RbtreeComp κ) :
    Holds (pjRbtreeInit memory comp) [] .leaf := by
  have null : (pjRbtreeInit memory comp).color none = .black := by
    unfold pjRbtreeInit
    dsimp only
    rw [Function.update_self]
  have links : ∀ side, (pjRbtreeInit memory comp).link side none = none := by
    intro side
    unfold pjRbtreeInit
    dsimp only
    rw [Function.update_self]
  exact ⟨⟨⟨rfl, trivial, nodup_nil, links⟩, rfl, List.Pairwise.nil, rfl, null⟩,
    List.Perm.nil, nofun⟩

/-- The key of a node outside the tree is of no account. -/
theorem Holds.assigned (h : Holds tree stored shape) (element : ν) (key : κ) :
    Holds (assign tree stored element key) stored shape := by
  unfold assign
  split
  · exact h
  · next absent =>
    have other : ∀ node ∈ shape.walk .left,
        Function.update tree.key element key node = tree.key node := by
      intro node member
      refine Function.update_of_ne (fun same => absent ?_) key tree.key
      exact h.mem_iff.mp (same ▸ member)
    refine ⟨⟨h.rep.linked.of_untouched rfl fun _ => ⟨rfl, rfl, fun _ => rfl⟩, h.rep.size, ?_,
      h.rep.black, h.rep.null⟩, h.nodes, fun entry member => ?_⟩
    · refine h.rep.ordered.imp_of_mem fun {node later} member member' less => ?_
      dsimp only
      rw [other node member, other later member']
      exact less
    · have inside := h.mem_iff.mpr (mem_map_of_mem member)
      exact (other entry.1 inside).trans (h.keys entry member)

omit [DecidableEq ν] in
/-- The stored entries with an equal key, in the tree. -/
theorem Holds.equal_iff (h : Holds tree stored shape) :
    (∃ entry ∈ shape.walk .left, tree.comp.compare key (tree.key entry) = 0) ↔
      ∃ entry ∈ stored, tree.comp.compare key entry.2 = 0 := by
  constructor
  · rintro ⟨node, member, equal⟩
    obtain ⟨entry, inside, rfl⟩ := mem_map.mp (h.mem_iff.mp member)
    exact ⟨entry, inside, h.keys entry inside ▸ equal⟩
  · rintro ⟨entry, member, equal⟩
    refine ⟨entry.1, h.mem_iff.mpr (mem_map_of_mem member), ?_⟩
    rw [h.keys entry member]
    exact equal

theorem assign_comp : (assign tree stored element key).comp = tree.comp := by
  unfold assign
  split <;> rfl

/-- The key that an element has when it is inserted, unless it is there already. -/
theorem assign_key (absent : element ∉ stored.map Prod.fst) :
    (assign tree stored element key).key element = key := by
  rw [assign, if_neg absent]
  exact Function.update_self element key tree.key

section
variable (h : Holds tree stored shape)
include h

/-- An equal key. -/
theorem Holds.insert_equal
    (equal : ∃ entry ∈ stored, tree.comp.compare ((assign tree stored element key).key element)
    entry.2 = 0) :
    pjRbtreeInsert (assign tree stored element key) element =
      some (-1, assign tree stored element key) := by
  have assigned := h.assigned element key
  refine assigned.rep.insert_equal (assigned.equal_iff.mpr ?_)
  rw [assign_comp]
  exact equal

/-- A new key, of an element that is not in the tree. -/
theorem Holds.insert_new
    (new : ¬∃ entry ∈ stored, tree.comp.compare ((assign tree stored element key).key element)
    entry.2 = 0) :
    ∃ tree' shape', pjRbtreeInsert (assign tree stored element key) element = some (0, tree') ∧
      Holds tree' ((element, key) :: stored) shape' ∧
      ((∃ count, shape.Rules count) → ∃ count, shape'.Rules count) := by
  have assigned := h.assigned element key
  have comp : (assign tree stored element key).comp = tree.comp := assign_comp
  rw [← comp, ← assigned.equal_iff] at new
  push Not at new
  have absent : element ∉ stored.map Prod.fst := by
    intro inside
    exact new element (assigned.mem_iff.mpr inside) (RbtreeComp.self _ _)
  have ⟨tree', shape', before, after, inserted, rep, order, order', keys, _, rules⟩ :=
    assigned.rep.insert_new new
  refine ⟨tree', shape', inserted, ⟨rep, ?_, fun entry member => ?_⟩, rules⟩
  · rw [order', map_cons]
    refine perm_middle.trans (List.Perm.cons element ?_)
    rw [← order]
    exact h.nodes
  · rw [keys]
    rcases mem_cons.mp member with rfl | member
    · exact assign_key absent
    · exact assigned.keys entry member

/-- A node of the tree. -/
theorem Holds.erase (inside : node ∈ stored.map Prod.fst) :
    ∃ tree' shape', pjRbtreeErase tree node = some (node, tree') ∧
      Holds tree' (stored.filter (·.1 ≠ node)) shape' := by
  have ⟨tree', shape', before, after, erased, rep, order, order', keys, _⟩ :=
    h.rep.erase_eq (h.mem_iff.mpr inside)
  refine ⟨tree', shape', erased, rep, ?_, fun entry member => ?_⟩
  · have nodup : (shape.walk .left).Nodup := (nodup_append.mp h.rep.linked.nodup).1
    have rest : (before ++ after).Perm ((stored.map Prod.fst).filter (· ≠ node)) := by
      have filtered := h.nodes.filter (· ≠ node)
      rw [order] at filtered nodup
      have other : ∀ entry ∈ before ++ after, entry ≠ node := by
        intro entry member same
        exact (nodup_cons.mp (nodup_middle.mp nodup)).1 (same ▸ member)
      have alone : (before ++ node :: after).filter (· ≠ node) = before ++ after := by
        rw [filter_append, filter_cons_of_neg (by simp), ← filter_append]
        exact filter_eq_self.mpr fun entry member => decide_eq_true (other entry member)
      rw [alone] at filtered
      exact filtered
    rw [order', filter_map] at *
    exact rest
  · rw [keys]
    exact h.keys entry (mem_of_mem_filter member)

end

/-- Every operation keeps the invariant, for some shape. -/
theorem step_holds (state : Option (State ν κ)) (op : Op ν κ)
    (h : ∃ tree stored shape, state = some (tree, stored) ∧ Holds tree stored shape) :
    ∃ tree stored shape, step state op = some (tree, stored) ∧ Holds tree stored shape := by
  obtain ⟨tree, stored, shape, rfl, holds⟩ := h
  cases op with
  | insert element key =>
    by_cases equal : ∃ entry ∈ stored,
        tree.comp.compare ((assign tree stored element key).key element) entry.2 = 0
    · refine ⟨_, _, shape, ?_, holds.assigned element key⟩
      rw [step, Option.bind_some, perform, holds.insert_equal equal]
      rfl
    · have ⟨tree', shape', inserted, holds', _⟩ := holds.insert_new equal
      refine ⟨_, _, shape', ?_, holds'⟩
      rw [step, Option.bind_some, perform, inserted]
      rfl
  | erase node =>
    rw [step, Option.bind_some, perform]
    by_cases inside : node ∈ stored.map Prod.fst
    · have ⟨tree', shape', erased, holds'⟩ := holds.erase inside
      refine ⟨_, _, shape', ?_, holds'⟩
      rw [if_pos inside, erased]
      rfl
    · exact ⟨_, _, shape, if_neg inside, holds⟩

/-! ## What is seen of the set -/

/-- The tree is the set of the stored nodes, in the order of their keys. -/
structure IsSet (tree : RbTree ν κ) (stored : List (ν × κ)) : Prop where
  /-- `pj_rbtree_find` returns the node stored under the key, or `NULL`. -/
  find : ∀ key, ∃ result, pjRbtreeFind tree key = some result ∧
    ∀ node, result = some node ↔ ∃ entry ∈ stored, entry.1 = node ∧
      tree.comp.compare key entry.2 = 0
  /-- `pj_rbtree_insert` of an equal key returns -1 and changes nothing. -/
  insert_equal : ∀ element key,
    (∃ entry ∈ stored, tree.comp.compare ((assign tree stored element key).key element)
      entry.2 = 0) →
    pjRbtreeInsert (assign tree stored element key) element =
      some (-1, assign tree stored element key)
  /-- `pj_rbtree_insert` of another key returns 0. -/
  insert_new : ∀ element key,
    (¬∃ entry ∈ stored, tree.comp.compare ((assign tree stored element key).key element)
      entry.2 = 0) →
    ∃ tree', pjRbtreeInsert (assign tree stored element key) element = some (0, tree')
  /-- The walks from either end, and the links between the nodes, which are those of a tree. -/
  walks : ∃ nodes : List ν, ∃ shape : Shape ν, nodes.Perm (stored.map Prod.fst) ∧ nodes.Nodup ∧
    Ordered tree nodes ∧ tree.size = nodes.length ∧
    (pjRbtreeFirst tree).bind (visit tree .left tree.size) = some nodes ∧
    (pjRbtreeLast tree).bind (visit tree .right tree.size) = some nodes.reverse ∧
    At tree [] shape ∧ shape.walk .left = nodes

omit [DecidableEq ν] in
/-- At most one entry has an equal key. -/
theorem Ordered.unique {entries : List ν} (h : Ordered tree entries) {other : ν}
    (member : node ∈ entries) (equal : tree.comp.compare key (tree.key node) = 0)
    (member' : other ∈ entries) (equal' : tree.comp.compare key (tree.key other) = 0) :
    other = node := by
  obtain ⟨before, after, rfl⟩ := append_of_mem member
  have ⟨_, smaller, larger⟩ := h.parts
  rcases mem_append.mp member' with first | later
  · have less := RbtreeComp.lt_of_lt_of_le (smaller other first)
      (Int.le_of_eq (RbtreeComp.eq_swap equal))
    rw [RbtreeComp.eq_swap equal'] at less
    exact absurd less (Int.lt_irrefl 0)
  · rcases mem_cons.mp later with same | last
    · exact same
    · have less := RbtreeComp.lt_of_le_of_lt (Int.le_of_eq equal) (larger other last)
      rw [equal'] at less
      exact absurd less (Int.lt_irrefl 0)

omit [DecidableEq ν] in
theorem Rep.find_eq (h : Rep tree shape) (key : κ) :
    ∃ result, pjRbtreeFind tree key = some result ∧ ∀ node, result = some node ↔
      node ∈ shape.walk .left ∧ tree.comp.compare key (tree.key node) = 0 := by
  refine ⟨(shape.walk .left).find? fun entry => tree.comp.compare key (tree.key entry) = 0, ?_,
    fun node => ⟨fun found => ?_, fun ⟨member, equal⟩ => ?_⟩⟩
  · rw [pjRbtreeFind, h.linked.root_eq]
    exact h.linked.linked.findFrom_eq h.ordered key (Nat.le_succ_of_le h.levels_le)
  · have equal := find?_some found
    exact ⟨mem_of_find?_eq_some found, of_decide_eq_true equal⟩
  · have some : ((shape.walk .left).find? fun entry =>
        tree.comp.compare key (tree.key entry) = 0).isSome :=
      find?_isSome.mpr ⟨node, member, decide_eq_true equal⟩
    have ⟨other, found⟩ := Option.isSome_iff_exists.mp some
    have equal' := find?_some found
    rw [found, h.ordered.unique member equal (mem_of_find?_eq_some found)
      (of_decide_eq_true equal')]

/-- A walk from the first node on that side. -/
theorem Rep.visit_eq (h : Rep tree shape) (side : Side) :
    (outermost tree side (tree.size + 1) tree.root).bind (visit tree side tree.size) =
      some (shape.walk side) := by
  rw [h.linked.root_eq, h.linked.outermost_eq h.levels_le, Option.bind_some]
  refine h.linked.visit_eq h.size (nil_append _).symm (Nat.le_of_eq ?_)
  rw [h.size]
  exact (Shape.walk_perm side .left shape).length_eq

theorem Holds.isSet (h : Holds tree stored shape) : IsSet tree stored := by
  have rep := h.rep
  refine ⟨fun key => ?_, fun element key equal => h.insert_equal equal, fun element key new => ?_,
    shape.walk .left, shape, h.nodes, (nodup_append.mp rep.linked.nodup).1, rep.ordered,
    rep.size, rep.visit_eq .left, ?_, rep.linked, rfl⟩
  · have ⟨result, found, spec⟩ := rep.find_eq key
    refine ⟨result, found, fun node => (spec node).trans ⟨fun ⟨member, equal⟩ => ?_, ?_⟩⟩
    · obtain ⟨entry, inside, rfl⟩ := mem_map.mp (h.mem_iff.mp member)
      exact ⟨entry, inside, rfl, h.keys entry inside ▸ equal⟩
    · rintro ⟨entry, inside, rfl, equal⟩
      exact ⟨h.mem_iff.mpr (mem_map_of_mem inside), (h.keys entry inside).symm ▸ equal⟩
  · have ⟨tree', _, inserted, _⟩ := h.insert_new new
    exact ⟨tree', inserted⟩
  · rw [← Shape.walk_other .left]
    exact rep.visit_eq .right

/-- After any run of inserts and erases the tree is the set of the nodes that were inserted and
not erased. -/
theorem rbtree_refines_set (memory : RbTree ν κ) (comp : RbtreeComp κ) (ops : List (Op ν κ)) :
    ∃ tree stored, ops.foldl step (start memory comp) = some (tree, stored) ∧
      IsSet tree stored := by
  have begun : ∃ tree stored shape, start memory comp = some (tree, stored) ∧
      Holds tree stored shape := ⟨_, _, _, rfl, init_holds memory comp⟩
  have always : Run.Always step (fun state => ∃ tree stored shape, state = some (tree, stored) ∧
      Holds tree stored shape) (start memory comp) ops :=
    Run.always (fun state op holds _ => step_holds state op holds) begun
      (Run.meets_of_forall (fun _ _ => trivial) _ _)
  have ⟨tree, stored, shape, reached, holds⟩ := always.last
  exact ⟨tree, stored, reached, holds.isSet⟩

end Pj.Rbtree
