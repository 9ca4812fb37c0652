import Pjproject.Rbtree.Links

/-!
# Ways through a red-black tree

The loops that go down or up the links without writing any: to the first and the last node, to the
neighbours of a node, and down to a key.
-/

namespace Pj
open Option List

/-! ## The comparison -/

namespace RbtreeComp

variable {κ : Type} (comp : RbtreeComp κ) {key1 key2 key3 : κ}

theorem not_lt {comp : RbtreeComp κ} : ¬comp.compare key1 key2 < 0 ↔ comp.compare key2 key1 ≤ 0 := by
  rw [comp.swap, Int.not_lt]

theorem lt_of_le_of_lt {comp : RbtreeComp κ} (h : comp.compare key1 key2 ≤ 0)
    (h' : comp.compare key2 key3 < 0) : comp.compare key1 key3 < 0 := by
  by_contra not
  exact not_lt.mpr (comp.trans _ _ _ (not_lt.mp not) h) h'

theorem lt_of_lt_of_le {comp : RbtreeComp κ} (h : comp.compare key1 key2 < 0)
    (h' : comp.compare key2 key3 ≤ 0) : comp.compare key1 key3 < 0 := by
  by_contra not
  exact not_lt.mpr (comp.trans _ _ _ h' (not_lt.mp not)) h

/-- Equal keys are equal the other way round. -/
theorem eq_swap {comp : RbtreeComp κ} (h : comp.compare key1 key2 = 0) :
    comp.compare key2 key1 = 0 := by
  have forward := comp.swap key1 key2
  have backward := comp.swap key2 key1
  omega

theorem self (key : κ) : comp.compare key key = 0 := by
  have same := comp.swap key key
  omega

end RbtreeComp

namespace Rbtree
open RedBlack

variable {ν κ : Type} {tree : RbTree ν κ} {context : Context ν} {subtree : Shape ν} {side : Side}

/-! ## First, last and next -/

variable {fuel : Nat}

/-- Down one side to its outermost node. -/
theorem At.outermost_eq (h : At tree context subtree) (enough : subtree.levels ≤ fuel) :
    outermost tree side (fuel + 1) subtree.top = some (subtree.walk side).head? := by
  induction subtree using Shape.join_induction side generalizing context fuel with
  | leaf =>
    exact if_neg (not_not.mpr (h.null side))
  | join color near entry far ih _ =>
    rw [Shape.levels_join] at enough
    rw [outermost, Shape.top_join, h.fields.2.2.1, Shape.walk_join]
    cases below : near.top with
    | none =>
      rw [Shape.top_eq_none.mp below]
      rfl
    | some child =>
      have member : child ∈ near.walk side := Shape.top_mem below
      obtain ⟨less, rfl⟩ : ∃ less, fuel = less + 1 := ⟨fuel - 1, by omega⟩
      rw [if_pos (some_ne_none child), ← below, ih h.near (by omega),
        head?_append_of_ne_nil _ (ne_nil_of_mem member)]

/-- Up from one side to the first node on whose other side the way was. -/
theorem At.climb_eq [DecidableEq ν] (h : At tree context subtree) {entry : ν}
    (top : subtree.top = some entry) (enough : context.length ≤ fuel) :
    climb tree side.other (fuel + 1) subtree.top context.above =
      some (context.after side).head? := by
  induction context generalizing subtree entry fuel with
  | nil =>
    exact if_neg fun goesOn => goesOn.1 rfl
  | cons frame up ih =>
    have apart := h.link_ne top
    have link := h.above_links.1
    rw [climb, Context.above, Context.after]
    by_cases same : frame.side = side
    · rw [if_pos same]
      rw [same, ← top] at apart
      exact if_neg fun goesOn => apart goesOn.2
    · rw [Side.eq_other same] at link
      obtain ⟨less, rfl⟩ : ∃ less, fuel = less + 1 := by
        refine ⟨fuel - 1, ?_⟩
        rw [length_cons] at enough
        omega
      have filled := at_cons.mp h
      have topFill : (frame.fill subtree).top = some frame.entry := Shape.top_join _ _ _ _ _
      rw [if_pos ⟨by simp, link⟩, if_neg same, nil_append, h.around.1.1, ← topFill,
        ih filled topFill (Nat.le_of_succ_le_succ enough)]

/-- The next node is the first one after it, from below or from above. -/
theorem At.neighbour_eq [DecidableEq ν] {color : Color} {near far : Shape ν} {entry : ν}
    (h : At tree context (.join color side near entry far))
    (enough : far.levels ≤ tree.size) (enough' : context.length ≤ tree.size) :
    neighbour tree side entry = some (far.walk side ++ context.after side).head? := by
  rw [neighbour, h.fields.2.2.2]
  cases below : far.top with
  | none =>
    have climbed : climb tree side.other (tree.size + 1) (Shape.join color side near entry far).top
        context.above = some (context.after side).head? :=
      h.climb_eq (Shape.top_join color side near entry far) enough'
    rw [Shape.top_join] at climbed
    rw [if_neg (not_not.mpr rfl), h.fields.1, climbed, Shape.top_eq_none.mp below]
    rfl
  | some child =>
    have member : child ∈ far.walk side := Shape.top_mem below
    rw [if_pos (some_ne_none child), ← below, h.near.sibling.outermost_eq enough,
      head?_append_of_ne_nil _ (ne_nil_of_mem member)]

/-- A context has an entry for each of its frames. -/
theorem length_le_entries (context : Context ν) : context.length ≤ context.entries.length := by
  induction context with
  | nil => exact Nat.le_refl 0
  | cons frame up ih =>
    rw [Context.entries, length_cons, length_cons, length_append]
    omega

/-- The next node is the next one in the order. -/
theorem At.next_eq [DecidableEq ν] {shape : Shape ν} (h : At tree [] shape)
    (size : tree.size = (shape.walk .left).length) {entry : ν} {before after : List ν}
    (order : shape.walk side = before ++ entry :: after) :
    neighbour tree side entry = some after.head? := by
  have nodup : (shape.walk .left).Nodup := (nodup_append.mp h.nodup).1
  have member : entry ∈ shape.walk .left := by
    rw [(Shape.walk_perm .left side shape).mem_iff, order]
    exact mem_append_right _ mem_cons_self
  obtain ⟨context, subtree, rfl, top⟩ := Context.exists_plug member
  obtain ⟨color, near, far, rfl⟩ := Shape.exists_join side top
  have total := (Context.plug_perm context (.join color side near entry far)).length_eq
  rw [length_append,
    (Shape.walk_perm .left side (.join color side near entry far)).length_eq, Shape.walk_join,
    length_append, length_cons] at total
  have levels := far.levels_le_length
  rw [(Shape.walk_perm .left side far).length_eq] at levels
  have frames := length_le_entries context
  rw [At.neighbour_eq (at_plug.mpr h) (by omega) (by omega)]
  -- The two places of the entry in the order are one.
  rw [Context.walk_plug, Shape.walk_join] at order
  have apart : (before ++ entry :: after).Nodup := by
    rw [← order, ← Shape.walk_join color, ← Context.walk_plug]
    exact (Shape.walk_perm .left side _).nodup_iff.mp nodup
  have middle := nodup_middle.mp apart
  rw [nodup_cons, mem_append, not_or] at middle
  rw [append_assoc, ← append_assoc, cons_append] at order
  have ⟨_, _, same⟩ := (append_cons_inj_of_notMem middle.1.1 middle.1.2).mp order.symm
  rw [same]

/-- A caller's loop from a node on, over `pj_rbtree_next` or `pj_rbtree_prev`. -/
def visit [DecidableEq ν] (tree : RbTree ν κ) (side : Side) : Nat → Option ν → Option (List ν)
  | _, none => some []
  | 0, some _ => none
  | fuel + 1, some node => do
    let next ← neighbour tree side node
    let rest ← visit tree side fuel next
    return node :: rest

theorem At.visit_eq [DecidableEq ν] {shape : Shape ν} (h : At tree [] shape)
    (size : tree.size = (shape.walk .left).length) {before after : List ν}
    (order : shape.walk side = before ++ after) (enough : after.length ≤ fuel) :
    visit tree side fuel after.head? = some after := by
  induction after generalizing before fuel with
  | nil => rw [head?_nil, visit]
  | cons entry rest ih =>
    obtain ⟨less, rfl⟩ : ∃ less, fuel = less + 1 := by
      refine ⟨fuel - 1, ?_⟩
      rw [length_cons] at enough
      omega
    have later : visit tree side less rest.head? = some rest :=
      ih (order.trans (append_cons before entry rest)) (Nat.le_of_succ_le_succ enough)
    rw [head?_cons, visit, h.next_eq size order, bind_eq_bind, bind_some, later]
    rfl

/-! ## The way to a key -/

/-- The entries are in the order of their keys. -/
def Ordered (tree : RbTree ν κ) (entries : List ν) : Prop :=
  entries.Pairwise fun entry later => tree.comp.compare (tree.key entry) (tree.key later) < 0

/-- A key is between the entries before and after a hole. -/
structure Between (tree : RbTree ν κ) (key : κ) (context : Context ν) : Prop where
  before : ∀ entry ∈ context.before .left, tree.comp.compare (tree.key entry) key < 0
  after : ∀ entry ∈ context.after .left, tree.comp.compare key (tree.key entry) < 0

/-- A node parts the entries around it. -/
theorem Ordered.parts {before after : List ν} {entry : ν}
    (h : Ordered tree (before ++ entry :: after)) :
    (Ordered tree before ∧ Ordered tree after) ∧
      (∀ other ∈ before, tree.comp.compare (tree.key other) (tree.key entry) < 0) ∧
      ∀ other ∈ after, tree.comp.compare (tree.key entry) (tree.key other) < 0 := by
  have ⟨first, rest, across⟩ := pairwise_append.mp h
  have ⟨least, last⟩ := pairwise_cons.mp rest
  exact ⟨⟨first, last⟩, fun other member => across other member entry mem_cons_self, least⟩

/-- The node with an equal key is found. -/
theorem Linked.findFrom_eq {above : Option ν} (h : Linked tree above subtree)
    (ordered : Ordered tree (subtree.walk .left)) (key : κ) (enough : subtree.levels ≤ fuel) :
    findFrom tree key fuel subtree.top =
      some ((subtree.walk .left).find? fun entry => tree.comp.compare key (tree.key entry) = 0) := by
  induction subtree generalizing above fuel with
  | leaf => rw [Shape.top, findFrom, Shape.walk_leaf, find?_nil]
  | node color left entry right ihLeft ihRight =>
    obtain ⟨⟨_, _, leftLink, rightLink⟩, linkedLeft, linkedRight⟩ := h
    have walk : (Shape.node color left entry right).walk .left =
        left.walk .left ++ entry :: right.walk .left := rfl
    rw [walk] at ordered ⊢
    obtain ⟨⟨orderedLeft, orderedRight⟩, smaller, larger⟩ := ordered.parts
    rw [Shape.levels] at enough
    obtain ⟨less, rfl⟩ : ∃ less, fuel = less + 1 := ⟨fuel - 1, by omega⟩
    rw [Shape.top, findFrom, find?_append, find?_cons]
    have swap := tree.comp.swap key (tree.key entry)
    -- The entries on the other side of the node are not equal to the key.
    have noneLeft : 0 ≤ tree.comp.compare key (tree.key entry) →
        (left.walk .left).find? (fun other => tree.comp.compare key (tree.key other) = 0) = none := by
      intro notLess
      refine find?_eq_none.mpr fun other member equal => ?_
      have before := RbtreeComp.lt_of_lt_of_le (smaller other member)
        (RbtreeComp.not_lt.mp (Int.not_lt.mpr notLess))
      rw [RbtreeComp.eq_swap (of_decide_eq_true equal)] at before
      exact absurd before (Int.lt_irrefl 0)
    have noneRight : tree.comp.compare key (tree.key entry) ≤ 0 →
        (right.walk .left).find? (fun other => tree.comp.compare key (tree.key other) = 0) =
          none := by
      intro notMore
      refine find?_eq_none.mpr fun other member equal => ?_
      have after := RbtreeComp.lt_of_le_of_lt notMore (larger other member)
      rw [of_decide_eq_true equal] at after
      exact absurd after (Int.lt_irrefl 0)
    rcases Int.lt_trichotomy (tree.comp.compare key (tree.key entry)) 0 with below | equal | beyond
    · rw [if_neg (Int.ne_of_lt below), if_pos below, leftLink,
        ihLeft linkedLeft orderedLeft (by omega), noneRight (Int.le_of_lt below),
        decide_eq_false (Int.ne_of_lt below), or_none]
    · rw [if_pos equal, noneLeft (Int.le_of_eq equal.symm), decide_eq_true equal, none_or]
    · rw [if_neg (Int.ne_of_gt beyond), if_neg (Int.not_lt.mpr (Int.le_of_lt beyond)), rightLink,
        ihRight linkedRight orderedRight (by omega), noneLeft (Int.le_of_lt beyond),
        decide_eq_false (Int.ne_of_gt beyond), none_or]

/-- The last comparison tells on which side the hole is. -/
def Turned (rv : Int) : Context ν → Prop
  | [] => True
  | frame :: _ => rv < 0 ↔ frame.side = .left

/-- The way to a key ends at an equal one, or at the place for it. -/
theorem At.descend_eq {key : κ} (h : At tree context subtree)
    (ordered : Ordered tree (subtree.walk .left)) (between : Between tree key context) {rv : Int}
    (turned : Turned rv context) (enough : subtree.levels ≤ fuel) :
    (∃ entry ∈ subtree.walk .left, tree.comp.compare key (tree.key entry) = 0 ∧
        descend tree key fuel context.above rv subtree.top = some none) ∨
      ∃ context' : Context ν, ∃ rv',
        descend tree key fuel context.above rv subtree.top = some (some (context'.above, rv')) ∧
          context'.plug .leaf = context.plug subtree ∧ Between tree key context' ∧
            Turned rv' context' := by
  induction subtree generalizing context rv fuel with
  | leaf => exact .inr ⟨context, rv, by rw [Shape.top, descend], rfl, between, turned⟩
  | node color left entry right ihLeft ihRight =>
    have walk : (Shape.node color left entry right).walk .left =
        left.walk .left ++ entry :: right.walk .left := rfl
    obtain ⟨⟨orderedLeft, orderedRight⟩, smaller, larger⟩ := ordered.parts
    rw [Shape.levels] at enough
    obtain ⟨less, rfl⟩ : ∃ less, fuel = less + 1 := ⟨fuel - 1, by omega⟩
    have enoughLeft : left.levels ≤ less := by omega
    have enoughRight : right.levels ≤ less := by omega
    obtain ⟨⟨_, _, leftLink, rightLink⟩, _⟩ := h.linked
    have atLeft : At tree (⟨.left, color, entry, right⟩ :: context) left := At.near h
    have atRight : At tree (⟨.right, color, entry, left⟩ :: context) right := At.near h
    have swap := tree.comp.swap key (tree.key entry)
    rw [Shape.top, descend]
    rcases Int.lt_trichotomy (tree.comp.compare key (tree.key entry)) 0 with below | equal | beyond
    · rw [if_neg (Int.ne_of_lt below), if_pos below, leftLink]
      have between' : Between tree key (⟨.left, color, entry, right⟩ :: context) := by
        constructor
        · intro other member
          rw [Context.before, if_pos rfl, append_nil] at member
          exact between.before other member
        · intro other member
          rw [Context.after, if_pos rfl, cons_append, mem_cons, mem_append] at member
          rcases member with rfl | member | member
          · exact below
          · exact RbtreeComp.lt_of_le_of_lt (Int.le_of_lt below) (larger other member)
          · exact between.after other member
      rcases ihLeft atLeft orderedLeft between' (iff_of_true below rfl) enoughLeft with
        ⟨other, member, same, result⟩ | ⟨context', rv', result, filled, between'', turned'⟩
      · exact .inl ⟨other, mem_append_left _ member, same, result⟩
      · exact .inr ⟨context', rv', result, filled, between'', turned'⟩
    · exact .inl ⟨entry, mem_append_right _ mem_cons_self, equal, if_pos equal⟩
    · have notLess := Int.not_lt.mpr (Int.le_of_lt beyond)
      rw [if_neg (Int.ne_of_gt beyond), if_neg notLess, rightLink]
      have between' : Between tree key (⟨.right, color, entry, left⟩ :: context) := by
        constructor
        · intro other member
          rw [Context.before, if_neg (by simp), mem_append, mem_append,
            mem_singleton] at member
          rcases member with member | member | rfl
          · exact between.before other member
          · exact RbtreeComp.lt_of_lt_of_le (smaller other member) (RbtreeComp.not_lt.mp notLess)
          · exact (tree.comp.swap _ _).mpr beyond
        · intro other member
          exact between.after other member
      rcases ihRight atRight orderedRight between' (iff_of_false notLess (by simp)) enoughRight with
        ⟨other, member, same, result⟩ | ⟨context', rv', result, filled, between'', turned'⟩
      · exact .inl ⟨other, mem_append_right _ (mem_cons_of_mem _ member), same, result⟩
      · exact .inr ⟨context', rv', result, filled, between'', turned'⟩

end Rbtree

end Pj
