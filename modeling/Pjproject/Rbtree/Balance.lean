import Pjproject.Rbtree.OrderedSet

/-!
# When the tree is balanced

Inserting keeps the rules of a red-black tree. Erasing keeps them when the node that is taken out
of its place is red, when it has a child and the erased node is black, and when it is the only
node: `delete_fixup` is called only below a node with a child, and only if the colour that the
successor has taken over is black.
-/

namespace Pj.Rbtree
open Option RedBlack

variable {ν κ : Type} [DecidableEq ν] {tree tree' : RbTree ν κ} {shape shape' : Shape ν}
  {stored : List (ν × κ)} {context : Context ν} {subtree : Shape ν}

/-- The rules, and the height they bound. -/
structure Balanced (tree : RbTree ν κ) (stored : List (ν × κ)) : Prop where
  null : tree.color none = .black
  root : tree.color tree.root = .black
  rules : ∃ shape count, At tree [] shape ∧ shape.Rules count
  maxHeight : ∀ node, (node = none ∨ ∃ entry ∈ stored, node = some entry.1) →
    ∃ height, pjRbtreeMaxHeight tree node = some height ∧
      height ≤ 2 * Nat.log 2 (tree.size + 1)

/-- The erasures after which the rules hold: the tree has one node, or the node that is taken out
of its place is red, or has a child while the erased one is black. -/
def EraseKeepsRules (tree : RbTree ν κ) (node : ν) : Prop :=
  tree.size = 1 ∨ ∃ succ, spliced tree node = some succ ∧
    (tree.color succ = .red ∨
      (tree.link .left succ ≠ none ∨ tree.link .right succ ≠ none) ∧ tree.color node = .black)

instance (tree : RbTree ν κ) (node : ν) : Decidable (EraseKeepsRules tree node) :=
  match found : spliced tree node with
  | none => decidable_of_iff (tree.size = 1) (by simp [EraseKeepsRules, found])
  | some succ => decidable_of_iff (tree.size = 1 ∨ tree.color succ = .red ∨
      (tree.link .left succ ≠ none ∨ tree.link .right succ ≠ none) ∧ tree.color node = .black)
      (by simp [EraseKeepsRules, found])

/-- The steps that keep the rules. -/
def StepKeepsRules : Option (State ν κ) → Op ν κ → Prop
  | some (tree, stored), .erase node => node ∈ stored.map Prod.fst → EraseKeepsRules tree node
  | _, _ => True

instance : ∀ (state : Option (State ν κ)) (op : Op ν κ), Decidable (StepKeepsRules state op)
  | some (tree, stored), .erase node =>
    inferInstanceAs (Decidable (node ∈ stored.map Prod.fst → EraseKeepsRules tree node))
  | some _, .insert _ _ => .isTrue trivial
  | none, _ => .isTrue trivial

/-! ## The height -/

/-- The height below a link, and one for the link. -/
def branch (tree : RbTree ν κ) (fuel : Nat) (side : Side) (node : Option ν) : Option Nat :=
  if tree.link side node ≠ none then (· + 1) <$> maxHeightFrom tree fuel (tree.link side node)
  else some 0

omit [DecidableEq ν] in
theorem maxHeightFrom_succ (tree : RbTree ν κ) (fuel : Nat) (node : Option ν) :
    maxHeightFrom tree (fuel + 1) node = (branch tree fuel .left node).bind fun l =>
      (branch tree fuel .right node).bind fun r => some (if l > r then l else r) := by
  rw [maxHeightFrom, branch, branch]
  split <;> split <;> rfl

omit [DecidableEq ν] in
theorem branch_eq {fuel : Nat} {side : Side} {node : Option ν} (link : tree.link side node =
    subtree.top) (height : subtree ≠ .leaf →
      maxHeightFrom tree fuel subtree.top = some (subtree.levels - 1)) :
    branch tree fuel side node = some subtree.levels := by
  rw [branch, link]
  cases subtree with
  | leaf => rfl
  | node color left entry right =>
    rw [height nofun]
    rfl

omit [DecidableEq ν] in
/-- The greatest number of links down from the top. -/
theorem At.maxHeightFrom_eq (h : At tree context subtree) {fuel : Nat}
    (enough : subtree.levels ≤ fuel + 1) :
    maxHeightFrom tree (fuel + 1) subtree.top = some (subtree.levels - 1) := by
  induction subtree generalizing context fuel with
  | leaf =>
    have empty : ∀ side, branch tree fuel side none = some 0 :=
      fun side => if_neg (not_not.mpr (h.null side))
    rw [Shape.top, maxHeightFrom_succ, empty, empty]
    rfl
  | node color left entry right ihLeft ihRight =>
    obtain ⟨⟨_, _, leftLink, rightLink⟩, _⟩ := h.linked
    have atLeft : At tree (⟨.left, color, entry, right⟩ :: context) left := At.near h
    have atRight := atLeft.sibling
    rw [Shape.levels] at enough ⊢
    have below : ∀ subtree : Shape ν, subtree ≠ .leaf → 0 < subtree.levels := by
      intro subtree notLeaf
      cases subtree with
      | leaf => contradiction
      | node => exact Nat.succ_pos _
    have onLeft : branch tree fuel .left entry = some left.levels := by
      refine branch_eq leftLink fun notLeaf => ?_
      have positive := below left notLeaf
      obtain ⟨less, rfl⟩ : ∃ less, fuel = less + 1 := ⟨fuel - 1, by omega⟩
      exact ihLeft atLeft (by omega)
    have onRight : branch tree fuel .right entry = some right.levels := by
      refine branch_eq rightLink fun notLeaf => ?_
      have positive := below right notLeaf
      obtain ⟨less, rfl⟩ : ∃ less, fuel = less + 1 := ⟨fuel - 1, by omega⟩
      exact ihRight atRight (by omega)
    rw [Shape.top, maxHeightFrom_succ, onLeft, onRight, bind_some, bind_some]
    congr 1
    split <;> omega

omit [DecidableEq ν] in
/-- The rules bound the height of the whole tree, and that at every node. -/
theorem Holds.balanced (h : Holds tree stored shape) {count : Nat} (rules : shape.Rules count) :
    Balanced tree stored := by
  have root := h.rep.linked.color_eq
  rw [h.rep.null, ← h.rep.linked.root_eq] at root
  refine ⟨h.rep.null, root.trans h.rep.black, ⟨shape, count, h.rep.linked, rules⟩, ?_⟩
  have size := h.rep.size
  have inside : ∀ (context : Context ν) (subtree : Shape ν), context.plug subtree = shape →
      ∃ height, maxHeightFrom tree (tree.size + 1) subtree.top = some height ∧
        height ≤ 2 * Nat.log 2 (tree.size + 1) := by
    rintro context subtree rfl
    have ⟨below, _, rules', _⟩ := Context.rules_plug.mp ⟨count, rules⟩
    have total := (Context.plug_perm context subtree).length_eq
    rw [List.length_append, ← size] at total
    have levels := subtree.levels_le_length
    have small : below ≤ Nat.log 2 (tree.size + 1) := by
      refine (Nat.le_log_iff_pow_le Nat.one_lt_two (Nat.succ_ne_zero _)).mpr ?_
      exact rules'.two_pow_le.trans (by omega)
    have bound := rules'.levels_le.1
    exact ⟨_, (at_plug.mpr h.rep.linked).maxHeightFrom_eq (by omega), by omega⟩
  rintro node (rfl | ⟨entry, member, rfl⟩)
  · rw [pjRbtreeMaxHeight, if_pos rfl, h.rep.linked.root_eq]
    exact inside [] shape rfl
  · have stored : entry.1 ∈ shape.walk .left := h.mem_iff.mpr (List.mem_map_of_mem member)
    have ⟨context, subtree, filled, top⟩ := Context.exists_plug stored
    rw [pjRbtreeMaxHeight, if_neg (some_ne_none entry.1), ← top]
    exact inside context subtree filled

omit [DecidableEq ν] in
/-- The links determine the shape. -/
theorem Linked.unique {above above' : Option ν} (h : Linked tree above shape)
    (h' : Linked tree above' shape') (top : shape.top = shape'.top) : shape = shape' := by
  induction shape generalizing above above' shape' with
  | leaf => exact (Shape.top_eq_none.mp top.symm).symm
  | node color left entry right ihLeft ihRight =>
    cases shape' with
    | leaf => contradiction
    | node color' left' entry' right' =>
      obtain rfl := some.inj top
      have ⟨⟨_, colored, leftLink, rightLink⟩, linkedLeft, linkedRight⟩ := h
      have ⟨⟨_, colored', leftLink', rightLink'⟩, linkedLeft', linkedRight'⟩ := h'
      rw [ihLeft linkedLeft linkedLeft' (leftLink.symm.trans leftLink'),
        ihRight linkedRight linkedRight' (rightLink.symm.trans rightLink'),
        colored.symm.trans colored']
/-! ## After an erasure -/

section erase
variable {tree₂ : RbTree ν κ} {node succ : ν} {context₀ : Context ν} {color : Color} {side : Side}
  {far : Shape ν}

section
variable (h : Spliced tree tree₂ shape node succ context₀ context color side far)
include h

/-- The node that is taken out, where it was. -/
theorem Spliced.place (rep : Rep tree shape) :
    At tree context₀ (.join color side .leaf succ far) := by
  apply at_plug.mpr
  rw [h.whole]
  exact rep.linked

theorem Spliced.child_iff (rep : Rep tree shape) :
    (tree.link .left succ ≠ none ∨ tree.link .right succ ≠ none) ↔ far ≠ .leaf := by
  have ⟨_, _, link, otherLink⟩ := (h.place rep).fields
  rw [← not_and_or, not_iff_not, ← Shape.top_eq_none, ← otherLink]
  cases side with
  | left => exact and_iff_right link
  | right => exact and_iff_left link

theorem Spliced.size_iff (rep : Rep tree shape) : tree.size = 1 ↔ context = [] ∧ far = .leaf := by
  have ⟨before, after, order, order₂⟩ := h.order
  have total := (Context.plug_perm context far).length_eq
  have size := rep.size
  rw [order, List.length_append, List.length_cons] at size
  rw [order₂, List.length_append, List.length_append] at total
  constructor
  · intro one
    have frames := length_le_entries context
    have levels := far.levels_le_length
    have noFrame : context.length = 0 := by omega
    refine ⟨List.eq_nil_of_length_eq_zero noFrame, ?_⟩
    cases far with
    | leaf => rfl
    | node color left entry right =>
      rw [Shape.levels] at levels
      omega
  · rintro ⟨rfl, rfl⟩
    rw [Context.entries, Shape.walk_leaf] at total
    dsimp only [List.length_nil] at total
    omega

/-- The rules where a node is taken out: it has no child, or is black with a red one. -/
theorem Spliced.around {count : Nat} (rules : shape.Rules count) :
    (∃ count, (context.plug (.join color side .leaf succ far)).Rules count) ∧
      (far = .leaf ∨ color = .black ∧ far.color .black = .red ∧ far.Rules 0) := by
  rw [← h.whole] at rules
  have around := (h.rules _).mp ⟨count, rules⟩
  have ⟨below, _, here, _⟩ := Context.rules_plug.mp around
  refine ⟨around, ?_⟩
  cases color with
  | red =>
    have ⟨⟨_, black⟩, zero, rest⟩ := Shape.rules_join_red.mp here
    subst zero
    exact .inl (rest.of_zero black)
  | black =>
    obtain ⟨below, rfl⟩ := here.positive
    have ⟨zero, rest⟩ := Shape.rules_join_black.mp here
    subst zero
    cases shade : far.color .black with
    | black => exact .inl (rest.of_zero shade)
    | red => exact .inr ⟨rfl, rfl, rest⟩

/-- The tree that `pj_rbtree_erase` leaves when the rules held before. -/
theorem Spliced.result_shape (red : far = .leaf ∨ far.color .black = .red) :
    ∃ tree', pjRbtreeErase tree node = some (node, tree') ∧ At tree' [] (context.plug
      (if tree.color node = .black then far.recolor .black else far)) := by
  have resized : ∀ {tree₁ : RbTree ν κ} {shape : Shape ν}, At tree₁ [] shape →
      At { tree₁ with size := tree₁.size - 1 } [] shape :=
    fun linked => linked.of_untouched rfl fun _ => ⟨rfl, rfl, fun _ => rfl⟩
  rw [h.result, rebalance, h.color_eq]
  by_cases black : tree.color node = .black
  · rw [if_pos black, if_pos black]
    rcases red with rfl | red
    · exact ⟨_, rfl, resized ((at_plug.mp h.linked).recolor_null .black)⟩
    · cases child : far.top with
      | none =>
        rw [Shape.top_eq_none.mp child] at red
        contradiction
      | some entry =>
        obtain ⟨tree₃, fixed, linked⟩ :=
          h.linked.deleteFixup_last child h.closed (.inr red) tree₂.size
        refine ⟨_, ?_, resized (linked.linked.recolor_null .black)⟩
        rw [if_pos (some_ne_none entry), fixed]
        rfl
  · rw [if_neg black, if_neg black]
    exact ⟨_, rfl, resized (at_plug.mp h.linked)⟩

end

/-- The rules hold after the erasure exactly if the condition is met. -/
theorem Rep.erase_rules (h : Rep tree shape) {count : Nat} (rules : shape.Rules count)
    (member : node ∈ shape.walk .left)
    (erased : pjRbtreeErase tree node = some (node, tree')) (linked : At tree' [] shape') :
    (∃ count, shape'.Rules count) ↔ EraseKeepsRules tree node := by
  have ⟨tree₂, succ, context₀, context, color, side, far, spliced⟩ := h.splice member
  have ⟨⟨count', around⟩, child⟩ := spliced.around rules
  have place := spliced.place h
  have ⟨tree₃, erased', linked'⟩ := spliced.result_shape (child.imp_right fun red => red.2.1)
  obtain rfl : tree' = tree₃ := (Prod.mk.inj (some.inj (erased.symm.trans erased'))).2
  obtain rfl := linked.linked.unique linked'.linked (linked.root_eq.symm.trans linked'.root_eq)
  have condition : EraseKeepsRules tree node ↔
      (context = [] ∧ far = .leaf) ∨ color = .red ∨ far ≠ .leaf ∧ tree.color node = .black := by
    rw [EraseKeepsRules, spliced.size_iff h, spliced.found, ← spliced.child_iff h,
      ← place.fields.2.1]
    simp
  rw [condition]
  have ⟨below, fits, here, black⟩ := Context.rules_plug.mp ⟨count', around⟩
  rcases child with rfl | ⟨rfl, red, zero⟩
  · -- No child: the rules hold again unless a black node is missing on one path.
    have same : (if tree.color node = .black then Shape.recolor .black .leaf else .leaf) =
        (.leaf : Shape ν) := ite_self _
    rw [same]
    cases color with
    | red =>
      have none := (Shape.rules_join_red.mp here).2.1
      refine iff_of_true (Context.rules_plug.mpr ⟨below, fits, none, .inl rfl⟩) (.inr (.inl rfl))
    | black =>
      constructor
      · rintro ⟨less, rules'⟩
        refine .inl ⟨?_, rfl⟩
        by_contra nonempty
        obtain ⟨count, one, none⟩ := Context.rules_plug_unique nonempty around rules'
        obtain ⟨below, rfl⟩ := one.positive
        contradiction
      · rintro (⟨rfl, _⟩ | red | ⟨leaf, _⟩)
        · exact ⟨0, rfl⟩
        · contradiction
        · contradiction
  · have notLeaf : far ≠ .leaf := by
      rintro rfl
      contradiction
    obtain ⟨rest, rfl⟩ := here.positive
    have none := (Shape.rules_join_black.mp here).1
    subst none
    by_cases nodeBlack : tree.color node = .black
    · -- The child takes the place and the colour.
      rw [if_pos nodeBlack]
      refine iff_of_true (Context.rules_plug.mpr ⟨1, fits, ?_, .inl ?_⟩)
        (.inr (.inr ⟨notLeaf, nodeBlack⟩))
      · cases far with
        | leaf => contradiction
        | node color left entry right =>
          obtain rfl : color = .red := red
          exact ⟨0, rfl, zero.2⟩
      · cases far <;> rfl
    · rw [if_neg nodeBlack]
      have nonempty : context ≠ [] := by
        intro empty
        have colored := place.fields.2.1
        rw [spliced.same empty] at colored
        exact nodeBlack colored
      refine iff_of_false (fun ⟨less, rules'⟩ => ?_) ?_
      · obtain ⟨count, one, none⟩ := Context.rules_plug_unique nonempty around rules'
        obtain rfl := none.unique zero
        have ⟨below, same⟩ := one.positive
        contradiction
      · rintro (⟨empty, _⟩ | red | ⟨_, black⟩)
        · exact nonempty empty
        · contradiction
        · exact nodeBlack black

end erase

/-! ## Runs -/

variable {state : Option (State ν κ)}

/-- The tree of a run meets the rules. -/
def IsBalanced (state : Option (State ν κ)) : Prop :=
  ∃ tree stored, state = some (tree, stored) ∧ Balanced tree stored

/-- The invariant of the runs in which the rules hold. -/
def Sound (state : Option (State ν κ)) : Prop :=
  ∃ tree stored shape count, state = some (tree, stored) ∧ Holds tree stored shape ∧
    shape.Rules count

omit [DecidableEq ν] in
theorem Sound.isBalanced (h : Sound state) : IsBalanced state := by
  obtain ⟨tree, stored, shape, count, rfl, holds, rules⟩ := h
  exact ⟨tree, stored, rfl, holds.balanced rules⟩

theorem Sound.step {op : Op ν κ} (h : Sound state) (keeps : StepKeepsRules state op) :
    Sound (step state op) := by
  obtain ⟨tree, stored, shape, count, rfl, holds, rules⟩ := h
  cases op with
  | insert element key =>
    by_cases equal : ∃ entry ∈ stored,
        tree.comp.compare ((assign tree stored element key).key element) entry.2 = 0
    · refine ⟨_, _, shape, count, ?_, holds.assigned element key, rules⟩
      rw [Rbtree.step, bind_some, perform, holds.insert_equal equal]
      rfl
    · obtain ⟨tree', shape', inserted, holds', rules'⟩ := holds.insert_new equal
      obtain ⟨count', rules'⟩ := rules' ⟨count, rules⟩
      refine ⟨_, _, shape', count', ?_, holds', rules'⟩
      rw [Rbtree.step, bind_some, perform, inserted]
      rfl
  | erase node =>
    rw [Rbtree.step, bind_some, perform]
    by_cases inside : node ∈ stored.map Prod.fst
    · obtain ⟨tree', shape', erased, holds'⟩ := holds.erase inside
      obtain ⟨count', rules'⟩ := (holds.rep.erase_rules rules (holds.mem_iff.mpr inside) erased
        holds'.rep.linked).mpr (keeps inside)
      refine ⟨_, _, shape', count', ?_, holds', rules'⟩
      rw [if_pos inside, erased]
      rfl
    · exact ⟨_, _, shape, count, if_neg inside, holds, rules⟩

/-- The other erasures break the rules. -/
theorem Sound.broken {op : Op ν κ} (h : Sound state) (breaks : ¬StepKeepsRules state op) :
    ¬IsBalanced (Rbtree.step state op) := by
  obtain ⟨tree, stored, shape, count, rfl, holds, rules⟩ := h
  cases op with
  | insert element key => exact absurd trivial breaks
  | erase node =>
    obtain ⟨inside, breaks⟩ := Classical.not_imp.mp breaks
    obtain ⟨tree', shape', erased, holds'⟩ := holds.erase inside
    rintro ⟨tree₁, stored₁, result, balanced⟩
    rw [Rbtree.step, bind_some, perform, if_pos inside, erased] at result
    obtain ⟨shape₁, count₁, linked, rules₁⟩ := balanced.rules
    obtain ⟨rfl, rfl⟩ := Prod.mk.inj (some.inj result)
    exact breaks ((holds.rep.erase_rules rules (holds.mem_iff.mpr inside) erased linked).mp
      ⟨count₁, rules₁⟩)

theorem start_sound (memory : RbTree ν κ) (comp : RbtreeComp κ) : Sound (start memory comp) :=
  ⟨_, _, _, 0, rfl, init_holds memory comp, rfl⟩

theorem Sound.run (memory : RbTree ν κ) (comp : RbtreeComp κ) {ops : List (Op ν κ)}
    (keeps : Run.Meets Rbtree.step StepKeepsRules (start memory comp) ops) :
    Sound (ops.foldl Rbtree.step (start memory comp)) :=
  (Run.always (fun _ _ sound keeps => Sound.step sound keeps) (start_sound memory comp) keeps).last

/-- The rules hold after every operation of a run exactly if every erasure meets the condition. -/
theorem rbtree_balanced_iff (memory : RbTree ν κ) (comp : RbtreeComp κ) (ops : List (Op ν κ)) :
    Run.Always step IsBalanced (start memory comp) ops ↔
      Run.Meets step StepKeepsRules (start memory comp) ops :=
  Run.always_iff (fun _ _ sound keeps => sound.step keeps) (fun _ sound => sound.isBalanced)
    (fun _ _ sound breaks => sound.broken breaks) (start_sound memory comp)

/-- The difference of two numbers. -/
def intComp : RbtreeComp Int where
  compare := fun key1 key2 => key1 - key2
  swap := fun key1 key2 => by omega
  trans := fun key1 key2 key3 => by omega

/-- A memory in which every field is zero. -/
def zeroMemory : RbTree Nat Int where
  root := none
  link := fun _ _ => none
  parent := fun _ => none
  color := fun _ => .black
  key := fun _ => 0
  size := 0
  comp := intComp

/-- Four nodes. -/
def fourNodes : Option (State Nat Int) :=
  [Op.insert 1 1, .insert 2 2, .insert 3 3, .insert 4 4].foldl step (start zeroMemory intComp)

/-- The first of four nodes is black without a child. -/
theorem rbtree_unbalanced : ¬Run.Always step IsBalanced (start zeroMemory intComp)
    [.insert 1 1, .insert 2 2, .insert 3 3, .insert 4 4, .erase 1] := by
  intro always
  have built : Sound fourNodes :=
    Sound.run zeroMemory intComp ⟨trivial, trivial, trivial, trivial, trivial⟩
  have breaks : ¬StepKeepsRules fourNodes (.erase 1) := by decide
  exact built.broken breaks always.last

end Pj.Rbtree
