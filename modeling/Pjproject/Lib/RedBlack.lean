import Mathlib.Data.List.Nodup
import Mathlib.Data.Nat.Log
import Mathlib.Tactic.Ring

/-!
# Red-black trees

Binary trees with coloured nodes, and trees with a hole, which are lists of frames from the hole up.
What a program does at a place of a tree is a statement about what fills a hole there. The rules
below hold of a filled hole exactly if they hold of what is around it and of what fills it, with the
same number of black nodes.
-/

namespace RedBlack
open List

/-- The two sides of a node. -/
inductive Side
  | left
  | right
deriving DecidableEq, Repr

/-- The side across. -/
def Side.other : Side → Side
  | left => right
  | right => left

@[simp] theorem Side.other_other (side : Side) : side.other.other = side := by
  cases side <;> rfl

@[simp] theorem Side.other_ne (side : Side) : side.other ≠ side := by
  cases side <;> nofun

@[simp] theorem Side.ne_other (side : Side) : side ≠ side.other := by
  cases side <;> nofun

/-- Two sides that are not the same are across. -/
theorem Side.eq_other {side side' : Side} (h : side' ≠ side) : side' = side.other := by
  cases side <;> cases side' <;> first | rfl | exact absurd rfl h

inductive Color
  | black
  | red
deriving DecidableEq, Repr

theorem Color.ne_red {color : Color} : color ≠ red ↔ color = black := by
  cases color <;> decide

inductive Shape (ν : Type*)
  | leaf
  | node (color : Color) (left : Shape ν) (entry : ν) (right : Shape ν)

variable {ν : Type*}

variable {tree : Shape ν} {entry : ν}

variable {count' : Nat}

namespace Shape

/-- The entry at the top. -/
def top : Shape ν → Option ν
  | leaf => none
  | node _ _ entry _ => some entry

/-- The colour of the top, with that of the leaves. -/
def color (leaves : Color) : Shape ν → Color
  | leaf => leaves
  | node color _ _ _ => color

/-- The tree with another colour at the top. -/
def recolor (color : Color) : Shape ν → Shape ν
  | leaf => leaf
  | node _ left entry right => node color left entry right

/-- A node, with its subtrees by the side. -/
def join (color : Color) (side : Side) (near : Shape ν) (entry : ν) (far : Shape ν) : Shape ν :=
  match side with
  | .left => node color near entry far
  | .right => node color far entry near

/-- The entries in their order, from one side on. -/
def walk (side : Side) : Shape ν → List ν
  | leaf => []
  | node _ left entry right =>
    match side with
    | .left => left.walk side ++ entry :: right.walk side
    | .right => right.walk side ++ entry :: left.walk side

/-- The number of nodes on a longest path to a leaf. -/
def levels : Shape ν → Nat
  | leaf => 0
  | node _ left _ right => max left.levels right.levels + 1

/-- A red node has no red child, and every path to a leaf passes the same number of black nodes. -/
def Rules : Shape ν → Nat → Prop
  | leaf, count => count = 0
  | node .red left _ right, count =>
    (left.color .black = .black ∧ right.color .black = .black) ∧
      left.Rules count ∧ right.Rules count
  | node .black left _ right, count =>
    ∃ below, count = below + 1 ∧ left.Rules below ∧ right.Rules below

/-- Every tree that is not a leaf is a node, with either side first. -/
theorem exists_join (side : Side) (h : tree.top = some entry) :
    ∃ color near far, tree = join color side near entry far := by
  cases tree with
  | leaf => contradiction
  | node color left entry' right =>
    obtain rfl := Option.some.inj h
    cases side with
    | left => exact ⟨color, left, right, rfl⟩
    | right => exact ⟨color, right, left, rfl⟩

/-- Induction with the subtrees by the side. -/
theorem join_induction (side : Side) {motive : Shape ν → Prop} (leaf : motive .leaf)
    (join : ∀ color near entry far, motive near → motive far →
      motive (.join color side near entry far)) (tree : Shape ν) : motive tree := by
  induction tree with
  | leaf => exact leaf
  | node color left entry right ihLeft ihRight =>
    cases side with
    | left => exact join color left entry right ihLeft ihRight
    | right => exact join color right entry left ihRight ihLeft

theorem top_eq_none : tree.top = none ↔ tree = leaf := by
  cases tree <;> simp [top]

@[simp] theorem top_join (color : Color) (side : Side) (near : Shape ν) (entry : ν) (far : Shape ν) :
    (join color side near entry far).top = some entry := by
  cases side <;> rfl

@[simp] theorem color_join (leaves color : Color) (side : Side) (near : Shape ν) (entry : ν)
    (far : Shape ν) : (join color side near entry far).color leaves = color := by
  cases side <;> rfl

@[simp] theorem recolor_join (color color' : Color) (side : Side) (near : Shape ν) (entry : ν)
    (far : Shape ν) :
    (join color side near entry far).recolor color' = join color' side near entry far := by
  cases side <;> rfl

/-- A node with its sides the other way round. -/
theorem join_other (color : Color) (side : Side) (near : Shape ν) (entry : ν) (far : Shape ν) :
    join color side.other near entry far = join color side far entry near := by
  cases side <;> rfl

@[simp] theorem top_recolor (color : Color) (tree : Shape ν) : (tree.recolor color).top = tree.top := by
  cases tree <;> rfl

@[simp] theorem walk_recolor (color : Color) (side : Side) (tree : Shape ν) :
    (tree.recolor color).walk side = tree.walk side := by
  cases tree <;> rfl

@[simp] theorem walk_leaf (side : Side) : (leaf : Shape ν).walk side = [] := rfl

@[simp] theorem walk_join (color : Color) (side : Side) (near : Shape ν) (entry : ν) (far : Shape ν) :
    (join color side near entry far).walk side = near.walk side ++ entry :: far.walk side := by
  cases side <;> rfl

/-- A rotation keeps the order, whatever the colours are. -/
theorem walk_rotate (color color' above above' : Color) (side side' : Side)
    (near inner far : Shape ν) (entry child : ν) :
    (join color' side (join color side near entry inner) child far).walk side' =
      (join above side near entry (join above' side inner child far)).walk side' := by
  cases side <;> cases side' <;> simp [join, walk]

variable {near far : Shape ν}

/-- The order depends on that of the subtrees. -/
theorem walk_join_congr {color color' : Color} {side side' : Side} {near' far' : Shape ν}
    (sameNear : near.walk side' = near'.walk side') (sameFar : far.walk side' = far'.walk side') :
    (join color side near entry far).walk side' = (join color' side near' entry far').walk side' := by
  cases side <;> cases side' <;> simp [join, walk, sameNear, sameFar]

theorem levels_join (color : Color) (side : Side) (near : Shape ν) (entry : ν) (far : Shape ν) :
    (join color side near entry far).levels = max near.levels far.levels + 1 := by
  cases side with
  | left => rfl
  | right => exact congrArg (· + 1) (max_comm _ _)

/-- Every level has an entry. -/
theorem levels_le_length (tree : Shape ν) : tree.levels ≤ (tree.walk .left).length := by
  induction tree with
  | leaf => exact Nat.le_refl 0
  | node color left entry right ihLeft ihRight =>
    have split : ((node color left entry right).walk .left).length =
        (left.walk .left).length + ((right.walk .left).length + 1) := length_append
    rw [split, levels]
    omega

/-- From the other side the entries are in the other order. -/
theorem walk_other (side : Side) (tree : Shape ν) :
    tree.walk side.other = (tree.walk side).reverse := by
  induction tree with
  | leaf => rfl
  | node color left entry right ihLeft ihRight =>
    cases side with
    | left =>
      have backward : (node color left entry right).walk .right =
          right.walk .right ++ entry :: left.walk .right := rfl
      have forward : (node color left entry right).walk .left =
          left.walk .left ++ entry :: right.walk .left := rfl
      rw [Side.other] at ihLeft ihRight ⊢
      rw [backward, forward, ihLeft, ihRight]
      simp
    | right =>
      have backward : (node color left entry right).walk .right =
          right.walk .right ++ entry :: left.walk .right := rfl
      have forward : (node color left entry right).walk .left =
          left.walk .left ++ entry :: right.walk .left := rfl
      rw [Side.other] at ihLeft ihRight ⊢
      rw [backward, forward, ihLeft, ihRight]
      simp

/-- The two orders have the same entries. -/
theorem walk_perm (side side' : Side) (tree : Shape ν) : (tree.walk side).Perm (tree.walk side') := by
  by_cases same : side = side'
  · rw [same]
  · rw [Side.eq_other same, walk_other]
    exact reverse_perm _

theorem mem_walk_join {color : Color} {side side' : Side} {other : ν} :
    other ∈ (join color side near entry far).walk side' ↔
      other = entry ∨ other ∈ near.walk side' ∨ other ∈ far.walk side' := by
  rw [(walk_perm side' side _).mem_iff, (walk_perm side' side near).mem_iff,
    (walk_perm side' side far).mem_iff, walk_join, mem_append, mem_cons]
  exact or_left_comm

theorem top_mem {side : Side} (h : tree.top = some entry) :
    entry ∈ tree.walk side := by
  obtain ⟨color, near, far, rfl⟩ := exists_join side h
  exact mem_walk_join.mpr (.inl rfl)

/-! ## The rules -/

theorem rules_join_red {side : Side} {count : Nat} :
    (join .red side near entry far).Rules count ↔
      (near.color .black = .black ∧ far.color .black = .black) ∧
        near.Rules count ∧ far.Rules count := by
  cases side with
  | left => exact Iff.rfl
  | right => exact and_congr and_comm and_comm

theorem rules_join_black {side : Side} {count : Nat} :
    (join .black side near entry far).Rules (count + 1) ↔ near.Rules count ∧ far.Rules count := by
  have shape : ∀ left right : Shape ν, (node .black left entry right).Rules (count + 1) ↔
      left.Rules count ∧ right.Rules count := by
    intro left right
    constructor
    · rintro ⟨below, same, rules⟩
      obtain rfl := Nat.succ.inj same
      exact rules
    · exact fun rules => ⟨count, rfl, rules⟩
  cases side with
  | left => exact shape near far
  | right => exact (shape far near).trans and_comm

/-- Below a black node there is one black node less. -/
theorem Rules.positive {side : Side} {count : Nat}
    (h : (join .black side near entry far).Rules count) : ∃ below, count = below + 1 := by
  cases side with
  | left => exact h.imp fun _ rules => rules.1
  | right => exact h.imp fun _ rules => rules.1

/-- The number of black nodes is that of any path. -/
theorem Rules.unique {count : Nat} (h : tree.Rules count) (h' : tree.Rules count') :
    count = count' := by
  induction tree generalizing count count' with
  | leaf => exact h.trans h'.symm
  | node color left entry right ihLeft ihRight =>
    cases color with
    | red => exact ihLeft h.2.1 h'.2.1
    | black =>
      obtain ⟨below, rfl, rules, _⟩ := h
      obtain ⟨below', rfl, rules', _⟩ := h'
      rw [ihLeft rules rules']

/-- The rules are about the colours alone. -/
theorem rules_join_entry {color : Color} {side : Side} (entry' : ν) {count : Nat} :
    (join color side near entry far).Rules count ↔ (join color side near entry' far).Rules count := by
  cases color <;> cases side <;> exact Iff.rfl

/-- Two fillings of one side of a node pass as many black nodes. -/
theorem rules_join_unique {color : Color} {side : Side} {near' : Shape ν} {count : Nat}
    (h : (join color side near entry far).Rules count)
    (h' : (join color side near' entry far).Rules count') :
    ∃ below, near.Rules below ∧ near'.Rules below := by
  cases color with
  | red =>
    have ⟨_, rules, rulesFar⟩ := rules_join_red.mp h
    have ⟨_, rules', rulesFar'⟩ := rules_join_red.mp h'
    rw [← rulesFar.unique rulesFar'] at rules'
    exact ⟨count, rules, rules'⟩
  | black =>
    obtain ⟨below, rfl⟩ := h.positive
    obtain ⟨below', rfl⟩ := h'.positive
    have ⟨rules, rulesFar⟩ := rules_join_black.mp h
    have ⟨rules', rulesFar'⟩ := rules_join_black.mp h'
    rw [← rulesFar.unique rulesFar'] at rules'
    exact ⟨below, rules, rules'⟩

/-- A subtree without black nodes below a black node is a leaf, or red with two leaves. -/
theorem Rules.of_zero (h : tree.Rules 0) (black : tree.color .black = .black) :
    tree = leaf := by
  cases tree with
  | leaf => rfl
  | node color left entry right =>
    obtain rfl : color = .black := black
    obtain ⟨below, none, _⟩ := h
    contradiction

section
variable {count : Nat} (h : tree.Rules count)
include h

/-- A black top keeps the rules. -/
theorem Rules.recolor_black : ∃ count', (tree.recolor .black).Rules count' := by
  cases tree with
  | leaf => exact ⟨count, h⟩
  | node color left entry right =>
    cases color with
    | red => exact ⟨count + 1, count, rfl, h.2⟩
    | black => exact ⟨count, h⟩

/-- There are at least as many entries as black nodes make. -/
theorem Rules.two_pow_le : 2 ^ count ≤ (tree.walk .left).length + 1 := by
  induction tree generalizing count with
  | leaf =>
    rw [h]
    exact Nat.le_refl 1
  | node color left entry right ihLeft ihRight =>
    have split : ((node color left entry right).walk .left).length =
        (left.walk .left).length + ((right.walk .left).length + 1) := length_append
    cases color with
    | red =>
      have small := ihLeft h.2.1
      omega
    | black =>
      obtain ⟨below, rfl, rulesLeft, rulesRight⟩ := h
      have smallLeft := ihLeft rulesLeft
      have smallRight := ihRight rulesRight
      omega

/-- A path has at most as many red nodes as black ones, but for a red top. -/
theorem Rules.levels_le :
    tree.levels ≤ 2 * count + 1 ∧ (tree.color .black = .black → tree.levels ≤ 2 * count) := by
  induction tree generalizing count with
  | leaf => exact ⟨Nat.zero_le _, fun _ => Nat.zero_le _⟩
  | node color left entry right ihLeft ihRight =>
    rw [levels]
    cases color with
    | red =>
      have lowLeft := (ihLeft h.2.1).2 h.1.1
      have lowRight := (ihRight h.2.2).2 h.1.2
      exact ⟨by omega, nofun⟩
    | black =>
      obtain ⟨below, rfl, rulesLeft, rulesRight⟩ := h
      have lowLeft := (ihLeft rulesLeft).1
      have lowRight := (ihRight rulesRight).1
      exact ⟨by omega, fun _ => by omega⟩

end

end Shape

/-! ## Trees with a hole -/

/-- A node, with the subtree on one side missing. -/
structure Frame (ν : Type*) where
  side : Side
  color : Color
  entry : ν
  sibling : Shape ν

/-- What fills the hole of a frame, with the frame. -/
def Frame.fill (frame : Frame ν) (tree : Shape ν) : Shape ν :=
  Shape.join frame.color frame.side tree frame.entry frame.sibling

/-- A tree with a hole, from the hole up. -/
abbrev Context (ν : Type*) := List (Frame ν)

namespace Context

/-- The tree with its hole filled. -/
def plug : Context ν → Shape ν → Shape ν
  | [], tree => tree
  | frame :: up, tree => plug up (frame.fill tree)

/-- The entry above the hole. -/
def above : Context ν → Option ν
  | [] => none
  | frame :: _ => some frame.entry

/-- The colour above the hole. -/
def color : Context ν → Color
  | [] => .black
  | frame :: _ => frame.color

/-- The entries around the hole. -/
def entries : Context ν → List ν
  | [] => []
  | frame :: up => frame.entry :: (frame.sibling.walk .left ++ entries up)

/-- The entries before the hole, from one side on. -/
def before (side : Side) : Context ν → List ν
  | [] => []
  | frame :: up =>
    before side up ++ if frame.side = side then [] else frame.sibling.walk side ++ [frame.entry]

/-- The entries after the hole. -/
def after (side : Side) : Context ν → List ν
  | [] => []
  | frame :: up =>
    (if frame.side = side then frame.entry :: frame.sibling.walk side else []) ++ after side up

/-- The top is black, unless the hole is there. -/
def Closed : Context ν → Prop
  | [] => True
  | [frame] => frame.color = .black
  | _ :: up => Closed up

/-- The rules around a hole, below which a path passes so many black nodes. -/
def Fits : Context ν → Nat → Prop
  | [], _ => True
  | { color := .red, sibling, .. } :: up, count =>
    sibling.Rules count ∧ sibling.color .black = .black ∧ Context.color up = .black ∧ Fits up count
  | { color := .black, sibling, .. } :: up, count => sibling.Rules count ∧ Fits up (count + 1)

theorem plug_append (inner outer : Context ν) (tree : Shape ν) :
    plug (inner ++ outer) tree = plug outer (plug inner tree) := by
  induction inner generalizing tree with
  | nil => rfl
  | cons frame up ih => exact ih (frame.fill tree)

/-- The entries in their order, around the hole and in what fills it. -/
theorem walk_plug (side : Side) (context : Context ν) (tree : Shape ν) :
    (context.plug tree).walk side =
      context.before side ++ (tree.walk side ++ context.after side) := by
  induction context generalizing tree with
  | nil => exact (append_nil _).symm
  | cons frame up ih =>
    rw [plug, ih, Frame.fill, before, after]
    by_cases same : frame.side = side
    · rw [if_pos same, if_pos same, same, Shape.walk_join]
      simp
    · rw [if_neg same, if_neg same, Side.eq_other same, Shape.join_other, Shape.walk_join]
      simp

variable {context : Context ν}

/-- A hole filled with a node makes a tree with a node. -/
theorem top_plug (h : tree.top ≠ none) :
    (context.plug tree).top ≠ none := by
  induction context generalizing tree with
  | nil => exact h
  | cons frame up ih =>
    apply ih
    rw [Frame.fill, Shape.top_join]
    exact Option.some_ne_none frame.entry

/-- The entry above is around the hole. -/
theorem above_mem (h : context.above = some entry) :
    entry ∈ context.entries := by
  cases context with
  | nil => contradiction
  | cons frame up => exact mem_cons.mpr (.inl (Option.some.inj h).symm)

/-- What fills a hole matters by its entries. -/
theorem walk_plug_congr {side : Side} {tree' : Shape ν} (context : Context ν)
    (same : tree.walk side = tree'.walk side) :
    (context.plug tree).walk side = (context.plug tree').walk side := by
  rw [walk_plug, walk_plug, same]

theorem entries_append (inner outer : Context ν) :
    entries (inner ++ outer) = entries inner ++ entries outer := by
  induction inner with
  | nil => rfl
  | cons frame up ih =>
    rw [cons_append, entries, entries, ih, cons_append, append_assoc]

theorem before_append (side : Side) (inner outer : Context ν) :
    before side (inner ++ outer) = before side outer ++ before side inner := by
  induction inner with
  | nil => exact (append_nil _).symm
  | cons frame up ih => rw [cons_append, before, ih, before, append_assoc]

/-- The entries of a tree are those around a hole and those of what fills it. -/
theorem plug_perm (context : Context ν) (tree : Shape ν) :
    ((context.plug tree).walk .left).Perm (tree.walk .left ++ context.entries) := by
  induction context generalizing tree with
  | nil => exact List.Perm.of_eq (append_nil _).symm
  | cons frame up ih =>
    have filled : ((frame.fill tree).walk .left).Perm
        (tree.walk .left ++ frame.entry :: frame.sibling.walk .left) := by
      refine (Shape.walk_perm .left frame.side _).trans ?_
      rw [Frame.fill, Shape.walk_join]
      exact (Shape.walk_perm _ _ tree).append ((Shape.walk_perm _ _ frame.sibling).cons _)
    refine (ih (frame.fill tree)).trans ((filled.append_right _).trans (List.Perm.of_eq ?_))
    rw [entries, append_assoc, cons_append]

/-- Every entry is at the top of a subtree. -/
theorem exists_plug (h : entry ∈ tree.walk .left) :
    ∃ context subtree, Context.plug context subtree = tree ∧ subtree.top = some entry := by
  induction tree with
  | leaf => exact absurd h not_mem_nil
  | node color left entry' right ihLeft ihRight =>
    rcases mem_append.mp h with below | here
    · obtain ⟨context, subtree, rfl, top⟩ := ihLeft below
      refine ⟨context ++ [{ side := .left, color, entry := entry', sibling := right }], subtree, ?_,
        top⟩
      rw [plug_append]
      rfl
    · rcases mem_cons.mp here with rfl | below
      · exact ⟨[], _, rfl, rfl⟩
      · obtain ⟨context, subtree, rfl, top⟩ := ihRight below
        refine ⟨context ++ [{ side := .right, color, entry := entry', sibling := left }], subtree,
          ?_, top⟩
        rw [plug_append]
        rfl

/-- The outermost node on one side. -/
theorem exists_outermost (side : Side) {top : ν} (h : tree.top = some top) :
    ∃ context color entry far, Context.plug context (.join color side .leaf entry far) = tree ∧
      Context.before side context = [] := by
  induction tree using Shape.join_induction side generalizing top with
  | leaf => contradiction
  | join color near entry far ih _ =>
    cases below : near.top with
    | none =>
      rw [Shape.top_eq_none.mp below]
      exact ⟨[], color, entry, far, rfl, rfl⟩
    | some child =>
      obtain ⟨context, color', entry', far', rfl, first⟩ := ih below
      refine ⟨context ++ [⟨side, color, entry, far⟩], color', entry', far', ?_, ?_⟩
      · rw [plug_append]
        rfl
      · rw [before_append, first, before, if_pos rfl]
        rfl

/-- The colour of the top, when the hole is elsewhere. -/
theorem Closed.color_plug (closed : context.Closed) (nonempty : context ≠ []) (leaves : Color)
    (tree : Shape ν) : (context.plug tree).color leaves = .black := by
  induction context generalizing tree with
  | nil => exact absurd rfl nonempty
  | cons frame up ih =>
    cases up with
    | nil => exact (Shape.color_join _ _ _ _ _ _).trans closed
    | cons frame' up' => exact ih closed (by simp) (frame.fill tree)

/-- A hole in a tree whose top is black. -/
theorem closed_of_plug (black : (context.plug tree).color .black = .black) : context.Closed := by
  induction context generalizing tree with
  | nil => exact trivial
  | cons frame up ih =>
    cases up with
    | nil => exact (Shape.color_join _ _ _ _ _ _).symm.trans black
    | cons frame' up' => exact ih black

/-- The colours alone say whether the top is black. -/
theorem Closed.of_entry {inner outer : Context ν} {side : Side} {color : Color}
    {sibling : Shape ν} (closed : Closed (inner ++ ⟨side, color, entry, sibling⟩ :: outer))
    (entry' : ν) : Closed (inner ++ ⟨side, color, entry', sibling⟩ :: outer) := by
  induction inner with
  | nil =>
    cases outer with
    | nil => exact closed
    | cons frame up => exact closed
  | cons frame up ih =>
    cases up with
    | nil => exact ih closed
    | cons frame' up' => exact ih closed

/-- A filled hole meets the rules exactly if they are met around it and by what fills it. -/
theorem rules_plug :
    (∃ count, (context.plug tree).Rules count) ↔
      ∃ count, context.Fits count ∧ tree.Rules count ∧
        (tree.color .black = .black ∨ context.color = .black) := by
  induction context generalizing tree with
  | nil => exact exists_congr fun count => ⟨fun h => ⟨trivial, h, .inr rfl⟩, fun h => h.2.1⟩
  | cons frame up ih =>
    rw [plug, ih]
    have ⟨side, color, entry, sibling⟩ := frame
    simp only [Frame.fill, Shape.color_join, Context.color]
    cases color with
    | red =>
      refine exists_congr fun count => ?_
      rw [Shape.rules_join_red, Fits]
      constructor
      · rintro ⟨fits, ⟨⟨black, blackSibling⟩, rules, rulesSibling⟩, blackUp⟩
        exact ⟨⟨rulesSibling, blackSibling, blackUp.resolve_left nofun, fits⟩, rules, .inl black⟩
      · rintro ⟨⟨rulesSibling, blackSibling, blackUp, fits⟩, rules, black⟩
        exact ⟨fits, ⟨⟨black.resolve_right nofun, blackSibling⟩, rules, rulesSibling⟩, .inr blackUp⟩
    | black =>
      constructor
      · rintro ⟨count, fits, rules, _⟩
        obtain ⟨below, rfl⟩ := rules.positive
        have ⟨rules, rulesSibling⟩ := Shape.rules_join_black.mp rules
        exact ⟨below, ⟨rulesSibling, fits⟩, rules, .inr rfl⟩
      · rintro ⟨below, ⟨rulesSibling, fits⟩, rules, _⟩
        exact ⟨below + 1, fits, Shape.rules_join_black.mpr ⟨rules, rulesSibling⟩, .inl rfl⟩

/-- The rules around a hole are about the colours alone. -/
theorem rules_plug_entry {inner outer : Context ν} {side : Side} {color : Color}
    {sibling : Shape ν} (entry' : ν) :
    (∃ count, (plug (inner ++ ⟨side, color, entry, sibling⟩ :: outer) tree).Rules count) ↔
      ∃ count, (plug (inner ++ ⟨side, color, entry', sibling⟩ :: outer) tree).Rules count := by
  rw [plug_append, plug_append, plug, plug, Frame.fill, Frame.fill, rules_plug, rules_plug]
  simp only [Shape.color_join]
  refine exists_congr fun count => and_congr_right fun _ => and_congr_left fun _ => ?_
  exact Shape.rules_join_entry entry'

/-- Two fillings of a hole pass as many black nodes, unless the hole is the top. -/
theorem rules_plug_unique {tree' : Shape ν} {count : Nat} (nonempty : context ≠ [])
    (h : (context.plug tree).Rules count) (h' : (context.plug tree').Rules count') :
    ∃ below, tree.Rules below ∧ tree'.Rules below := by
  match context, nonempty with
  | frame :: up, _ =>
    have filled : ∃ count, (plug up (frame.fill tree)).Rules count := ⟨count, h⟩
    have filled' : ∃ count, (plug up (frame.fill tree')).Rules count := ⟨count', h'⟩
    have ⟨_, _, rules, _⟩ := rules_plug.mp filled
    have ⟨_, _, rules', _⟩ := rules_plug.mp filled'
    exact Shape.rules_join_unique rules rules'

section insertion
variable {up : Context ν} {subtree sibling uncle inner outer : Shape ν} {side side' : Side}
  {color : Color} {parent grand middle : ν} {count : Nat}

section
variable (h : Fits (⟨side, .red, parent, sibling⟩ :: ⟨side', color, grand, uncle⟩ :: up) count)
include h

/-- Below a red node, whose parent is black. -/
theorem Fits.parts :
    (sibling.Rules count ∧ sibling.color .black = .black) ∧ uncle.Rules count ∧
      Fits up (count + 1) := by
  have ⟨rules, black, above, fits⟩ := h
  subst above
  exact ⟨⟨rules, black⟩, fits⟩

/-- With a red uncle, the parent and the uncle become black and their parent red. -/
theorem Fits.recolored (rules : subtree.Rules count) (red : uncle.color .black = .red) :
    Fits up (count + 1) ∧ (Shape.join .red side' (.join .black side subtree parent sibling) grand
      (uncle.recolor .black)).Rules (count + 1) := by
  have ⟨⟨rulesSibling, _⟩, rulesUncle, fits⟩ := h.parts
  have rulesParent : (Shape.join .black side subtree parent sibling).Rules (count + 1) :=
    Shape.rules_join_black.mpr ⟨rules, rulesSibling⟩
  cases uncle with
  | leaf => contradiction
  | node color' left entry right =>
    obtain rfl : color' = .red := red
    exact ⟨fits, Shape.rules_join_red.mpr ⟨⟨Shape.color_join _ _ _ _ _ _, rfl⟩, rulesParent, count,
      rfl, rulesUncle.2⟩⟩

/-- With a black uncle, the middle one becomes black, and the others are red below it. -/
theorem Fits.rotated (rules : outer.Rules count) (black : outer.color .black = .black)
    (blackUncle : uncle.color .black = .black) :
    Fits (⟨side', .black, middle, .join .red side' outer grand uncle⟩ :: up) count := by
  have ⟨_, rulesUncle, fits⟩ := h.parts
  exact ⟨Shape.rules_join_red.mpr ⟨⟨black, blackUncle⟩, rules, rulesUncle⟩, fits⟩

end

end insertion

end Context

end RedBlack
