import Pjproject.Rbtree.Insertion

/-!
# Removal from a red-black tree

`pj_rbtree_erase`. A node with at most one child is taken out of its place; for another node the
next one is, and then put in its place. What is below the place that was taken out is then
balanced, unless there is nothing.
-/

namespace Pj.Rbtree
open Option Function List RedBlack

variable {ν κ : Type} [DecidableEq ν] {tree tree' : RbTree ν κ} {shape : Shape ν}
  {context : Context ν} {color : Color} {side : Side} {entry : ν} {far : Shape ν}

/-! ## Taking a node out -/

/-- The child of a node with at most one takes its place. -/
theorem At.splice (h : At tree context (.join color side .leaf entry far)) :
    At (replaceChild (setParent tree far.top context.above) context.above entry far.top) context
      far := by
  have atFar := h.near.sibling
  have entryOutside := h.outside (Shape.mem_walk_join.mpr (.inl rfl))
  have farOutside := fun (other : ν) (member : other ∈ far.walk .left) => atFar.outside member
  simp only [Context.entries, Shape.walk_leaf, nil_append, mem_cons, not_or] at farOutside
  have parentKept : ∀ other ∈ context.entries,
      Untouched tree (setParent tree far.top context.above) (some other) := by
    refine fun other member => setParent_untouched fun top => ?_
    exact (farOutside other (Shape.top_mem top.symm)).2 member
  have nodup : (entry :: context.entries).Nodup :=
    nodup_cons.mpr ⟨entryOutside, (nodup_append.mp h.nodup).2.1⟩
  have around : Around (setParent tree far.top context.above) context (some entry) := by
    have here := h.around
    rw [Shape.top_join] at here
    exact here.congr parentKept rfl
  have away : ∀ other ∈ far.walk .left, some other ≠ context.above := by
    intro other member above
    exact (farOutside other member).2 (Context.above_mem above.symm)
  refine ⟨around.replaceChild nodup far.top, ?_, ?_, fun side' => ?_⟩
  · refine atFar.linked.reparent (nodup_append.mp atFar.nodup).1 (fun other top => ?_)
      fun other member notTop => ?_
    · have linked : Untouched (setParent tree far.top context.above)
          (replaceChild (setParent tree far.top context.above) context.above entry far.top)
            (some other) := replaceChild_untouched (away other (Shape.top_mem top))
      refine ⟨linked.1.trans ?_, linked.2.1, linked.2.2⟩
      rw [top]
      exact update_self _ _ _
    · exact (setParent_untouched (Ne.symm notTop)).trans
        (replaceChild_untouched (away other member))
  · refine nodup_append.mpr ⟨(nodup_append.mp atFar.nodup).1,
      (nodup_append.mp h.nodup).2.1, fun other member other' member' same => ?_⟩
    rw [← same] at member'
    exact (farOutside other member).2 member'
  · rw [replaceChild_null]
    exact h.null side'

/-- The fields of a successor, before the links to it. -/
def successor (tree : RbTree ν κ) (succ : ν) (parent left right : Option ν) (color : Color) :
    RbTree ν κ :=
  setColor (setLink (setLink (setParent tree succ parent) .left succ left) .right succ right) succ
    color

theorem successor_untouched {succ : ν} {parent left right node : Option ν}
    (different : node ≠ some succ) :
    Untouched tree (successor tree succ parent left right color) node :=
  (setParent_untouched different).trans ((setLink_untouched different).trans
    ((setLink_untouched different).trans (setColor_untouched different)))

theorem successor_fields (tree : RbTree ν κ) (succ : ν) (parent left right : Option ν)
    (color : Color) :
    (successor tree succ parent left right color).parent succ = parent ∧
      (successor tree succ parent left right color).color succ = color ∧
      (successor tree succ parent left right color).link .left succ = left ∧
      (successor tree succ parent left right color).link .right succ = right := by
  have onLeft : (setLink (setLink (setParent tree succ parent) .left succ left) .right succ
      right).link .left succ = left := (setLink_other (Side.other_ne .right)).trans setLink_self
  have onRight : (setLink (setLink (setParent tree succ parent) .left succ left) .right succ
      right).link .right succ = right := setLink_self
  exact ⟨update_self _ _ _, update_self _ _ _, onLeft, onRight⟩

theorem adopt_withRoot (tree : RbTree ν κ) (node value root : Option ν) :
    adopt { tree with root } node value = { adopt tree node value with root } := by
  unfold adopt
  split <;> rfl

section takePlace
variable {left right : Shape ν} {node succ : ν}

theorem At.copyFields_eq (h : At tree context (.node color left node right)) :
    copyFields tree node succ = successor tree succ context.above left.top right.top color := by
  have ⟨parent, colored, leftLink, rightLink⟩ := h.linked.1
  have rightRead : ∀ value, (setLink (setParent tree succ (tree.parent node)) .left succ
      value).link .right node = right.top :=
    fun value => (setLink_other (Side.other_ne .left)).trans rightLink
  unfold copyFields
  dsimp only
  rw [rightRead]
  rw [← parent, ← colored, ← leftLink]
  rfl

section
variable (h : At tree context (.node color left node right))
  (new : succ ∉ (Shape.node color left node right).walk .left ++ context.entries)
include h new

/-- The links to a node lead to its successor. -/
theorem At.takePlace_eq :
    takePlace tree node succ = adopt (adopt (replaceChild (successor tree succ context.above
      left.top right.top color) context.above node succ) left.top succ) right.top succ := by
  have nodeOutside : node ∉ context.entries := h.outside (Shape.top_mem rfl)
  have different : some node ≠ some succ := by
    intro same
    refine new (mem_append_left _ ?_)
    rw [← some.inj same]
    exact Shape.top_mem rfl
  have ⟨parent, _, leftLink, rightLink⟩ := h.linked.1
  have notAbove : some node ≠ context.above := fun same =>
    nodeOutside (Context.above_mem same.symm)
  generalize made : successor tree succ context.above left.top right.top color = tree₁
  have kept : Untouched tree tree₁ node := made ▸ successor_untouched different
  have root : tree₁.root = tree.root := by
    rw [← made]
    rfl
  have links : ∀ side, (replaceChild tree₁ context.above node succ).link side node =
      tree₁.link side node := (replaceChild_untouched notAbove).2.2
  have fromLeft : tree₁.link .left node = left.top := (kept.2.2 .left).trans leftLink
  have fromRight : tree₁.link .right node = right.top := (kept.2.2 .right).trans rightLink
  unfold takePlace
  dsimp only
  rw [h.copyFields_eq, made, kept.1, parent]
  cases context with
  | nil =>
    have isRoot : tree₁.root = some node := root.trans h.root_eq
    have replaced : replaceChild tree₁ none node succ = { tree₁ with root := some succ } :=
      if_neg (not_not.mpr rfl)
    have rooted : adopt (adopt { tree₁ with root := some succ } left.top succ) right.top succ =
        { adopt (adopt tree₁ left.top succ) right.top succ with root := some succ } :=
      (congrArg (adopt · right.top succ) (adopt_withRoot tree₁ left.top succ (some succ))).trans
        (adopt_withRoot _ _ _ _)
    rw [Context.above, replaced, rooted, if_neg (not_not.mpr rfl), adopt_link, fromLeft, fromRight,
      adopt_root, adopt_root, if_pos isRoot]
  | cons frame up =>
    have notRoot : tree.root ≠ some node := h.root_ne rfl
    have replaced : (if tree₁.link .left (some frame.entry) = some node then
        setLink tree₁ .left (some frame.entry) succ else
        setLink tree₁ .right (some frame.entry) succ) =
          replaceChild tree₁ (some frame.entry) node succ :=
      (if_pos (some_ne_none frame.entry)).symm
    have root' : (replaceChild tree₁ (some frame.entry) node succ).root = tree.root := by
      rw [← replaced, ← root]
      split <;> rfl
    rw [Context.above] at links ⊢
    rw [if_pos (some_ne_none frame.entry), replaced, adopt_link, links, links, fromLeft,
      fromRight, adopt_root, adopt_root, root', if_neg notRoot]

/-- The shape is the same, with the successor. -/
theorem At.takePlace : At (takePlace tree node succ) context (.node color left succ right) := by
  rw [h.takePlace_eq new]
  have atLeft : At tree (⟨.left, color, node, right⟩ :: context) left := At.near h
  have atRight := atLeft.sibling
  have nodeOutside : node ∉ context.entries := h.outside (Shape.top_mem rfl)
  have leftOutside := fun (other : ν) (member : other ∈ left.walk .left) =>
    atLeft.outside member
  have rightOutside := fun (other : ν) (member : other ∈ right.walk .left) =>
    atRight.outside member
  have walk : (Shape.node color left node right).walk .left =
      left.walk .left ++ node :: right.walk .left := rfl
  rw [walk] at new
  simp only [Context.entries, mem_cons, mem_append, not_or] at new leftOutside rightOutside
  generalize made₁ : successor tree succ context.above left.top right.top color = tree₁
  generalize made₂ : replaceChild tree₁ context.above node succ = tree₂
  generalize made₃ : adopt (adopt tree₂ left.top succ) right.top succ = tree₃
  have fields := successor_fields tree succ context.above left.top right.top color
  rw [made₁] at fields
  have first : ∀ other, other ≠ succ → Untouched tree tree₁ (some other) := by
    intro other different
    rw [← made₁]
    exact successor_untouched fun same => different (some.inj same)
  have second : ∀ other, other ∉ context.entries → Untouched tree₁ tree₂ (some other) := by
    intro other outside
    rw [← made₂]
    exact replaceChild_untouched fun same => outside (Context.above_mem same.symm)
  have third : ∀ other, left.top ≠ some other → right.top ≠ some other →
      Untouched tree₂ tree₃ (some other) := by
    intro other notLeft notRight
    rw [← made₃]
    exact (adopt_untouched (Ne.symm notLeft)).trans (adopt_untouched (Ne.symm notRight))
  have links : tree₃.link = tree₂.link := by rw [← made₃, adopt_link, adopt_link]
  have colors : tree₃.color = tree₂.color := by rw [← made₃, adopt_color, adopt_color]
  -- The nodes below the two children are where they were.
  have below : ∀ other, other ≠ succ → other ∉ context.entries → left.top ≠ some other →
      right.top ≠ some other → Untouched tree tree₃ (some other) :=
    fun other different outside notLeft notRight =>
      (first other different).trans ((second other outside).trans (third other notLeft notRight))
  have child : ∀ other, other ≠ succ → other ∉ context.entries →
      tree₃.color (some other) = tree.color (some other) ∧
        ∀ side, tree₃.link side (some other) = tree.link side (some other) := by
    intro other different outside
    have until₂ := (first other different).trans (second other outside)
    rw [colors, links]
    exact ⟨until₂.2.1, until₂.2.2⟩
  have linkedLeft : Linked tree₃ (some succ) left := by
    refine atLeft.linked.reparent (nodup_append.mp atLeft.nodup).1 (fun other top => ?_)
      fun other member notTop => ?_
    · have member : other ∈ left.walk .left := Shape.top_mem top
      obtain ⟨_, notRight, outside⟩ := leftOutside other member
      have different : other ≠ succ := fun same => new.1.1 (same ▸ member)
      obtain ⟨parent, adopted, inherits⟩ := adopt_eq tree₂ left.top succ
      have later : Untouched (adopt tree₂ left.top succ) tree₃ (some other) := by
        rw [← made₃]
        exact adopt_untouched fun same => notRight (Shape.top_mem same.symm)
      refine ⟨later.1.trans ?_, child other different outside⟩
      rw [adopted]
      exact inherits other top
    · obtain ⟨_, notRight, outside⟩ := leftOutside other member
      exact below other (fun same => new.1.1 (same ▸ member)) outside notTop
        fun top => notRight (Shape.top_mem top)
  have linkedRight : Linked tree₃ (some succ) right := by
    refine atRight.linked.reparent (nodup_append.mp atRight.nodup).1 (fun other top => ?_)
      fun other member notTop => ?_
    · have member : other ∈ right.walk .left := Shape.top_mem top
      obtain ⟨_, _, outside⟩ := rightOutside other member
      have different : other ≠ succ := fun same => new.1.2.2 (same ▸ member)
      obtain ⟨parent, adopted, inherits⟩ := adopt_eq (adopt tree₂ left.top succ) right.top succ
      refine ⟨?_, child other different outside⟩
      rw [← made₃, adopted]
      exact inherits other top
    · obtain ⟨_, notLeft, outside⟩ := rightOutside other member
      exact below other (fun same => new.1.2.2 (same ▸ member)) outside
        (fun top => notLeft (Shape.top_mem top)) notTop
  have around : Around tree₃ context (some succ) := by
    have here : Around tree₁ context (some node) := by
      refine h.around.congr (fun other member => first other fun same => ?_) (by rw [← made₁]; rfl)
      exact new.2 (same ▸ member)
    have replaced := here.replaceChild (nodup_cons.mpr ⟨nodeOutside, (nodup_append.mp
      h.nodup).2.1⟩) (some succ)
    rw [made₂] at replaced
    refine replaced.congr (fun other member => third other (fun top => ?_) fun top => ?_)
      (by rw [← made₃, adopt_root, adopt_root])
    · exact (leftOutside other (Shape.top_mem top)).2.2 member
    · exact (rightOutside other (Shape.top_mem top)).2.2 member
  have here : Untouched tree₁ tree₃ (some succ) :=
    (second succ new.2).trans (third succ (fun top => new.1.1 (Shape.top_mem top))
      fun top => new.1.2.2 (Shape.top_mem top))
  refine ⟨around, ⟨⟨here.1.trans fields.1, here.2.1.trans fields.2.1,
    (here.2.2 .left).trans fields.2.2.1, (here.2.2 .right).trans fields.2.2.2⟩, linkedLeft,
    linkedRight⟩, ?_, fun side => ?_⟩
  · have nodup := h.nodup
    have walk' : (Shape.node color left succ right).walk .left =
        left.walk .left ++ succ :: right.walk .left := rfl
    rw [walk, append_assoc, cons_append, nodup_middle, nodup_cons] at nodup
    rw [walk', append_assoc, cons_append, nodup_middle, nodup_cons]
    refine ⟨fun member => ?_, nodup.2⟩
    simp only [mem_append] at member
    rcases member with member | member | member
    · exact new.1.1 member
    · exact new.1.2.2 member
    · exact new.2 member
  · have start : tree₁.link side none = tree.link side none := by
      rw [← made₁]
      exact (successor_untouched (some_ne_none succ).symm).2.2 side
    rw [links, ← made₂, replaceChild_null, start]
    exact h.null side

/-- The links are written, and the colour of the successor. -/
theorem At.takePlace_kept :
    Kept tree (Rbtree.takePlace tree node succ) ∧
      (Rbtree.takePlace tree node succ).color none = tree.color none := by
  rw [h.takePlace_eq new]
  have ⟨_, second, _⟩ := adopt_eq (adopt (replaceChild (successor tree succ context.above left.top
    right.top color) context.above node succ) left.top succ) right.top succ
  have ⟨_, first, _⟩ := adopt_eq (replaceChild (successor tree succ context.above left.top
    right.top color) context.above node succ) left.top succ
  have ⟨_, _, replaced⟩ := replaceChild_eq (successor tree succ context.above left.top right.top
    color) context.above node succ
  have null : Untouched tree (successor tree succ context.above left.top right.top color) none :=
    successor_untouched (some_ne_none succ).symm
  rw [second, first, replaced]
  exact ⟨⟨rfl, rfl, rfl⟩, null.2.1⟩

end

end takePlace

/-! ## Erasing -/

/-- What `pj_rbtree_erase` makes of a tree before it is balanced: a node is taken out, and has the
place of the erased one if that is another. -/
structure Spliced (tree tree₂ : RbTree ν κ) (shape : Shape ν) (node succ : ν)
    (context₀ context : Context ν) (color : Color) (side : Side) (far : Shape ν) : Prop where
  found : spliced tree node = some (some succ)
  whole : context₀.plug (.join color side .leaf succ far) = shape
  linked : At tree₂ context far
  kept : Kept tree tree₂
  null : tree₂.color none = tree.color none
  color_eq : tree₂.color succ = tree.color node
  order : ∃ before after, shape.walk .left = before ++ node :: after ∧
    (context.plug far).walk .left = before ++ after
  rules : ∀ subtree, (∃ count, (context₀.plug subtree).Rules count) ↔
    ∃ count, (context.plug subtree).Rules count
  closed : context.Closed
  top : context = [] ↔ context₀ = []
  same : context = [] → succ = node
  result : pjRbtreeErase tree node = (rebalance tree₂ succ far.top).bind fun tree =>
    some (node, { tree with size := tree.size - 1 })

/-- The first writes, for the node that is taken out. -/
theorem At.erase_result {node succ : ν} (h : At tree context (.join color side .leaf succ far))
    (found : spliced tree node = some (some succ)) :
    pjRbtreeErase tree node =
      (rebalance (if some succ ≠ some node then
        Rbtree.takePlace (replaceChild (setParent tree far.top context.above) context.above succ
          far.top) node succ
        else replaceChild (setParent tree far.top context.above) context.above succ far.top)
          succ far.top).bind fun tree => some (node, { tree with size := tree.size - 1 }) := by
  have ⟨parent, _, link, otherLink⟩ := h.fields
  have child : (if tree.link .left succ ≠ none then tree.link .left succ else
      tree.link .right succ) = far.top := by
    cases side with
    | left =>
      rw [link]
      exact (if_neg (not_not.mpr rfl)).trans otherLink
    | right =>
      have onLeft : tree.link .left succ = far.top := otherLink
      rw [onLeft]
      split
      · rfl
      · next absent =>
        rw [link, not_not.mp absent]
        rfl
  rw [pjRbtreeErase, found, bind_eq_bind, bind_some]
  rw [child, parent]
  rfl

theorem splice_kept (tree : RbTree ν κ) (child above node value : Option ν) :
    Kept tree (replaceChild (setParent tree child above) above node value) ∧
      (replaceChild (setParent tree child above) above node value).color = tree.color := by
  have ⟨_, _, replaced⟩ := replaceChild_eq (setParent tree child above) above node value
  rw [replaced]
  exact ⟨⟨rfl, rfl, rfl⟩, rfl⟩

/-- A node with at most one child. -/
theorem At.splice_node {node : ν} (h : At tree context (.join color side .leaf node far))
    (black : (context.plug (.join color side .leaf node far)).color .black = .black) :
    ∃ tree₂, Spliced tree tree₂ (context.plug (.join color side .leaf node far)) node node context
      context color side far := by
  have ⟨_, _, link, otherLink⟩ := h.fields
  have found : spliced tree node = some (some node) := by
    apply if_pos
    cases side with
    | left => exact .inl link
    | right => exact .inr link
  have kept := splice_kept tree far.top context.above node far.top
  have order : ∃ before after,
      (context.plug (.join color side .leaf node far)).walk .left = before ++ node :: after ∧
        (context.plug far).walk .left = before ++ after := by
    rw [Context.walk_plug, Context.walk_plug]
    cases side with
    | left => exact ⟨_, _, rfl, rfl⟩
    | right =>
      have walk : (Shape.join color .right .leaf node far).walk .left = far.walk .left ++ [node] :=
        rfl
      rw [walk, ← append_assoc, ← append_assoc, append_assoc _ [node]]
      exact ⟨_, _, rfl, (append_assoc _ _ _).symm⟩
  refine ⟨_, found, rfl, h.splice, kept.1, congrFun kept.2 _, congrFun kept.2 _, order,
    fun _ => Iff.rfl, Context.closed_of_plug black, Iff.rfl, fun _ => rfl, ?_⟩
  rw [h.erase_result found, if_neg (not_not.mpr rfl)]

/-- A node with two children. -/
theorem At.splice_next {left right : Shape ν} {node : ν}
    (h : At tree context (.node color left node right)) (enough : right.levels ≤ tree.size)
    (leftTop : left.top ≠ none) (rightTop : right.top ≠ none)
    (black : (context.plug (.node color left node right)).color .black = .black) :
    ∃ tree₂ succ context₁ context₂ color', ∃ far', Spliced tree tree₂
      (context.plug (.node color left node right)) node succ context₁ context₂ color' .left far' := by
  obtain ⟨top, isTop⟩ := ne_none_iff_exists'.mp rightTop
  obtain ⟨inner, color', succ, far', rfl, outermost⟩ := Context.exists_outermost .left isTop
  have atLeft : At tree (⟨.left, color, node, _⟩ :: context) left := At.near h
  have atRight := atLeft.sibling
  have atSucc : At tree (inner ++ ⟨.right, color, node, left⟩ :: context)
      (.join color' .left .leaf succ far') := at_append.mpr atRight
  obtain ⟨_, nodeColor, leftLink, rightLink⟩ := h.linked.1
  have found : spliced tree node = some (some succ) := by
    rw [spliced, leftLink, rightLink, if_neg (not_or.mpr ⟨leftTop, rightTop⟩),
      atRight.outermost_eq enough, Context.walk_plug, outermost]
    rfl
  -- The successor is not in the rest of the tree.
  have succOutside := atSucc.outside (Shape.mem_walk_join.mpr (.inl rfl))
  have succFar : succ ∉ far'.walk .left := fun member =>
    atSucc.near.sibling.outside member mem_cons_self
  rw [Context.entries_append] at succOutside
  have different : some succ ≠ some node := by
    intro same
    refine succOutside (mem_append_right _ (mem_cons.mpr (.inl ?_)))
    exact some.inj same
  generalize made : replaceChild (setParent tree far'.top
    (Context.above (inner ++ ⟨.right, color, node, left⟩ :: context)))
      (Context.above (inner ++ ⟨.right, color, node, left⟩ :: context)) succ far'.top = tree₁
  have kept₁ : Kept tree tree₁ ∧ tree₁.color = tree.color := made ▸ splice_kept _ _ _ _ _
  have h₁ : At tree₁ context (.node color left node (inner.plug far')) :=
    (at_append.mp (made ▸ atSucc.splice)).joined
  have new : succ ∉ (Shape.node color left node (inner.plug far')).walk .left ++
      context.entries := by
    have walk : (Shape.node color left node (inner.plug far')).walk .left =
        left.walk .left ++ node :: (inner.plug far').walk .left := rfl
    have below := (Context.plug_perm inner far').mem_iff (a := succ)
    simp only [Context.entries, mem_append, mem_cons, not_or] at succOutside below
    rw [walk]
    simp only [mem_append, mem_cons, not_or, below]
    exact ⟨⟨succOutside.2.2.1, succOutside.2.1, succFar, succOutside.1⟩, succOutside.2.2.2⟩
  have h₂ := h₁.takePlace new
  obtain ⟨kept₂, null₂⟩ := h₁.takePlace_kept new
  have h₃ : At (Rbtree.takePlace tree₁ node succ) (⟨.right, color, succ, left⟩ :: context)
      (inner.plug far') := At.near h₂
  have whole : Context.plug (inner ++ ⟨.right, color, node, left⟩ :: context)
      (.join color' .left .leaf succ far') = context.plug (.node color left node
        (inner.plug (.join color' .left .leaf succ far'))) := Context.plug_append _ _ _
  have closed : Context.Closed (inner ++ ⟨.right, color, node, left⟩ :: context) := by
    rw [← whole] at black
    exact Context.closed_of_plug black
  refine ⟨_, succ, inner ++ ⟨.right, color, node, left⟩ :: context,
    inner ++ ⟨.right, color, succ, left⟩ :: context, color', far', found, whole,
    at_append.mpr h₃, kept₁.1.trans kept₂, ?_, ?_, ?_, ?_, ?_, ?_, ?_, ?_⟩
  · rw [null₂, kept₁.2]
  · exact h₂.linked.1.2.1.trans nodeColor.symm
  · have walk : ∀ entry subtree, (Shape.node color left entry subtree).walk .left =
        left.walk .left ++ entry :: subtree.walk .left := fun _ _ => rfl
    refine ⟨context.before .left ++ left.walk .left, (inner.plug (.join color' .left .leaf succ
      far')).walk .left ++ context.after .left, ?_, ?_⟩
    · rw [Context.walk_plug, walk]
      simp
    · have filled : Context.plug (inner ++ ⟨.right, color, succ, left⟩ :: context) far' =
          context.plug (.node color left succ (inner.plug far')) := Context.plug_append _ _ _
      have next : (inner.plug (.join color' .left .leaf succ far')).walk .left =
          succ :: (inner.plug far').walk .left := by
        rw [Context.walk_plug, Context.walk_plug, outermost]
        rfl
      rw [filled, Context.walk_plug, walk, next]
      simp
  · exact fun subtree => Context.rules_plug_entry succ
  · exact closed.of_entry succ
  · exact iff_of_false (by simp) (by simp)
  · intro empty
    simp at empty
  · rw [atSucc.erase_result found, if_pos different, made]

/-- Every node of the tree is taken out of one place. -/
theorem Rep.splice (h : Rep tree shape) {node : ν} (member : node ∈ shape.walk .left) :
    ∃ tree₂ succ context₀ context color side far,
      Spliced tree tree₂ shape node succ context₀ context color side far := by
  obtain ⟨context, subtree, rfl, top⟩ := Context.exists_plug member
  have here : At tree context subtree := at_plug.mpr h.linked
  match subtree, top with
  | .node color left node' right, top =>
    obtain rfl := some.inj top
    by_cases leftTop : left.top = none
    · obtain rfl := Shape.top_eq_none.mp leftTop
      have onLeft : At tree context (.join color .left .leaf node' right) := here
      have ⟨tree₂, spliced⟩ := onLeft.splice_node h.black
      exact ⟨tree₂, node', context, context, color, .left, right, spliced⟩
    · by_cases rightTop : right.top = none
      · obtain rfl := Shape.top_eq_none.mp rightTop
        have onRight : At tree context (.join color .right .leaf node' left) := here
        have ⟨tree₂, spliced⟩ := onRight.splice_node h.black
        exact ⟨tree₂, node', context, context, color, .right, left, spliced⟩
      · have levels := right.levels_le_length
        have total := (Context.plug_perm context (.node color left node' right)).length_eq
        have split : ((Shape.node color left node' right).walk .left).length =
            (left.walk .left).length + ((right.walk .left).length + 1) := length_append
        rw [← h.size, length_append, split] at total
        have ⟨tree₂, succ, context₁, context₂, color', far', spliced⟩ :=
          here.splice_next (by omega) leftTop rightTop h.black
        exact ⟨tree₂, succ, context₁, context₂, color', .left, far', spliced⟩

/-- The tree is balanced again, with its entries in their order. -/
theorem At.rebalance_eq (h : At tree context far) (closed : context.Closed) {succ : ν}
    (top : context = [] → tree.color succ = .black) (enough : context.length ≤ tree.size)
    (null : tree.color none = .black) :
    ∃ tree' shape', rebalance tree succ far.top = some tree' ∧
      Fixed tree tree' (context.plug far) shape' ∧ tree'.color none = .black := by
  rw [rebalance]
  have nullBlack : ∀ tree₁ : RbTree ν κ, (setColor tree₁ none .black).color none = .black := by
    intro tree₁
    unfold setColor
    dsimp only
    rw [update_self]
  by_cases black : tree.color succ = .black
  · rw [if_pos black]
    have done : ∀ {tree₁ : RbTree ν κ} {shape : Shape ν},
        Fixed tree tree₁ (context.plug far) shape →
          Fixed tree (setColor tree₁ none .black) (context.plug far) shape :=
      fun fixed => ⟨fixed.linked.recolor_null .black, fixed.walk, fixed.black, fixed.kept⟩
    cases child : far.top with
    | none =>
      obtain rfl := Shape.top_eq_none.mp child
      have balanced : (context.plug .leaf).color .black = .black := by
        cases context with
        | nil => rfl
        | cons frame up => exact closed.color_plug nofun _ _
      exact ⟨_, _, rfl, done ⟨at_plug.mp h, rfl, balanced, rfl, rfl, rfl⟩, nullBlack _⟩
    | some entry =>
      have ⟨tree', shape', result, fixed⟩ :=
        h.deleteFixup_eq (tree.size + 1) child closed (Nat.lt_succ_of_le enough)
      refine ⟨_, shape', ?_, done fixed, nullBlack _⟩
      rw [if_pos (some_ne_none entry), result]
      rfl
  · rw [if_neg black]
    refine ⟨tree, context.plug far, rfl, ⟨at_plug.mp h, rfl, ?_, rfl, rfl, rfl⟩, null⟩
    exact closed.color_plug (fun empty => black (top empty)) _ _

/-- The node is erased, and the rest keeps its order. -/
theorem Rep.erase_eq (h : Rep tree shape) {node : ν} (member : node ∈ shape.walk .left) :
    ∃ tree' shape' before after, pjRbtreeErase tree node = some (node, tree') ∧
      Rep tree' shape' ∧ shape.walk .left = before ++ node :: after ∧
      shape'.walk .left = before ++ after ∧ tree'.key = tree.key ∧ tree'.comp = tree.comp := by
  obtain ⟨tree₂, succ, context₀, context, color, side, far, spliced⟩ := h.splice member
  obtain ⟨before, after, order, order₂⟩ := spliced.order
  have size := h.size
  rw [order, length_append, length_cons] at size
  have top : context = [] → tree₂.color succ = .black := by
    intro empty
    have whole := spliced.whole
    have root := h.linked
    rw [spliced.top.mp empty, Context.plug] at whole
    rw [← whole] at root
    rw [spliced.color_eq, ← spliced.same empty, root.fields.2.1, ← h.black, ← whole, Shape.color_join]
  have enough : context.length ≤ tree₂.size := by
    have total := (Context.plug_perm context far).length_eq
    have frames := length_le_entries context
    rw [order₂, length_append, length_append] at total
    rw [spliced.kept.2.2]
    omega
  obtain ⟨tree', shape', balanced, fixed, null⟩ := spliced.linked.rebalance_eq spliced.closed top
    enough (spliced.null.trans h.null)
  have kept := spliced.kept.trans fixed.kept
  have order' : shape'.walk .left = before ++ after := fixed.walk.trans order₂
  refine ⟨{ tree' with size := tree'.size - 1 }, shape', before, after, ?_,
    ⟨?_, ?_, ?_, fixed.black, null⟩, order, order', kept.1, kept.2.1⟩
  · rw [spliced.result, balanced]
    rfl
  · exact fixed.linked.of_untouched rfl fun _ => ⟨rfl, rfl, fun _ => rfl⟩
  · show tree'.size - 1 = _
    rw [order', length_append, kept.2.2]
    omega
  · rw [order']
    have ordered := h.ordered
    rw [order] at ordered
    have rest : Ordered tree (before ++ after) :=
      ordered.sublist ((List.Sublist.refl before).append (sublist_cons_self node after))
    exact rest.of_keys kept.1 kept.2.1

end Pj.Rbtree
