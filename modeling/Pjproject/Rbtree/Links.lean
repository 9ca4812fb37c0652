import Pjproject.Rbtree.RbTree

/-!
# The links of a red-black tree

What the fields of the nodes say about the shape of the tree. A shape is looked at as a subtree and
the context around it, so that a step at a node is a step at the top of that subtree: it reads the
fields there, and the rest of the tree is what it was.
-/

namespace Pj.Rbtree
open Option Function List RedBlack

variable {ν κ : Type} {tree tree' : RbTree ν κ}

/-- The fields of the nodes of a subtree, below a node or `tree->null`. -/
def Linked (tree : RbTree ν κ) (above : Option ν) : Shape ν → Prop
  | .leaf => True
  | .node color left entry right =>
    (tree.parent entry = above ∧ tree.color entry = color ∧ tree.link .left entry = left.top ∧
      tree.link .right entry = right.top) ∧
      Linked tree (some entry) left ∧ Linked tree (some entry) right

/-- The fields of the nodes around a hole, with what is in the hole. -/
def Around (tree : RbTree ν κ) : Context ν → Option ν → Prop
  | [], top => tree.root = top
  | frame :: up, top =>
    (tree.parent frame.entry = Context.above up ∧ tree.color frame.entry = frame.color ∧
      tree.link frame.side frame.entry = top ∧
      tree.link frame.side.other frame.entry = frame.sibling.top) ∧
      Linked tree (some frame.entry) frame.sibling ∧ Around tree up (some frame.entry)

/-- The links are those of a subtree in a context, and each node is there once. -/
structure At (tree : RbTree ν κ) (context : Context ν) (subtree : Shape ν) : Prop where
  around : Around tree context subtree.top
  linked : Linked tree context.above subtree
  nodup : (subtree.walk .left ++ context.entries).Nodup
  null : ∀ side, tree.link side none = none

/-- A node whose links and colour are what they were. -/
def Untouched (tree tree' : RbTree ν κ) (node : Option ν) : Prop :=
  tree'.parent node = tree.parent node ∧ tree'.color node = tree.color node ∧
    ∀ side, tree'.link side node = tree.link side node

theorem Untouched.refl (tree : RbTree ν κ) (node : Option ν) : Untouched tree tree node :=
  ⟨rfl, rfl, fun _ => rfl⟩

theorem Untouched.trans {tree'' : RbTree ν κ} {node : Option ν} (h : Untouched tree tree' node)
    (h' : Untouched tree' tree'' node) : Untouched tree tree'' node :=
  ⟨h'.1.trans h.1, h'.2.1.trans h.2.1, fun side => (h'.2.2 side).trans (h.2.2 side)⟩

/-! ## Subtrees and contexts -/

variable {above : Option ν}

theorem linked_join {color : Color} {side : Side} {near far : Shape ν} {entry : ν} :
    Linked tree above (.join color side near entry far) ↔
      (tree.parent entry = above ∧ tree.color entry = color ∧ tree.link side entry = near.top ∧
        tree.link side.other entry = far.top) ∧
        Linked tree (some entry) near ∧ Linked tree (some entry) far := by
  cases side with
  | left => exact Iff.rfl
  | right =>
    refine and_congr ?_ and_comm
    exact and_congr_right fun _ => and_congr_right fun _ => and_comm

theorem Linked.congr {subtree : Shape ν} (h : Linked tree above subtree)
    (same : ∀ entry ∈ subtree.walk .left, Untouched tree tree' (some entry)) :
    Linked tree' above subtree := by
  induction subtree generalizing above with
  | leaf => exact trivial
  | node color left entry right ihLeft ihRight =>
    have ⟨⟨parent, colored, leftLink, rightLink⟩, linkedLeft, linkedRight⟩ := h
    have here := same entry (mem_append_right _ mem_cons_self)
    refine ⟨⟨here.1.trans parent, here.2.1.trans colored, (here.2.2 .left).trans leftLink,
      (here.2.2 .right).trans rightLink⟩, ?_, ?_⟩
    · exact ihLeft linkedLeft fun other member => same other (mem_append_left _ member)
    · exact ihRight linkedRight fun other member =>
        same other (mem_append_right _ (mem_cons_of_mem _ member))

/-- A subtree below another node. -/
theorem Linked.reparent {above' : Option ν} {subtree : Shape ν} (h : Linked tree above subtree)
    (nodup : (subtree.walk .left).Nodup)
    (top : ∀ entry, subtree.top = some entry → tree'.parent entry = above' ∧
      tree'.color entry = tree.color entry ∧ ∀ side, tree'.link side entry = tree.link side entry)
    (same : ∀ entry ∈ subtree.walk .left, subtree.top ≠ some entry →
      Untouched tree tree' (some entry)) : Linked tree' above' subtree := by
  cases subtree with
  | leaf => exact trivial
  | node color left entry right =>
    have ⟨⟨_, colored, leftLink, rightLink⟩, linkedLeft, linkedRight⟩ := h
    have ⟨parent, color', link⟩ := top entry rfl
    have ⟨_, nodupRight, apart⟩ := nodup_append.mp nodup
    refine ⟨⟨parent, color'.trans colored, (link .left).trans leftLink,
      (link .right).trans rightLink⟩, linkedLeft.congr fun other member => ?_,
      linkedRight.congr fun other member => ?_⟩
    · refine same other (mem_append_left _ member) fun isTop => ?_
      exact apart other member entry mem_cons_self (some.inj isTop).symm
    · refine same other (mem_append_right _ (mem_cons_of_mem _ member)) fun isTop => ?_
      obtain rfl := some.inj isTop
      exact (nodup_cons.mp nodupRight).1 member

theorem Around.congr {context : Context ν} {top : Option ν} (h : Around tree context top)
    (same : ∀ entry ∈ context.entries, Untouched tree tree' (some entry))
    (root : tree'.root = tree.root) : Around tree' context top := by
  induction context generalizing top with
  | nil => exact root.trans h
  | cons frame up ih =>
    have ⟨⟨parent, colored, link, otherLink⟩, linked, around⟩ := h
    have here := same frame.entry mem_cons_self
    refine ⟨⟨here.1.trans parent, here.2.1.trans colored, (here.2.2 _).trans link,
      (here.2.2 _).trans otherLink⟩, ?_, ?_⟩
    · exact linked.congr fun entry member =>
        same entry (mem_cons_of_mem _ (mem_append_left _ member))
    · exact ih around fun entry member =>
        same entry (mem_cons_of_mem _ (mem_append_right _ member))

/-- What fills a frame has the entries of the frame as well. -/
theorem fill_perm (frame : Frame ν) (up : Context ν) (subtree : Shape ν) :
    ((frame.fill subtree).walk .left ++ up.entries).Perm
      (subtree.walk .left ++ Context.entries (frame :: up)) := by
  refine (List.Perm.append_right _ (Context.plug_perm [frame] subtree)).trans
    (List.Perm.of_eq ?_)
  simp [Context.entries]

/-- One node up. -/
theorem at_cons {frame : Frame ν} {up : Context ν} {subtree : Shape ν} :
    At tree (frame :: up) subtree ↔ At tree up (frame.fill subtree) := by
  have nodup := (fill_perm frame up subtree).nodup_iff
  constructor
  · intro h
    obtain ⟨fields, linked, around⟩ := h.around
    refine ⟨?_, linked_join.mpr ⟨fields, h.linked, linked⟩, nodup.mpr h.nodup, h.null⟩
    rw [Frame.fill, Shape.top_join]
    exact around
  · intro h
    obtain ⟨fields, linked, linkedSibling⟩ := linked_join.mp h.linked
    have around := h.around
    rw [Frame.fill, Shape.top_join] at around
    exact ⟨⟨fields, linkedSibling, around⟩, linked, nodup.mp h.nodup, h.null⟩

/-- Any number of nodes up. -/
theorem at_append {inner outer : Context ν} {subtree : Shape ν} :
    At tree (inner ++ outer) subtree ↔ At tree outer (inner.plug subtree) := by
  induction inner generalizing subtree with
  | nil => exact Iff.rfl
  | cons frame up ih => exact at_cons.trans ih

/-- The whole tree. -/
theorem at_plug {context : Context ν} {subtree : Shape ν} :
    At tree context subtree ↔ At tree [] (context.plug subtree) := by
  have whole : At tree (context ++ []) subtree ↔ At tree [] (context.plug subtree) := at_append
  rwa [append_nil] at whole

/-- The other subtree of the node above. -/
theorem At.sibling {side : Side} {color : Color} {entry : ν} {sibling subtree : Shape ν}
    {up : Context ν} (h : At tree (⟨side, color, entry, sibling⟩ :: up) subtree) :
    At tree (⟨side.other, color, entry, subtree⟩ :: up) sibling := by
  apply at_cons.mpr
  have filled := at_cons.mp h
  rw [Frame.fill] at filled ⊢
  rwa [Shape.join_other]

/-- And back. -/
theorem At.sibling_other {side : Side} {color : Color} {entry : ν} {sibling subtree : Shape ν}
    {up : Context ν} (h : At tree (⟨side.other, color, entry, sibling⟩ :: up) subtree) :
    At tree (⟨side, color, entry, subtree⟩ :: up) sibling := by
  have back := h.sibling
  rwa [Side.other_other] at back

/-- From a node to its subtree on one side. -/
theorem At.near {side : Side} {color : Color} {entry : ν} {near far : Shape ν} {up : Context ν}
    (h : At tree up (.join color side near entry far)) :
    At tree (⟨side, color, entry, far⟩ :: up) near :=
  at_cons.mpr h

/-- And back to the node. -/
theorem At.joined {side : Side} {color : Color} {entry : ν} {near far : Shape ν} {up : Context ν}
    (h : At tree (⟨side, color, entry, far⟩ :: up) near) :
    At tree up (.join color side near entry far) :=
  at_cons.mp h

/-- Trees with the same links and colours. -/
theorem At.of_untouched {context : Context ν} {subtree : Shape ν} (h : At tree context subtree)
    (root : tree'.root = tree.root) (same : ∀ node, Untouched tree tree' node) :
    At tree' context subtree :=
  ⟨h.around.congr (fun _ _ => same _) root, h.linked.congr fun _ _ => same _, h.nodup,
    fun side => ((same none).2.2 side).trans (h.null side)⟩

/-! ## Reading fields -/

section reading
variable {context up : Context ν} {subtree near far : Shape ν} {frame : Frame ν} {side : Side}
  {color : Color} {entry : ν}

/-- The fields of the node at the top. -/
theorem At.fields (h : At tree context (.join color side near entry far)) :
    tree.parent entry = context.above ∧ tree.color entry = color ∧
      tree.link side entry = near.top ∧ tree.link side.other entry = far.top :=
  (linked_join.mp h.linked).1

theorem At.parent_eq (h : At tree context subtree) (top : subtree.top = some entry) :
    tree.parent entry = context.above := by
  obtain ⟨color, near, far, rfl⟩ := Shape.exists_join .left top
  exact h.fields.1

/-- The colour at the top, which may be that of `tree->null`. -/
theorem At.color_eq (h : At tree context subtree) :
    tree.color subtree.top = subtree.color (tree.color none) := by
  cases subtree with
  | leaf => rfl
  | node color left entry right => exact h.linked.1.2.1

/-- The links of the node above. -/
theorem At.above_links (h : At tree (frame :: up) subtree) :
    tree.link frame.side frame.entry = subtree.top ∧
      tree.link frame.side.other frame.entry = frame.sibling.top :=
  h.around.1.2.2

theorem At.above_color (h : At tree (frame :: up) subtree) :
    tree.color frame.entry = frame.color :=
  h.around.1.2.1

/-- The root is the top only of the whole tree. -/
theorem At.root_eq (h : At tree [] subtree) : tree.root = subtree.top := h.around

/-- The root is around a hole that is not the top. -/
theorem Around.root_mem {top : Option ν} (h : Around tree (frame :: up) top) :
    ∃ entry ∈ Context.entries (frame :: up), tree.root = some entry := by
  induction up generalizing frame top with
  | nil => exact ⟨frame.entry, mem_cons_self, h.2.2⟩
  | cons frame' up ih =>
    have ⟨entry, member, root⟩ := ih h.2.2
    exact ⟨entry, mem_cons_of_mem _ (mem_append_right _ member), root⟩

/-- A node of the subtree is not around it. -/
theorem At.outside (h : At tree context subtree) (member : entry ∈ subtree.walk .left) :
    entry ∉ context.entries := fun around =>
  (nodup_append.mp h.nodup).2.2 entry member entry around rfl

section
variable (h : At tree (frame :: up) subtree) (top : subtree.top = some entry)
include h top

/-- A node that is not the root. -/
theorem At.root_ne : tree.root ≠ some entry := by
  have ⟨other, member, root⟩ := h.around.root_mem
  rw [root]
  rintro same
  obtain rfl := some.inj same
  exact h.outside (Shape.top_mem top) member

/-- The sides of the node above are told apart. -/
theorem At.link_ne : tree.link frame.side.other frame.entry ≠ some entry := by
  rw [h.above_links.2]
  intro same
  apply h.outside (Shape.top_mem top)
  exact mem_cons_of_mem _ (mem_append_left _ (Shape.top_mem same))

/-- The test by which the source finds the side. -/
theorem At.left_iff : tree.link .left frame.entry = some entry ↔ frame.side = .left := by
  cases isLeft : frame.side with
  | left =>
    have link := h.above_links.1
    rw [isLeft] at link
    exact iff_of_true (link.trans top) rfl
  | right =>
    have apart := h.link_ne top
    rw [isLeft] at apart
    exact iff_of_false apart nofun

end

end reading

/-! ## Writing fields -/

section writing
variable [DecidableEq ν] {context up : Context ν} {subtree near far : Shape ν} {side : Side}
  {color : Color} {entry : ν} {node node' value : Option ν}

theorem setLink_untouched (different : node' ≠ node) :
    Untouched tree (setLink tree side node value) node' := by
  refine ⟨rfl, rfl, fun side' => ?_⟩
  rw [setLink]
  by_cases same : side' = side
  · rw [same]
    dsimp only
    rw [update_self, update_of_ne different]
  · dsimp only
    rw [update_of_ne same]

theorem setLink_self : (setLink tree side node value).link side node = value := by
  rw [setLink]
  dsimp only
  rw [update_self, update_self]

theorem setLink_other {side' : Side} (different : side' ≠ side) :
    (setLink tree side node value).link side' node' = tree.link side' node' := by
  rw [setLink]
  dsimp only
  rw [update_of_ne different]

theorem setParent_untouched (different : node' ≠ node) :
    Untouched tree (setParent tree node value) node' :=
  ⟨update_of_ne different _ _, rfl, fun _ => rfl⟩

theorem adopt_untouched (different : node' ≠ node) :
    Untouched tree (adopt tree node value) node' := by
  unfold adopt
  split
  · exact setParent_untouched different
  · exact .refl _ _

/-- Only the parent of the node is written. -/
theorem adopt_eq (tree : RbTree ν κ) (node value : Option ν) :
    ∃ parent, adopt tree node value = { tree with parent } ∧
      ∀ entry, node = some entry → parent entry = value := by
  unfold adopt
  split
  · refine ⟨_, rfl, fun entry same => ?_⟩
    rw [same, update_self]
  · next absent => exact ⟨tree.parent, rfl, fun entry same => absurd (same ▸ nofun) absent⟩

@[simp] theorem adopt_root : (adopt tree node value).root = tree.root := by
  unfold adopt
  split <;> rfl

@[simp] theorem adopt_link : (adopt tree node value).link = tree.link := by
  unfold adopt
  split <;> rfl

@[simp] theorem adopt_color : (adopt tree node value).color = tree.color := by
  unfold adopt
  split <;> rfl

theorem setColor_untouched (different : node' ≠ node) :
    Untouched tree (setColor tree node color) node' :=
  ⟨rfl, update_of_ne different _ _, fun _ => rfl⟩

@[simp] theorem setColor_parent : (setColor tree node color).parent = tree.parent := rfl

@[simp] theorem setColor_link : (setColor tree node color).link = tree.link := rfl

theorem replaceChild_untouched (different : node' ≠ node) {child : Option ν} :
    Untouched tree (replaceChild tree node child value) node' := by
  unfold replaceChild
  split
  · split
    · exact setLink_untouched different
    · exact setLink_untouched different
  · exact .refl _ _

/-- Only links and the root are written. -/
theorem replaceChild_eq (tree : RbTree ν κ) (parent node value : Option ν) :
    ∃ root link, replaceChild tree parent node value = { tree with root, link } := by
  unfold replaceChild
  split
  · split
    · exact ⟨tree.root, _, rfl⟩
    · exact ⟨tree.root, _, rfl⟩
  · exact ⟨value, tree.link, rfl⟩

/-- The links of `tree->null` are not written. -/
theorem replaceChild_null (tree : RbTree ν κ) (parent node value : Option ν) (side : Side) :
    (replaceChild tree parent node value).link side none = tree.link side none := by
  by_cases isNone : parent = none
  · rw [replaceChild, if_neg (not_not.mpr isNone)]
  · exact (replaceChild_untouched (Ne.symm isNone)).2.2 side

/-- The link from above leads elsewhere. -/
theorem Around.replaceChild (h : Around tree context (some entry))
    (nodup : (entry :: context.entries).Nodup) (value : Option ν) :
    Around (replaceChild tree context.above (some entry) value) context value := by
  have ⟨absent, nodup⟩ := nodup_cons.mp nodup
  cases context with
  | nil => exact rfl
  | cons frame up =>
    have ⟨⟨parent, colored, link, otherLink⟩, linked, around⟩ := h
    have ⟨apart, _⟩ := nodup_cons.mp nodup
    have written : Rbtree.replaceChild tree (some frame.entry) (some entry) value =
        setLink tree frame.side frame.entry value := by
      rw [Rbtree.replaceChild, if_pos nofun]
      cases side : frame.side with
      | left =>
        rw [side] at link
        exact if_pos link
      | right =>
        rw [side] at otherLink
        refine if_neg fun same => absent (mem_cons_of_mem _ (mem_append_left _ ?_))
        exact Shape.top_mem (otherLink.symm.trans same)
    rw [Context.above, written]
    have away : ∀ other ∈ frame.sibling.walk .left ++ Context.entries up,
        Untouched tree (setLink tree frame.side frame.entry value) (some other) := by
      intro other member
      refine setLink_untouched fun same => apart ?_
      rwa [← some.inj same]
    refine ⟨⟨parent, colored, setLink_self,
      (setLink_other (Side.other_ne _)).trans otherLink⟩, ?_, ?_⟩
    · exact linked.congr fun other member => away other (mem_append_left _ member)
    · exact around.congr (fun other member => away other (mem_append_right _ member)) rfl

/-- Another colour at the top, which may be `tree->null`. -/
theorem At.recolor (h : At tree context subtree) (color : Color) :
    At (setColor tree subtree.top color) context (subtree.recolor color) := by
  have away : ∀ entry, subtree.top ≠ some entry →
      Untouched tree (setColor tree subtree.top color) (some entry) :=
    fun entry different => setColor_untouched (Ne.symm different)
  have around : ∀ entry ∈ context.entries, subtree.top ≠ some entry :=
    fun entry member top => h.outside (Shape.top_mem top) member
  refine ⟨?_, ?_, ?_, h.null⟩
  · rw [Shape.top_recolor]
    exact h.around.congr (fun entry member => away entry (around entry member)) rfl
  · cases subtree with
    | leaf => exact trivial
    | node color' left entry right =>
      have ⟨⟨parent, _, leftLink, rightLink⟩, linkedLeft, linkedRight⟩ := h.linked
      have nodup := nodup_append.mp (nodup_append.mp h.nodup).1
      refine ⟨⟨parent, update_self _ _ _, leftLink, rightLink⟩, ?_, ?_⟩
      · refine linkedLeft.congr fun other member => away other fun top => ?_
        exact nodup.2.2 other member entry mem_cons_self (some.inj top).symm
      · refine linkedRight.congr fun other member => away other fun top => ?_
        rw [← some.inj top] at member
        exact (nodup_cons.mp nodup.2.1).1 member
  · rw [Shape.walk_recolor]
    exact h.nodup

/-- The colour of `tree->null` is not part of the tree. -/
theorem At.recolor_null (h : At tree context subtree) (color : Color) :
    At (setColor tree none color) context subtree := by
  have away : ∀ entry, Untouched tree (setColor tree none color) (some entry) :=
    fun entry => setColor_untouched (some_ne_none entry)
  exact ⟨h.around.congr (fun entry _ => away entry) rfl, h.linked.congr fun entry _ => away entry,
    h.nodup, h.null⟩

end writing

/-! ## Rotations -/

section rotations
variable [DecidableEq ν] {context : Context ν} {side : Side} {color color' : Color} {entry child : ν}
  {near inner far : Shape ν}

/-- A rotation writes links only. -/
theorem rotate_eq (side : Side) (tree : RbTree ν κ) (node : Option ν) :
    ∃ root link parent, rotate side tree node = { tree with root, link, parent } := by
  rw [rotate]
  dsimp only
  split
  · exact ⟨tree.root, tree.link, tree.parent, rfl⟩
  · have ⟨parent, adopted, _⟩ := adopt_eq (setLink tree side.other node
      (tree.link side (tree.link side.other node)))
      ((setLink tree side.other node (tree.link side (tree.link side.other node))).link side
        (tree.link side.other node)) node
    rw [adopted]
    have ⟨root, link, replaced⟩ := replaceChild_eq (setParent
      { setLink tree side.other node (tree.link side (tree.link side.other node)) with parent }
      (tree.link side.other node) (parent node)) (parent node) node (tree.link side.other node)
    rw [replaced]
    exact ⟨_, _, _, rfl⟩

/-- What a rotation writes: the fields of the node and of its child, the parent of what is between
them, and the link from above. -/
structure Rotated (tree tree' : RbTree ν κ) (side : Side) (entry child : ν)
    (inner above : Option ν) : Prop where
  ofEntry : tree'.parent entry = some child ∧ tree'.link side entry = tree.link side entry ∧
    tree'.link side.other entry = inner
  ofChild : tree'.parent child = above ∧ tree'.link side child = some entry ∧
    tree'.link side.other child = tree.link side.other child
  ofInner : ∀ other : ν, inner = some other → above ≠ some other → tree'.parent other = some entry ∧
    tree'.color other = tree.color other ∧ ∀ side, tree'.link side other = tree.link side other
  replaced : ∃ tree₁ : RbTree ν κ, tree₁.root = tree.root ∧
    (∀ other, other ≠ some entry → other ≠ some child → other ≠ inner →
      Untouched tree tree₁ other) ∧
    tree'.root = (replaceChild tree₁ above entry child).root ∧
    ∀ other, other ≠ some entry → other ≠ some child →
      Untouched (replaceChild tree₁ above entry child) tree' other
  color : tree'.color = tree.color
  null : ∀ side, tree'.link side none = tree.link side none

/-- A node that is neither one of these nor between or above them is untouched. -/
theorem Rotated.rest {inner : Option ν} (h : Rotated tree tree' side entry child inner above)
    {other : Option ν} (notEntry : other ≠ some entry) (notChild : other ≠ some child)
    (notInner : other ≠ inner) (notAbove : other ≠ above) : Untouched tree tree' other := by
  have ⟨tree₁, _, before, _, after⟩ := h.replaced
  exact (before other notEntry notChild notInner).trans
    ((replaceChild_untouched notAbove).trans (after other notEntry notChild))

theorem rotate_spec {inner : Option ν} (childLink : tree.link side.other entry = some child)
    (innerLink : tree.link side child = inner) (aboveLink : tree.parent entry = above)
    (different : child ≠ entry) (innerEntry : inner ≠ some entry)
    (innerChild : inner ≠ some child) (aboveEntry : above ≠ some entry)
    (aboveChild : above ≠ some child) :
    Rotated tree (rotate side tree entry) side entry child inner above := by
  have different' : some child ≠ some entry := fun same => different (some.inj same)
  -- The writes, in their order.
  generalize made₁ : adopt (setLink tree side.other entry inner) inner entry = tree₁
  generalize made₂ : replaceChild (setParent tree₁ child above) above entry child = tree₂
  generalize made₃ : setParent (setLink tree₂ side child entry) entry child = tree₃
  have first : ∀ other, other ≠ some entry → other ≠ inner → Untouched tree tree₁ other := by
    intro other notEntry notInner
    rw [← made₁]
    exact (setLink_untouched notEntry).trans (adopt_untouched notInner)
  have second : ∀ other, other ≠ some child → other ≠ above → Untouched tree₁ tree₂ other := by
    intro other notChild notAbove
    rw [← made₂]
    exact (setParent_untouched notChild).trans (replaceChild_untouched notAbove)
  have third : ∀ other, other ≠ some entry → other ≠ some child → Untouched tree₂ tree₃ other := by
    intro other notEntry notChild
    rw [← made₃]
    exact (setLink_untouched notChild).trans (setParent_untouched notEntry)
  have ⟨parent₁, adopted, inherits⟩ :=
    adopt_eq (setLink tree side.other entry inner) inner entry
  rw [made₁] at adopted
  have result : rotate side tree entry = tree₃ := by
    have again : (setLink tree side.other (some entry) inner).link side (some child) = inner :=
      ((setLink_untouched different').2.2 side).trans innerLink
    have parent : tree₁.parent (some entry) = above := by
      rw [← made₁]
      exact (adopt_untouched (Ne.symm innerEntry)).1.trans aboveLink
    unfold rotate
    dsimp only
    rw [childLink, if_neg nofun, innerLink, again, made₁, parent, made₂, made₃]
  have colors : tree₃.color = tree.color := by
    have ⟨_, _, _, rotated⟩ := rotate_eq side tree (some entry)
    rw [← result, rotated]
  have linksEntry : ∀ side', tree₃.link side' (some entry) = tree₁.link side' (some entry) := by
    intro side'
    have kept : (setLink tree₂ side (some child) (some entry)).link side' (some entry) =
        tree₂.link side' (some entry) := (setLink_untouched (Ne.symm different')).2.2 side'
    rw [← made₃]
    exact kept.trans ((second _ (Ne.symm different') (Ne.symm aboveEntry)).2.2 side')
  rw [result]
  refine ⟨⟨?_, ?_, ?_⟩, ⟨?_, ?_, ?_⟩, fun other isInner notAbove => ?_, ?_, colors, fun side' => ?_⟩
  · rw [← made₃]
    exact update_self _ _ _
  · rw [linksEntry, adopted]
    exact setLink_other (Side.ne_other side)
  · rw [linksEntry, adopted]
    exact setLink_self
  · have ⟨_, _, replaced⟩ := replaceChild_eq (setParent tree₁ child above) above entry child
    rw [made₂] at replaced
    rw [← made₃, setParent, replaced]
    exact (update_of_ne different' _ _).trans (update_self _ _ _)
  · rw [← made₃]
    exact setLink_self
  · rw [← made₃]
    refine (setLink_other (Side.other_ne side)).trans ?_
    rw [← made₂]
    refine ((replaceChild_untouched (Ne.symm aboveChild)).2.2 side.other).trans ?_
    rw [setParent, adopted]
    exact (setLink_untouched different').2.2 side.other
  · have notEntry : some other ≠ some entry := isInner ▸ innerEntry
    have notChild : some other ≠ some child := isInner ▸ innerChild
    have later := (second _ notChild (Ne.symm notAbove)).trans (third _ notEntry notChild)
    rw [adopted] at later
    refine ⟨later.1.trans (inherits other isInner), later.2.1, fun side' => ?_⟩
    exact (later.2.2 side').trans ((setLink_untouched notEntry).2.2 side')
  · refine ⟨setParent tree₁ child above, ?_, fun other notEntry notChild notInner => ?_, ?_, ?_⟩
    · rw [adopted]
      rfl
    · exact (first other notEntry notInner).trans (setParent_untouched notChild)
    · rw [made₂, ← made₃]
      rfl
    · rw [made₂]
      exact third
  · have later : tree₃.link side' none = tree₂.link side' none := by
      rw [← made₃]
      exact (setLink_untouched (some_ne_none child).symm).2.2 side'
    rw [later, ← made₂, replaceChild_null, setParent, adopted]
    exact (setLink_untouched (some_ne_none entry).symm).2.2 side'

/-- A rotation at `tree->null` does nothing. -/
theorem At.rotate_null {subtree : Shape ν} (h : At tree context subtree) (side : Side) :
    rotate side tree none = tree := by
  exact if_pos (h.null side.other)

/-- A node without a child on the other side is left alone. -/
theorem At.rotate_leaf (h : At tree context (.join color side near entry .leaf)) :
    rotate side tree entry = tree := by
  exact if_pos h.fields.2.2.2

/-- The child on the other side goes up. -/
theorem At.rotate
    (h : At tree context (.join color side near entry (.join color' side inner child far))) :
    At (rotate side tree entry) context
      (.join color' side (.join color side near entry inner) child far) := by
  have atNear := h.near
  have atChild := atNear.sibling
  have atInner := atChild.near
  have atFar := atInner.sibling
  obtain ⟨parent, colored, link, otherLink⟩ := h.fields
  obtain ⟨_, coloredChild, linkChild, otherLinkChild⟩ := atChild.fields
  rw [Shape.top_join] at otherLink
  -- The nodes whose fields are written are not any other nodes.
  have entryOutside := h.outside (Shape.mem_walk_join.mpr (.inl rfl))
  have childOutside := atChild.outside (Shape.mem_walk_join.mpr (.inl rfl))
  have innerOutside := fun (other : ν) (member : other ∈ inner.walk .left) =>
    atInner.outside member
  have nearOutside := fun (other : ν) (member : other ∈ near.walk .left) => atNear.outside member
  have farOutside := fun (other : ν) (member : other ∈ far.walk .left) => atFar.outside member
  simp only [Context.entries, Shape.mem_walk_join, mem_cons, mem_append, not_or]
    at childOutside innerOutside nearOutside farOutside
  have rotated : Rotated tree (Rbtree.rotate side tree entry) side entry child inner.top
      context.above :=
    rotate_spec otherLink linkChild parent childOutside.1
      (fun top => (innerOutside entry (Shape.top_mem top)).2.2.1 rfl)
      (fun top => (innerOutside child (Shape.top_mem top)).1 rfl)
      (fun above => entryOutside (Context.above_mem above))
      (fun above => childOutside.2.2 (Context.above_mem above))
  have rest : ∀ other, other ≠ entry → other ≠ child → inner.top ≠ some other →
      other ∉ context.entries → Untouched tree (Rbtree.rotate side tree entry) (some other) :=
    fun other notEntry notChild notInner notContext =>
      rotated.rest (fun same => notEntry (some.inj same))
        (fun same => notChild (some.inj same)) (Ne.symm notInner)
        fun same => notContext (Context.above_mem same.symm)
  have linkedNear : Linked (Rbtree.rotate side tree entry) (some entry) near := by
    refine atNear.linked.congr fun other member => ?_
    obtain ⟨notEntry, ⟨notChild, notInner, _⟩, notContext⟩ := nearOutside other member
    exact rest other notEntry notChild (fun top => notInner (Shape.top_mem top)) notContext
  have linkedFar : Linked (Rbtree.rotate side tree entry) (some child) far := by
    refine atFar.linked.congr fun other member => ?_
    obtain ⟨notChild, notInner, notEntry, _, notContext⟩ := farOutside other member
    exact rest other notEntry notChild (fun top => notInner (Shape.top_mem top)) notContext
  have linkedInner : Linked (Rbtree.rotate side tree entry) (some entry) inner := by
    refine atInner.linked.reparent (nodup_append.mp atInner.nodup).1 (fun other top => ?_)
      fun other member notTop => ?_
    · obtain ⟨_, _, _, _, notContext⟩ := innerOutside other (Shape.top_mem top)
      exact rotated.ofInner other top fun above => notContext (Context.above_mem above)
    · obtain ⟨notChild, _, notEntry, _, notContext⟩ := innerOutside other member
      exact rest other notEntry notChild notTop notContext
  have around : Around (Rbtree.rotate side tree entry) context (some child) := by
    obtain ⟨tree₁, root, before, root', after⟩ := rotated.replaced
    have outside : ∀ other ∈ context.entries, some other ≠ some entry ∧ some other ≠ some child := by
      intro other member
      constructor
      · rintro same
        exact entryOutside (some.inj same ▸ member)
      · rintro same
        exact childOutside.2.2 (some.inj same ▸ member)
    have here := h.around
    rw [Shape.top_join] at here
    have here₁ : Around tree₁ context (some entry) := by
      refine here.congr (fun other member => ?_) root
      obtain ⟨notEntry, notChild⟩ := outside other member
      refine before _ notEntry notChild fun top => ?_
      exact (innerOutside other (Shape.top_mem top.symm)).2.2.2.2 member
    refine (here₁.replaceChild (nodup_cons.mpr ⟨entryOutside, (nodup_append.mp
      h.nodup).2.1⟩) (some child)).congr (fun other member => ?_) root'
    obtain ⟨notEntry, notChild⟩ := outside other member
    exact after _ notEntry notChild
  refine ⟨?_, ?_, ?_, fun side' => (rotated.null side').trans (h.null side')⟩
  · rw [Shape.top_join]
    exact around
  · refine linked_join.mpr ⟨⟨rotated.ofChild.1, ?_, ?_, rotated.ofChild.2.2.trans otherLinkChild⟩,
      linked_join.mpr ⟨⟨rotated.ofEntry.1, ?_, rotated.ofEntry.2.1.trans link, rotated.ofEntry.2.2⟩,
        linkedNear, linkedInner⟩, linkedFar⟩
    · rw [rotated.color]
      exact coloredChild
    · rw [Shape.top_join]
      exact rotated.ofChild.2.1
    · rw [rotated.color]
      exact colored
  · rw [Shape.walk_rotate]
    exact h.nodup

end rotations

end Pj.Rbtree
