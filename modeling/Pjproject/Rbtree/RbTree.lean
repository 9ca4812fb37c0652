import Pjproject.Lib.RedBlack

/-!
# Red-black tree

The tree of `rbtree.c`. A node is known by its address, and the fields of the nodes are part of the
state; `none` is the node `tree->null`, and `NULL` where a function returns it. What the source has
twice, with left and right exchanged, has the side as a parameter. The nodes are in memory, so that
their number does not wrap. The user data, which no function reads, are left out.
-/

namespace Pj
open Function RedBlack

/-- `pj_rbtree_comp`, a comparison that is a total order. -/
structure RbtreeComp (κ : Type) where
  compare : κ → κ → Int
  swap : ∀ key1 key2, compare key1 key2 < 0 ↔ 0 < compare key2 key1
  trans : ∀ key1 key2 key3, compare key1 key2 ≤ 0 → compare key2 key3 ≤ 0 → compare key1 key3 ≤ 0

/-- `pj_rbtree`, and the fields of the nodes. -/
structure RbTree (ν κ : Type) where
  root : Option ν
  /-- `left` and `right`. -/
  link : Side → Option ν → Option ν
  parent : Option ν → Option ν
  color : Option ν → Color
  key : ν → κ
  size : Nat
  comp : RbtreeComp κ

namespace Rbtree

variable {ν κ : Type} [DecidableEq ν]

/-- A write to `left` or `right`. -/
def setLink (tree : RbTree ν κ) (side : Side) (node value : Option ν) : RbTree ν κ :=
  { tree with link := update tree.link side (update (tree.link side) node value) }

/-- A write to `parent`. -/
def setParent (tree : RbTree ν κ) (node value : Option ν) : RbTree ν κ :=
  { tree with parent := update tree.parent node value }

/-- A write to the `parent` of a node, unless it is `tree->null`. -/
def adopt (tree : RbTree ν κ) (node value : Option ν) : RbTree ν κ :=
  if node ≠ none then setParent tree node value else tree

/-- A write to `color`. -/
def setColor (tree : RbTree ν κ) (node : Option ν) (value : Color) : RbTree ν κ :=
  { tree with color := update tree.color node value }

/-- What the rotations and `pj_rbtree_erase` do with the link from above to a node. -/
def replaceChild (tree : RbTree ν κ) (parent node value : Option ν) : RbTree ν κ :=
  if parent ≠ none then
    if tree.link .left parent = node then setLink tree .left parent value
    else setLink tree .right parent value
  else { tree with root := value }

/-- `left_rotate` for the left side, and `right_rotate` for the right side. -/
def rotate (side : Side) (tree : RbTree ν κ) (node : Option ν) : RbTree ν κ :=
  let rnode := tree.link side.other node
  if rnode = none then tree
  else
    let tree := setLink tree side.other node (tree.link side rnode)
    let tree := adopt tree (tree.link side rnode) node
    let parent := tree.parent node
    let tree := setParent tree rnode parent
    let tree := replaceChild tree parent node rnode
    let tree := setLink tree side rnode node
    setParent tree node rnode

/-- `left_rotate`. -/
def leftRotate : RbTree ν κ → Option ν → RbTree ν κ := rotate .left

/-- `right_rotate`. -/
def rightRotate : RbTree ν κ → Option ν → RbTree ν κ := rotate .right

/-- The body of the loop in `insert_fixup`, with the side of the parent. -/
def insertTurn (side : Side) (tree : RbTree ν κ) (node : Option ν) : RbTree ν κ × Option ν :=
  let parent := tree.parent node
  let temp := tree.link side.other (tree.parent parent)
  if tree.color temp = .red then
    let tree := setColor tree temp .black
    let node := parent
    let tree := setColor tree node .black
    let node := tree.parent node
    (setColor tree node .red, node)
  else
    let (tree, node) :=
      if node = tree.link side.other parent then (rotate side tree parent, parent)
      else (tree, node)
    let temp := tree.parent node
    let tree := setColor tree temp .black
    let temp := tree.parent temp
    let tree := setColor tree temp .red
    (rotate side.other tree temp, node)

/-- `insert_fixup`. A turn moves up the tree or is the last one. -/
def insertFixup : Nat → RbTree ν κ → Option ν → Option (RbTree ν κ)
  | 0, _, _ => none
  | fuel + 1, tree, node =>
    if node ≠ tree.root ∧ tree.color (tree.parent node) = .red then
      let parent := tree.parent node
      let (tree, node) :=
        if parent = tree.link .left (tree.parent parent) then insertTurn .left tree node
        else insertTurn .right tree node
      insertFixup fuel tree node
    else some (setColor tree tree.root .black)

/-- The first case in the loop of `delete_fixup`, with the side of the node: its sibling is red. -/
def siblingBlack (side : Side) (tree : RbTree ν κ) (node : Option ν) : RbTree ν κ × Option ν :=
  let temp := tree.link side.other (tree.parent node)
  if tree.color temp = .red then
    let tree := setColor tree temp .black
    let tree := setColor tree (tree.parent node) .red
    let tree := rotate side tree (tree.parent node)
    (tree, tree.link side.other (tree.parent node))
  else (tree, temp)

/-- The third case: the child of the sibling that is away from the node is black. -/
def farRed (side : Side) (tree : RbTree ν κ) (node temp : Option ν) : RbTree ν κ × Option ν :=
  if tree.color (tree.link side.other temp) = .black then
    let tree := setColor tree (tree.link side temp) .black
    let tree := setColor tree temp .red
    let tree := rotate side.other tree temp
    (tree, tree.link side.other (tree.parent node))
  else (tree, temp)

/-- The last case: that child is red. The source has the two writes of black in the other order for
the right side. -/
def deleteLast (side : Side) (tree : RbTree ν κ) (node temp : Option ν) : RbTree ν κ :=
  let tree := setColor tree temp (tree.color (tree.parent node))
  let tree := setColor tree (tree.link side.other temp) .black
  let tree := setColor tree (tree.parent node) .black
  rotate side tree (tree.parent node)

/-- The body of the loop in `delete_fixup`, with the side of the node. -/
def deleteTurn (side : Side) (tree : RbTree ν κ) (node : Option ν) : RbTree ν κ × Option ν :=
  let (tree, temp) := siblingBlack side tree node
  if tree.color (tree.link side temp) = .black ∧
      tree.color (tree.link side.other temp) = .black then
    (setColor tree temp .red, tree.parent node)
  else
    let (tree, temp) := farRed side tree node temp
    let tree := deleteLast side tree node temp
    (tree, tree.root)

/-- `delete_fixup`. A turn moves up the tree or is the last one. -/
def deleteFixup : Nat → RbTree ν κ → Option ν → Option (RbTree ν κ)
  | 0, _, _ => none
  | fuel + 1, tree, node =>
    if node ≠ tree.root ∧ tree.color node = .black then
      let (tree, node) :=
        if tree.link .left (tree.parent node) = node then deleteTurn .left tree node
        else deleteTurn .right tree node
      deleteFixup fuel tree node
    else some (setColor tree node .black)

/-- `pj_rbtree_init`, in a memory whose nodes may have any fields. -/
def pjRbtreeInit (memory : RbTree ν κ) (comp : RbtreeComp κ) : RbTree ν κ :=
  { memory with
    root := none
    size := 0
    link := fun side => update (memory.link side) none none
    parent := update memory.parent none none
    color := update memory.color none .black
    comp := comp }

/-- The loop of `pj_rbtree_first` and others, which goes down on one side. -/
def outermost (tree : RbTree ν κ) (side : Side) : Nat → Option ν → Option (Option ν)
  | 0, _ => none
  | fuel + 1, node =>
    if tree.link side node ≠ none then outermost tree side fuel (tree.link side node)
    else some node

/-- `pj_rbtree_first`. -/
def pjRbtreeFirst (tree : RbTree ν κ) : Option (Option ν) :=
  outermost tree .left (tree.size + 1) tree.root

/-- `pj_rbtree_last`. -/
def pjRbtreeLast (tree : RbTree ν κ) : Option (Option ν) :=
  outermost tree .right (tree.size + 1) tree.root

/-- The loop of `pj_rbtree_next` and `pj_rbtree_prev` that goes up from one side. -/
def climb (tree : RbTree ν κ) (side : Side) : Nat → Option ν → Option ν → Option (Option ν)
  | 0, _, _ => none
  | fuel + 1, node, temp =>
    if temp ≠ none ∧ tree.link side temp = node then
      climb tree side fuel temp (tree.parent temp)
    else some temp

/-- `pj_rbtree_next` for the left side, and `pj_rbtree_prev` for the right side. -/
def neighbour (tree : RbTree ν κ) (side : Side) (node : Option ν) : Option (Option ν) :=
  if tree.link side.other node ≠ none then
    outermost tree side (tree.size + 1) (tree.link side.other node)
  else climb tree side.other (tree.size + 1) node (tree.parent node)

/-- `pj_rbtree_next`. -/
def pjRbtreeNext (tree : RbTree ν κ) (node : ν) : Option (Option ν) := neighbour tree .left node

/-- `pj_rbtree_prev`. -/
def pjRbtreePrev (tree : RbTree ν κ) (node : ν) : Option (Option ν) := neighbour tree .right node

/-- The loop of `pj_rbtree_insert`, which gives the parent and the last comparison, or nothing if
an entry has an equal key. -/
def descend (tree : RbTree ν κ) (key : κ) :
    Nat → Option ν → Int → Option ν → Option (Option (Option ν × Int))
  | _, parent, rv, none => some (some (parent, rv))
  | 0, _, _, some _ => none
  | fuel + 1, _, _, some node =>
    let rv := tree.comp.compare key (tree.key node)
    if rv = 0 then some none
    else descend tree key fuel node rv (if rv < 0 then tree.link .left node else tree.link .right node)

/-- `pj_rbtree_insert`. -/
def pjRbtreeInsert (tree : RbTree ν κ) (element : ν) : Option (Int × RbTree ν κ) := do
  match ← descend tree (tree.key element) (tree.size + 1) none 0 tree.root with
  | none => return (-1, tree)
  | some (parent, rv) =>
    let tree := setColor tree element .red
    let tree := setLink (setLink tree .right element none) .left element none
    if parent ≠ none then
      let tree := setParent tree element parent
      let tree :=
        if rv < 0 then setLink tree .left parent element else setLink tree .right parent element
      let tree ← insertFixup (tree.size + 2) tree element
      return (0, { tree with size := tree.size + 1 })
    else
      let tree := setParent { tree with root := some element } element none
      let tree := setColor tree element .black
      return (0, { tree with size := tree.size + 1 })

/-- The loop of `pj_rbtree_find`. -/
def findFrom (tree : RbTree ν κ) (key : κ) : Nat → Option ν → Option (Option ν)
  | _, none => some none
  | 0, some _ => none
  | fuel + 1, some node =>
    let rv := tree.comp.compare key (tree.key node)
    if rv = 0 then some node
    else findFrom tree key fuel (if rv < 0 then tree.link .left node else tree.link .right node)

/-- `pj_rbtree_find`. -/
def pjRbtreeFind (tree : RbTree ν κ) (key : κ) : Option (Option ν) :=
  findFrom tree key (tree.size + 1) tree.root

/-- The node that `pj_rbtree_erase` takes out of its place: the node itself, or the next one. -/
def spliced (tree : RbTree ν κ) (node : ν) : Option (Option ν) :=
  if tree.link .left node = none ∨ tree.link .right node = none then some node
  else outermost tree .left (tree.size + 1) (tree.link .right node)

/-- The fields of the node in `pj_rbtree_erase`, for its successor. -/
def copyFields (tree : RbTree ν κ) (node succ : Option ν) : RbTree ν κ :=
  let tree := setParent tree succ (tree.parent node)
  let tree := setLink tree .left succ (tree.link .left node)
  let tree := setLink tree .right succ (tree.link .right node)
  setColor tree succ (tree.color node)

/-- The part of `pj_rbtree_erase` that puts the successor in the place of the node. -/
def takePlace (tree : RbTree ν κ) (node succ : Option ν) : RbTree ν κ :=
  let tree := copyFields tree node succ
  let parent := tree.parent node
  let tree :=
    if parent ≠ none then
      if tree.link .left parent = node then setLink tree .left parent succ
      else setLink tree .right parent succ
    else tree
  let tree := adopt tree (tree.link .left node) succ
  let tree := adopt tree (tree.link .right node) succ
  if tree.root = node then { tree with root := succ } else tree

/-- The end of `pj_rbtree_erase`, which balances the tree. -/
def rebalance (tree : RbTree ν κ) (succ child : Option ν) : Option (RbTree ν κ) :=
  if tree.color succ = .black then do
    let tree ← if child ≠ none then deleteFixup (tree.size + 1) tree child else some tree
    return setColor tree none .black
  else some tree

/-- `pj_rbtree_erase`. -/
def pjRbtreeErase (tree : RbTree ν κ) (node : ν) : Option (ν × RbTree ν κ) := do
  let succ ← spliced tree node
  let child := if tree.link .left succ ≠ none then tree.link .left succ else tree.link .right succ
  let parent := tree.parent succ
  let tree := setParent tree child parent
  let tree := replaceChild tree parent succ child
  let tree := if succ ≠ some node then takePlace tree node succ else tree
  let tree ← rebalance tree succ child
  return (node, { tree with size := tree.size - 1 })

/-- `pj_rbtree_max_height` of the tree at a node. -/
def maxHeightFrom (tree : RbTree ν κ) : Nat → Option ν → Option Nat
  | 0, _ => none
  | fuel + 1, node => do
    let l ← if tree.link .left node ≠ none then
        (· + 1) <$> maxHeightFrom tree fuel (tree.link .left node)
      else some 0
    let r ← if tree.link .right node ≠ none then
        (· + 1) <$> maxHeightFrom tree fuel (tree.link .right node)
      else some 0
    return if l > r then l else r

/-- `pj_rbtree_max_height`, whose node may be `NULL`. -/
def pjRbtreeMaxHeight (tree : RbTree ν κ) (node : Option ν) : Option Nat :=
  maxHeightFrom tree (tree.size + 1) (if node = none then tree.root else node)

end Rbtree

end Pj
