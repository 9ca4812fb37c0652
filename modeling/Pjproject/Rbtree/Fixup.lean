import Pjproject.Rbtree.Links

/-!
# Balancing a red-black tree

The loops of `insert_fixup` and `delete_fixup`. Whatever the colours are, they end, keep the entries
in their order and leave the root black. If only the node at which it begins breaks the rules,
`insert_fixup` restores them.
-/

namespace Pj.Rbtree
open Option RedBlack

variable {ν κ : Type} [DecidableEq ν] {tree tree' : RbTree ν κ}

/-- What does not change while a tree is balanced. -/
def Kept (tree tree' : RbTree ν κ) : Prop :=
  tree'.key = tree.key ∧ tree'.comp = tree.comp ∧ tree'.size = tree.size

omit [DecidableEq ν] in
theorem Kept.trans {tree'' : RbTree ν κ} (h : Kept tree tree') (h' : Kept tree' tree'') :
    Kept tree tree'' :=
  ⟨h'.1.trans h.1, h'.2.1.trans h.2.1, h'.2.2.trans h.2.2⟩

theorem setColor_kept (tree : RbTree ν κ) (node : Option ν) (color : Color) :
    Kept tree (setColor tree node color) :=
  ⟨rfl, rfl, rfl⟩

theorem rotate_kept (side : Side) (tree : RbTree ν κ) (node : Option ν) :
    Kept tree (rotate side tree node) := by
  have ⟨_, _, _, rotated⟩ := rotate_eq side tree node
  rw [rotated]
  exact ⟨rfl, rfl, rfl⟩

theorem rotate_color (side : Side) (tree : RbTree ν κ) (node : Option ν) :
    (rotate side tree node).color = tree.color := by
  have ⟨_, _, _, rotated⟩ := rotate_eq side tree node
  rw [rotated]

theorem setColor_null {entry : ν} {color : Color} :
    (setColor tree entry color).color none = tree.color none :=
  Function.update_of_ne (some_ne_none entry).symm color tree.color

/-- What a fix-up makes of a tree: the same entries in the same order, and a black root. -/
structure Fixed (tree tree' : RbTree ν κ) (shape shape' : Shape ν) : Prop where
  linked : At tree' [] shape'
  walk : shape'.walk .left = shape.walk .left
  black : shape'.color .black = .black
  kept : Kept tree tree'

/-! ## After an insertion -/

section insertion
variable {context up : Context ν} {subtree sibling uncle : Shape ν} {side side' : Side}
  {color color' : Color} {entry parent grand : ν}

/-- The loop ends below a black node, and at the root. -/
theorem At.insertFixup_last (h : At tree context subtree) (top : subtree.top = some entry)
    (black : context.color = .black) (fuel : Nat) :
    ∃ tree', insertFixup (fuel + 1) tree entry = some tree' ∧
      Fixed tree tree' (context.plug subtree) ((context.plug subtree).recolor .black) ∧
      tree'.color none = tree.color none := by
  have whole := at_plug.mp h
  have last : ¬(some entry ≠ tree.root ∧ tree.color (tree.parent (some entry)) = .red) := by
    rintro ⟨notRoot, red⟩
    cases context with
    | nil => exact notRoot (top.symm.trans h.root_eq.symm)
    | cons frame up =>
      rw [h.parent_eq top, Context.above, h.above_color] at red
      rw [Context.color, red] at black
      contradiction
  refine ⟨_, if_neg last, ⟨?_, Shape.walk_recolor _ _ _, ?_, setColor_kept _ _ _⟩, ?_⟩
  · rw [whole.root_eq]
    exact whole.recolor .black
  · cases context.plug subtree <;> rfl
  · have inside : entry ∈ (context.plug subtree).walk .left := by
      rw [(Context.plug_perm context subtree).mem_iff]
      exact List.mem_append_left _ (Shape.top_mem top)
    rw [whole.root_eq]
    cases shape : context.plug subtree with
    | leaf =>
      rw [shape] at inside
      exact absurd inside List.not_mem_nil
    | node color left entry' right => exact setColor_null

/-- A red uncle: the parent and the uncle become black, and the loop goes on above them. -/
theorem At.insertTurn_red
    (h : At tree (⟨side, color, parent, sibling⟩ :: ⟨side', color', grand, uncle⟩ :: up) subtree)
    (top : subtree.top = some entry) (null : tree.color none = .black)
    (red : uncle.color .black = .red) :
    ∃ tree', insertTurn side' tree entry = (tree', some grand) ∧
      At tree' up (.join .red side' (.join .black side subtree parent sibling) grand
        (uncle.recolor .black)) ∧ tree'.color none = .black ∧ Kept tree tree' := by
  have below := at_cons.mp h
  have parentLink : tree.parent (some entry) = some parent := h.parent_eq top
  have grandLink : tree.parent (some parent) = some grand := below.parent_eq (Shape.top_join _ _ _ _ _)
  have uncleColor := below.sibling.color_eq
  rw [null, red] at uncleColor
  have atUncle := (below.sibling.recolor .black).sibling_other
  have atGrand := at_cons.mp (atUncle.recolor .black)
  have result := atGrand.recolor .red
  rw [Frame.fill, Frame.fill, Shape.recolor_join, Shape.recolor_join, Shape.top_join, Shape.top_join]
    at result
  refine ⟨_, ?_, result, ?_, (setColor_kept _ _ _).trans ((setColor_kept _ _ _).trans
    (setColor_kept _ _ _))⟩
  · unfold insertTurn
    dsimp only
    rw [parentLink, grandLink, below.above_links.2, if_pos uncleColor]
    dsimp only [setColor]
    rw [grandLink]
  · cases uncle with
    | leaf => contradiction
    | node color left entry' right =>
      exact setColor_null.trans (setColor_null.trans (setColor_null.trans null))

/-- The end of a turn whose uncle is black, which puts the parent in the place of its parent. -/
theorem At.insertRotate
    (h : At tree (⟨side, color, parent, sibling⟩ :: ⟨side, color', grand, uncle⟩ :: up) subtree) :
    At (Rbtree.rotate side.other (setColor (setColor tree parent .black) grand .red) grand)
      (⟨side, .black, parent, .join .red side sibling grand uncle⟩ :: up) subtree := by
  have atGrand := at_cons.mp ((at_cons.mp h).recolor .black)
  have recolored := atGrand.recolor .red
  rw [Frame.fill, Frame.fill, Shape.recolor_join, Shape.recolor_join, Shape.top_join, Shape.top_join,
    ← Shape.join_other .red, ← Shape.join_other .black] at recolored
  have rotated := recolored.rotate
  rw [Shape.join_other, Shape.join_other] at rotated
  apply at_cons.mpr
  exact rotated

section
variable
  (h : At tree (⟨side, .red, parent, sibling⟩ :: ⟨side', color', grand, uncle⟩ :: up) subtree)
  (top : subtree.top = some entry) (red : subtree.color .black = .red)
include h top red

/-- A turn whose uncle is black first brings the node to the side of its parent. -/
theorem At.insertSide :
    ∃ tree' inner outer, ∃ node middle : ν,
      (if some entry = tree.link side'.other parent then
        (Rbtree.rotate side' tree parent, some parent) else (tree, some entry)) =
          (tree', some node) ∧
      inner.top = some node ∧
      At tree' (⟨side', .red, middle, outer⟩ :: ⟨side', color', grand, uncle⟩ :: up) inner ∧
      (Shape.join .red side' inner middle outer).walk .left =
        (Shape.join .red side subtree parent sibling).walk .left ∧
      tree'.color = tree.color ∧ Kept tree tree' ∧
      ∀ count, subtree.Rules count → sibling.Rules count → sibling.color .black = .black →
        inner.Rules count ∧ outer.Rules count ∧ outer.color .black = .black := by
  by_cases same : side = side'
  · subst same
    have apart : some entry ≠ tree.link side.other parent := fun isLink => h.link_ne top isLink.symm
    exact ⟨tree, subtree, sibling, entry, parent, if_neg apart, top, h, rfl, rfl, ⟨rfl, rfl, rfl⟩,
      fun count rules rulesSibling black => ⟨rules, rulesSibling, black⟩⟩
  · obtain rfl := Side.eq_other same
    obtain ⟨color, near, far, rfl⟩ := Shape.exists_join side' top
    rw [Shape.color_join] at red
    subst red
    have inside : some entry = tree.link side'.other parent :=
      (h.above_links.1.trans (Shape.top_join _ _ _ _ _)).symm
    have below := at_cons.mp h
    rw [Frame.fill, Shape.join_other] at below
    refine ⟨_, .join .red side' sibling parent near, far, parent, entry, if_pos inside,
      Shape.top_join _ _ _ _ _, at_cons.mpr below.rotate, ?_, rotate_color _ _ _, rotate_kept _ _ _,
      fun count rules rulesSibling black => ?_⟩
    · rw [Shape.join_other]
      exact Shape.walk_rotate _ _ _ _ _ _ _ _ _ _ _
    · obtain ⟨⟨blackNear, blackFar⟩, rulesNear, rulesFar⟩ := Shape.rules_join_red.mp rules
      exact ⟨Shape.rules_join_red.mpr ⟨⟨black, blackNear⟩, rulesSibling, rulesNear⟩, rulesFar,
        blackFar⟩

/-- A black uncle: after this turn the parent is black, and the loop ends. -/
theorem At.insertTurn_black (null : tree.color none = .black) (black : uncle.color .black = .black) :
    ∃ tree' inner outer, ∃ node middle : ν, insertTurn side' tree entry = (tree', some node) ∧
      inner.top = some node ∧
      At tree' (⟨side', .black, middle, .join .red side' outer grand uncle⟩ :: up) inner ∧
      (Shape.join .red side' inner middle outer).walk .left =
        (Shape.join .red side subtree parent sibling).walk .left ∧
      tree'.color none = .black ∧ Kept tree tree' ∧
      ∀ count, subtree.Rules count → sibling.Rules count → sibling.color .black = .black →
        inner.Rules count ∧ outer.Rules count ∧ outer.color .black = .black := by
  have ⟨tree₁, inner, outer, node, middle, brought, topInner, h₁, walk, color, kept, rules⟩ :=
    h.insertSide top red
  have below := at_cons.mp h
  have parentLink : tree.parent (some entry) = some parent := h.parent_eq top
  have grandLink : tree.parent (some parent) = some grand :=
    below.parent_eq (Shape.top_join _ _ _ _ _)
  have uncleColor : tree.color uncle.top ≠ .red := by
    rw [below.sibling.color_eq, null, black]
    decide
  have middleLink : tree₁.parent (some node) = some middle := h₁.parent_eq topInner
  have grandLink₁ : tree₁.parent (some middle) = some grand :=
    (at_cons.mp h₁).parent_eq (Shape.top_join _ _ _ _ _)
  refine ⟨_, inner, outer, node, middle, ?_, topInner, h₁.insertRotate, walk, ?_, ?_, rules⟩
  · unfold insertTurn
    dsimp only
    rw [parentLink, grandLink, below.above_links.2, if_neg uncleColor, brought]
    dsimp only [setColor]
    rw [middleLink, grandLink₁]
  · rw [rotate_color, setColor_null, setColor_null, color]
    exact null
  · exact kept.trans ((setColor_kept _ _ _).trans ((setColor_kept _ _ _).trans (rotate_kept _ _ _)))

end

variable {shape' : Shape ν}

omit [DecidableEq ν] in
/-- The entries do not change when the shape above the hole does. -/
theorem Fixed.of_walk {shape shape'' : Shape ν} (h : Fixed tree tree' shape' shape'')
    (walk : shape'.walk .left = shape.walk .left) : Fixed tree tree' shape shape'' :=
  ⟨h.linked, h.walk.trans walk, h.black, h.kept⟩

omit [DecidableEq ν] in
/-- What was done before does not matter. -/
theorem Fixed.of_kept {tree₁ : RbTree ν κ} {shape : Shape ν} (h : Fixed tree₁ tree' shape shape')
    (kept : Kept tree tree₁) : Fixed tree tree' shape shape' :=
  ⟨h.linked, h.walk, h.black, kept.trans h.kept⟩

/-- `insert_fixup` ends, and restores the rules if only the red node breaks them. -/
theorem At.insertFixup_eq (fuel : Nat) (h : At tree context subtree)
    (top : subtree.top = some entry) (red : subtree.color .black = .red) (closed : context.Closed)
    (null : tree.color none = .black) (enough : context.length < fuel) :
    ∃ tree' shape, insertFixup fuel tree entry = some tree' ∧
      Fixed tree tree' (context.plug subtree) shape ∧ tree'.color none = .black ∧
      ∀ count, context.Fits count → subtree.Rules count → ∃ count', shape.Rules count' := by
  induction fuel generalizing tree context subtree entry with
  | zero => exact absurd enough (Nat.not_lt_zero _)
  | succ fuel ih =>
    by_cases black : context.color = .black
    · have ⟨tree', result, fixed, color⟩ := h.insertFixup_last top black fuel
      refine ⟨tree', _, result, fixed, color.trans null, fun count fits rules => ?_⟩
      have ⟨count', whole⟩ := Context.rules_plug.mpr ⟨count, fits, rules, .inr black⟩
      exact whole.recolor_black
    · match context, h, closed, black, enough with
      | [], _, _, black, _ => exact absurd rfl black
      | [frame], _, closed, black, _ => exact absurd closed black
      | ⟨side, .black, parent, sibling⟩ :: _, _, _, black, _ => exact absurd rfl black
      | ⟨side, .red, parent, sibling⟩ :: ⟨side', color', grand, uncle⟩ :: up, h, closed, _,
          enough =>
        have below := at_cons.mp h
        have parentLink : tree.parent (some entry) = some parent := h.parent_eq top
        have grandLink : tree.parent (some parent) = some grand :=
          below.parent_eq (Shape.top_join _ _ _ _ _)
        have goesOn : some entry ≠ tree.root ∧ tree.color (tree.parent (some entry)) = .red := by
          refine ⟨Ne.symm (h.root_ne top), ?_⟩
          rw [parentLink]
          exact h.above_color
        have turn : insertFixup (fuel + 1) tree entry =
            insertFixup fuel (insertTurn side' tree entry).1 (insertTurn side' tree entry).2 := by
          rw [insertFixup, if_pos goesOn, parentLink]
          dsimp only
          rw [grandLink]
          have chosen := below.left_iff (Shape.top_join _ _ _ _ _)
          cases side' with
          | left => rw [if_pos (chosen.mpr rfl).symm]
          | right => rw [if_neg fun same => nomatch chosen.mp same.symm]
        have fewer : up.length + 2 < fuel + 1 := enough
        rw [turn]
        cases uncleColor : uncle.color .black with
        | red =>
          have ⟨tree₁, result, h₁, null₁, kept⟩ := h.insertTurn_red top null uncleColor
          have closed₁ : Context.Closed up := by
            cases up with
            | nil => exact trivial
            | cons frame up => exact closed
          have ⟨tree', shape, result', fixed, null', rules⟩ := ih h₁ (Shape.top_join _ _ _ _ _)
            (Shape.color_join _ _ _ _ _ _) closed₁ null₁ (by omega)
          rw [result]
          refine ⟨tree', shape, result', (fixed.of_kept kept).of_walk ?_, null', ?_⟩
          · exact Context.walk_plug_congr up (Shape.walk_join_congr (Shape.walk_join_congr rfl rfl)
              (Shape.walk_recolor _ _ _))
          · intro count fits rulesSubtree
            have ⟨fits₁, rules₁⟩ := fits.recolored rulesSubtree uncleColor
            exact rules (count + 1) fits₁ rules₁
        | black =>
          obtain ⟨tree₁, inner, outer, node, middle, result, topInner, h₁, walk, null₁, kept,
            rules⟩ := h.insertTurn_black top red null uncleColor
          rw [result]
          obtain ⟨more, rfl⟩ : ∃ more, fuel = more + 1 := ⟨fuel - 1, by omega⟩
          have ⟨tree', result', fixed, color⟩ := h₁.insertFixup_last topInner rfl more
          refine ⟨tree', _, result', (fixed.of_kept kept).of_walk ?_, color.trans null₁, ?_⟩
          · apply Context.walk_plug_congr up
            refine (Shape.walk_rotate .red color' _ _ _ _ _ _ _ _ _).symm.trans ?_
            exact Shape.walk_join_congr walk rfl
          · intro count fits rulesSubtree
            have ⟨⟨rulesSibling, blackSibling⟩, _⟩ := fits.parts
            have ⟨rulesInner, rulesOuter, blackOuter⟩ :=
              rules count rulesSubtree rulesSibling blackSibling
            obtain ⟨count', whole⟩ := Context.rules_plug.mpr
              ⟨count, fits.rotated rulesOuter blackOuter uncleColor, rulesInner, .inr rfl⟩
            exact whole.recolor_black

end insertion

/-! ## After a removal -/

section removal
variable {context up : Context ν} {subtree sibling : Shape ν} {side : Side} {color : Color}
  {entry parent : ν}

/-- The loop ends at a red node, and at the root. -/
theorem At.deleteFixup_last (h : At tree context subtree) (top : subtree.top = some entry)
    (closed : context.Closed) (last : context = [] ∨ subtree.color .black = .red) (fuel : Nat) :
    ∃ tree', deleteFixup (fuel + 1) tree entry = some tree' ∧
      Fixed tree tree' (context.plug subtree) (context.plug (subtree.recolor .black)) := by
  have recolored := h.recolor .black
  rw [top] at recolored
  have ends : ¬(some entry ≠ tree.root ∧ tree.color (some entry) = .black) := by
    rintro ⟨notRoot, black⟩
    rcases last with rfl | red
    · exact notRoot (top.symm.trans h.root_eq.symm)
    · have colored := h.color_eq
      rw [top, black] at colored
      cases subtree with
      | leaf => contradiction
      | node color left entry' right =>
        rw [Shape.color] at red colored
        rw [red] at colored
        contradiction
  refine ⟨_, if_neg ends, at_plug.mp recolored, ?_, ?_, setColor_kept _ _ _⟩
  · exact Context.walk_plug_congr context (Shape.walk_recolor _ _ _)
  · cases context with
    | nil => cases subtree <;> rfl
    | cons frame up => exact closed.color_plug nofun _ _

section
variable (h : At tree (⟨side, color, parent, sibling⟩ :: up) subtree)
include h

/-- Another colour of the sibling. -/
theorem At.recolor_sibling (color' : Color) :
    At (setColor tree sibling.top color')
      (⟨side, color, parent, sibling.recolor color'⟩ :: up) subtree :=
  (h.sibling.recolor color').sibling_other

/-- Another colour of the node above. -/
theorem At.recolor_above (color' : Color) :
    At (setColor tree parent color') up (.join color' side subtree parent sibling) := by
  have recolored := h.joined.recolor color'
  rwa [Shape.top_join, Shape.recolor_join] at recolored

section
variable (top : subtree.top = some entry)
include top

/-- The first case of a turn brings a black node to the place of a red sibling. -/
theorem At.siblingBlack_eq (closed : Context.Closed (⟨side, color, parent, sibling⟩ :: up)) :
    ∃ tree' up' color' sibling', siblingBlack side tree entry = (tree', Shape.top sibling') ∧
      At tree' (⟨side, color', parent, sibling'⟩ :: up') subtree ∧
      (up' = up ∨ Context.Closed up' ∧ color' = .red) ∧
      (Context.plug up' (.join color' side subtree parent sibling')).walk .left =
        (Context.plug up (.join color side subtree parent sibling)).walk .left ∧
      Kept tree tree' := by
  have parentLink : tree.parent (some entry) = some parent := h.parent_eq top
  have siblingLink := h.above_links.2
  have h₀ := (h.recolor_sibling .black).recolor_above .red
  have kept : Kept tree (setColor (setColor tree sibling.top .black) parent .red) :=
    (setColor_kept _ _ _).trans (setColor_kept _ _ _)
  unfold siblingBlack
  rw [parentLink, siblingLink]
  by_cases red : tree.color sibling.top = .red
  · simp only [if_pos red, setColor_parent, parentLink]
    cases inside : sibling.top with
    | none =>
      -- A rotation without a child does nothing, and the sibling is `tree->null` again.
      obtain rfl := Shape.top_eq_none.mp inside
      have left : Rbtree.rotate side (setColor (setColor tree none .black) parent .red) parent =
          setColor (setColor tree none .black) parent .red := h₀.rotate_leaf
      refine ⟨_, up, .red, .leaf, ?_, h₀.near, .inl rfl, ?_, kept⟩
      · rw [left, setColor_parent, setColor_parent, parentLink]
        exact Prod.ext rfl h₀.fields.2.2.2
      · exact Context.walk_plug_congr up (Shape.walk_join_congr rfl rfl)
    | some brother =>
      obtain ⟨colorSibling, near, far, rfl⟩ := Shape.exists_join side inside
      rw [Shape.recolor_join, Shape.top_join] at h₀
      have h₁ : At _ (⟨side, .red, parent, near⟩ :: ⟨side, .black, brother, far⟩ :: up) subtree :=
        h₀.rotate.near.near
      refine ⟨_, _, .red, near, Prod.ext rfl ?_, h₁, .inr ⟨?_, rfl⟩, ?_,
        kept.trans (rotate_kept _ _ _)⟩
      · rw [h₁.parent_eq top]
        exact h₁.above_links.2
      · cases up with
        | nil => exact rfl
        | cons frame up => exact closed
      · exact Context.walk_plug_congr up (Shape.walk_rotate _ _ _ _ _ _ _ _ _ _ _)
  · rw [if_neg red]
    exact ⟨tree, up, color, sibling, rfl, h, .inl rfl, rfl, rfl, rfl, rfl⟩

/-- The third case brings another node to the place of the sibling. -/
theorem At.farRed_eq :
    ∃ tree' sibling', farRed side tree entry sibling.top = (tree', sibling'.top) ∧
      At tree' (⟨side, color, parent, sibling'⟩ :: up) subtree ∧
      sibling'.walk .left = sibling.walk .left ∧ Kept tree tree' := by
  -- Whatever the writes made of the sibling is read again from the node above.
  have read : ∀ {tree' : RbTree ν κ} {sibling' : Shape ν},
      At tree' (⟨side, color, parent, sibling'⟩ :: up) subtree →
        tree'.link side.other (tree'.parent entry) = sibling'.top := by
    intro tree' sibling' h'
    rw [h'.parent_eq top]
    exact h'.above_links.2
  unfold farRed
  dsimp only
  by_cases black : tree.color (tree.link side.other sibling.top) = .black
  · rw [if_pos black]
    cases inside : sibling.top with
    | none =>
      obtain rfl := Shape.top_eq_none.mp inside
      have h₁ : At (setColor (setColor tree none .black) none .red)
          (⟨side, color, parent, .leaf⟩ :: up) subtree :=
        (h.recolor_sibling .black).recolor_sibling .red
      rw [h.null side, h₁.rotate_null side.other]
      exact ⟨_, .leaf, Prod.ext rfl (read h₁), h₁, rfl,
        (setColor_kept _ _ _).trans (setColor_kept _ _ _)⟩
    | some brother =>
      obtain ⟨colorSibling, near, far, rfl⟩ := Shape.exists_join side inside
      have recolored := (h.sibling.near.recolor .black).recolor_above .red
      rw [← Shape.join_other] at recolored
      rw [h.sibling.fields.2.2.1]
      have kept : Kept tree (Rbtree.rotate side.other
          (setColor (setColor tree near.top .black) brother .red) brother) :=
        (setColor_kept _ _ _).trans ((setColor_kept _ _ _).trans (rotate_kept _ _ _))
      cases below : near.top with
      | none =>
        obtain rfl := Shape.top_eq_none.mp below
        have h₁ := recolored.sibling_other
        rw [← recolored.rotate_leaf] at h₁
        refine ⟨_, _, Prod.ext rfl (read h₁), h₁, ?_, kept⟩
        rw [Shape.join_other]
        exact Shape.walk_join_congr rfl rfl
      | some nephew =>
        obtain ⟨colorNear, inner, outer, rfl⟩ := Shape.exists_join side.other below
        rw [Shape.top_join] at recolored kept
        rw [Shape.recolor_join] at recolored
        have h₁ := recolored.rotate.sibling_other
        refine ⟨_, _, Prod.ext rfl (read h₁), h₁, ?_, kept⟩
        rw [← Shape.join_other colorSibling]
        exact Shape.walk_rotate _ _ _ _ _ _ _ _ _ _ _
  · rw [if_neg black]
    exact ⟨tree, sibling, rfl, h, rfl, rfl, rfl, rfl⟩

/-- The last case puts the sibling in the place of the parent. -/
theorem At.deleteLast_eq :
    ∃ shape, At (deleteLast side tree entry sibling.top) up shape ∧
      shape.walk .left = (Shape.join color side subtree parent sibling).walk .left ∧
      shape.top ≠ none ∧ Kept tree (deleteLast side tree entry sibling.top) := by
  have parentLink : tree.parent (some entry) = some parent := h.parent_eq top
  unfold deleteLast
  simp only [setColor_parent, setColor_link, parentLink]
  generalize tree.color (some parent) = colorAbove
  have kept : ∀ node, Kept tree (Rbtree.rotate side (setColor (setColor
      (setColor tree sibling.top colorAbove) node .black) parent .black) parent) := fun node =>
    (setColor_kept _ _ _).trans ((setColor_kept _ _ _).trans
      ((setColor_kept _ _ _).trans (rotate_kept _ _ _)))
  have h₁ := h.recolor_sibling colorAbove
  cases inside : sibling.top with
  | none =>
    obtain rfl := Shape.top_eq_none.mp inside
    rw [h.null side.other]
    have h₂ := (h₁.recolor_sibling .black).recolor_above .black
    refine ⟨_, h₂.rotate_leaf.symm ▸ h₂, Shape.walk_join_congr rfl rfl, ?_, kept none⟩
    rw [Shape.top_join]
    exact some_ne_none parent
  | some brother =>
    obtain ⟨colorSibling, near, far, rfl⟩ := Shape.exists_join side inside
    rw [h.sibling.fields.2.2.2]
    rw [Shape.recolor_join, Shape.top_join] at h₁
    rw [Shape.top_join] at kept
    have h₂ := ((h₁.sibling.near.recolor_sibling .black).joined.sibling_other.recolor_above
      .black).rotate
    refine ⟨_, h₂, ?_, ?_, kept far.top⟩
    · rw [Shape.walk_rotate .black colorAbove .black colorAbove]
      exact Shape.walk_join_congr rfl (Shape.walk_join_congr rfl (Shape.walk_recolor _ _ _))
    · rw [Shape.top_join]
      exact some_ne_none brother

/-- A turn moves up, to a node that may be red if the sibling was, or to the root. -/
theorem At.deleteTurn_eq (closed : Context.Closed (⟨side, color, parent, sibling⟩ :: up)) :
    ∃ tree' up' subtree', ∃ entry' : ν, deleteTurn side tree entry = (tree', some entry') ∧
      subtree'.top = some entry' ∧ At tree' up' subtree' ∧ Context.Closed up' ∧
      (up' = up ∨ up' = [] ∨ subtree'.color .black = .red) ∧
      (Context.plug up' subtree').walk .left =
        (Context.plug up (.join color side subtree parent sibling)).walk .left ∧
      Kept tree tree' := by
  have closedUp : Context.Closed up := by
    cases up with
    | nil => exact trivial
    | cons frame up => exact closed
  have ⟨tree₁, up₁, color₁, sibling₁, first, h₁, places, walk₁, kept₁⟩ :=
    h.siblingBlack_eq top closed
  have closed₁ : Context.Closed up₁ := places.elim (fun same => same ▸ closedUp) And.left
  unfold deleteTurn
  rw [first]
  dsimp only
  split
  · refine ⟨_, up₁, _, parent, Prod.ext rfl (h₁.parent_eq top), Shape.top_join _ _ _ _ _,
      (h₁.recolor_sibling .red).joined, closed₁, ?_, ?_, kept₁.trans (setColor_kept _ _ _)⟩
    · refine places.imp_right fun lower => .inr ?_
      rw [Shape.color_join]
      exact lower.2
    · refine (Context.walk_plug_congr up₁ (Shape.walk_join_congr rfl ?_)).trans walk₁
      exact Shape.walk_recolor _ _ _
  · have ⟨tree₂, sibling₂, third, h₂, walk₂, kept₂⟩ := h₁.farRed_eq top
    have ⟨shape, h₃, walk₃, nonempty, kept₃⟩ := h₂.deleteLast_eq top
    rw [third]
    have whole := at_plug.mp h₃
    obtain ⟨root, topRoot⟩ : ∃ root, (Context.plug up₁ shape).top = some root :=
      ne_none_iff_exists'.mp (Context.top_plug nonempty)
    refine ⟨_, [], _, root, Prod.ext rfl (whole.root_eq.trans topRoot), topRoot, whole, trivial,
      .inr (.inl rfl), ?_, kept₁.trans (kept₂.trans kept₃)⟩
    refine (Context.walk_plug_congr up₁ (walk₃.trans ?_)).trans walk₁
    exact Shape.walk_join_congr rfl walk₂

end

end

/-- `delete_fixup` ends. -/
theorem At.deleteFixup_eq (fuel : Nat) (h : At tree context subtree)
    (top : subtree.top = some entry) (closed : context.Closed) (enough : context.length < fuel) :
    ∃ tree' shape, deleteFixup fuel tree entry = some tree' ∧
      Fixed tree tree' (context.plug subtree) shape := by
  induction fuel generalizing tree context subtree entry with
  | zero => exact absurd enough (Nat.not_lt_zero _)
  | succ fuel ih =>
    by_cases last : context = [] ∨ subtree.color .black = .red
    · have ⟨tree', result, fixed⟩ := h.deleteFixup_last top closed last fuel
      exact ⟨tree', _, result, fixed⟩
    · have ⟨notTop, notRed⟩ := not_or.mp last
      match context, h, closed, notTop, enough with
      | [], _, _, notTop, _ => exact absurd rfl notTop
      | ⟨side, color, parent, sibling⟩ :: up, h, closed, _, enough =>
        have parentLink : tree.parent (some entry) = some parent := h.parent_eq top
        have goesOn : some entry ≠ tree.root ∧ tree.color (some entry) = .black := by
          refine ⟨Ne.symm (h.root_ne top), ?_⟩
          have colored := h.color_eq
          rw [top] at colored
          rw [colored]
          cases subtree with
          | leaf => contradiction
          | node color left entry' right => exact Color.ne_red.mp notRed
        have turn : deleteFixup (fuel + 1) tree entry =
            deleteFixup fuel (deleteTurn side tree entry).1 (deleteTurn side tree entry).2 := by
          rw [deleteFixup, if_pos goesOn, parentLink]
          have chosen := h.left_iff top
          cases side with
          | left => rw [if_pos (chosen.mpr rfl)]
          | right => rw [if_neg fun same => nomatch chosen.mp same]
        have ⟨tree₁, up₁, subtree₁, entry₁, result, top₁, h₁, closed₁, places, walk, kept⟩ :=
          h.deleteTurn_eq top closed
        have fewer : up.length + 1 < fuel + 1 := enough
        rw [turn, result]
        have rest : ∃ tree' shape, deleteFixup fuel tree₁ entry₁ = some tree' ∧
            Fixed tree₁ tree' (Context.plug up₁ subtree₁) shape := by
          rcases places with rfl | last
          · exact ih h₁ top₁ closed₁ (by omega)
          · obtain ⟨more, rfl⟩ : ∃ more, fuel = more + 1 := ⟨fuel - 1, by omega⟩
            have ⟨tree', result, fixed⟩ := h₁.deleteFixup_last top₁ closed₁ last more
            exact ⟨tree', _, result, fixed⟩
        have ⟨tree', shape, result', fixed⟩ := rest
        exact ⟨tree', shape, result', (fixed.of_kept kept).of_walk walk⟩

end removal

end Pj.Rbtree
