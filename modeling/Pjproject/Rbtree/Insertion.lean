import Pjproject.Rbtree.Fixup
import Pjproject.Rbtree.Traversal

/-!
# Insertion into a red-black tree

The invariant of the tree, and `pj_rbtree_insert`: an entry with an equal key leaves the tree as it
is, any other one is put at its place in the order.
-/

namespace Pj.Rbtree
open Option Function List RedBlack

variable {ν κ : Type} [DecidableEq ν] {tree tree' : RbTree ν κ} {shape : Shape ν}

/-- The invariant, with the shape of the tree. -/
structure Rep (tree : RbTree ν κ) (shape : Shape ν) : Prop where
  linked : At tree [] shape
  size : tree.size = (shape.walk .left).length
  ordered : Ordered tree (shape.walk .left)
  black : shape.color .black = .black
  null : tree.color none = .black

omit [DecidableEq ν] in
theorem Rep.levels_le (h : Rep tree shape) : shape.levels ≤ tree.size := by
  rw [h.size]
  exact shape.levels_le_length

omit [DecidableEq ν] in
/-- The order depends on the keys and the comparison alone. -/
theorem Ordered.of_keys {entries : List ν} (h : Ordered tree entries) (key : tree'.key = tree.key)
    (comp : tree'.comp = tree.comp) : Ordered tree' entries := by
  rw [Ordered, key, comp]
  exact h

/-! ## A new node -/

variable {element : ν}

/-- The fields of a new node, before it is linked from above. -/
def prepared (tree : RbTree ν κ) (element : ν) (parent : Option ν) : RbTree ν κ :=
  setParent (setLink (setLink (setColor tree element .red) .right element none) .left element none)
    element parent

theorem prepared_untouched {parent node : Option ν} (different : node ≠ some element) :
    Untouched tree (prepared tree element parent) node :=
  (setColor_untouched different).trans ((setLink_untouched different).trans
    ((setLink_untouched different).trans (setParent_untouched different)))

theorem prepared_fields (tree : RbTree ν κ) (element : ν) (parent : Option ν) :
    (prepared tree element parent).parent element = parent ∧
      (prepared tree element parent).color element = .red ∧
      ∀ side, (prepared tree element parent).link side element = none := by
  refine ⟨update_self _ _ _, update_self _ _ _, fun side => ?_⟩
  have left : (setLink (setLink (setColor tree element .red) .right element none) .left element
      none).link .left element = none := setLink_self
  have right : (setLink (setLink (setColor tree element .red) .right element none) .left element
      none).link .right element = none := (setLink_other (Side.other_ne .left)).trans setLink_self
  cases side with
  | left => exact left
  | right => exact right

/-- A new node below another one. -/
theorem At.attach {frame : Frame ν} {up : Context ν} (h : At tree (frame :: up) .leaf)
    (new : element ∉ Context.entries (frame :: up)) :
    At (setLink (prepared tree element (some frame.entry)) frame.side frame.entry element)
      (frame :: up) (.node .red .leaf element .leaf) := by
  have nodup := h.nodup
  have ⟨apart, _⟩ := nodup_cons.mp nodup
  have different : ∀ other ∈ Context.entries (frame :: up), some other ≠ some element := by
    intro other member same
    exact new (some.inj same ▸ member)
  have away : ∀ other ∈ frame.sibling.walk .left ++ Context.entries up, Untouched tree
      (setLink (prepared tree element (some frame.entry)) frame.side frame.entry element)
        (some other) := by
    intro other member
    refine (prepared_untouched (different other (mem_cons_of_mem _ member))).trans
      (setLink_untouched fun same => apart ?_)
    rwa [← some.inj same]
  have here := different frame.entry mem_cons_self
  have frameFields : Untouched tree (prepared tree element (some frame.entry)) frame.entry :=
    prepared_untouched here
  have fields := prepared_fields tree element (some frame.entry)
  have ⟨⟨parent, colored, _, otherLink⟩, linked, around⟩ := h.around
  refine ⟨⟨⟨frameFields.1.trans parent, frameFields.2.1.trans colored, setLink_self, ?_⟩, ?_, ?_⟩,
    ⟨⟨fields.1, fields.2.1, ?_, ?_⟩, trivial, trivial⟩, ?_, fun side => ?_⟩
  · exact (setLink_other (Side.other_ne _)).trans ((frameFields.2.2 _).trans otherLink)
  · exact linked.congr fun other member => away other (mem_append_left _ member)
  · exact around.congr (fun other member => away other (mem_append_right _ member)) rfl
  · exact ((setLink_untouched (Ne.symm here)).2.2 .left).trans (fields.2.2 .left)
  · exact ((setLink_untouched (Ne.symm here)).2.2 .right).trans (fields.2.2 .right)
  · exact nodup_cons.mpr ⟨new, nodup⟩
  · have noneElement : (none : Option ν) ≠ some element := (some_ne_none element).symm
    have noneFrame : (none : Option ν) ≠ some frame.entry := (some_ne_none frame.entry).symm
    exact ((setLink_untouched noneFrame).2.2 side).trans
      (((prepared_untouched noneElement).2.2 side).trans (h.null side))

/-! ## Inserting -/

variable {context : Context ν}

omit [DecidableEq ν] in
/-- What the loop finds. -/
theorem Rep.descend_eq (h : Rep tree shape) (key : κ) :
    (∃ entry ∈ shape.walk .left, tree.comp.compare key (tree.key entry) = 0 ∧
        descend tree key (tree.size + 1) none 0 tree.root = some none) ∨
      ∃ context : Context ν, ∃ rv,
        descend tree key (tree.size + 1) none 0 tree.root = some (some (context.above, rv)) ∧
          context.plug .leaf = shape ∧ Between tree key context ∧ Turned rv context := by
  rw [h.linked.root_eq]
  exact h.linked.descend_eq h.ordered ⟨nofun, nofun⟩ trivial (Nat.le_succ_of_le h.levels_le)

/-- An equal key. -/
theorem Rep.insert_equal (h : Rep tree shape)
    (equal : ∃ entry ∈ shape.walk .left,
      tree.comp.compare (tree.key element) (tree.key entry) = 0) :
    pjRbtreeInsert tree element = some (-1, tree) := by
  rcases h.descend_eq (tree.key element) with
    ⟨_, _, _, result⟩ | ⟨context, rv, _, filled, between, _⟩
  · rw [pjRbtreeInsert, result]
    rfl
  · -- The place of the key has no equal entry on either side.
    have ⟨entry, member, same⟩ := equal
    rw [← filled, Context.walk_plug, Shape.walk_leaf, nil_append, mem_append] at member
    rcases member with member | member
    · have before := between.before entry member
      rw [RbtreeComp.eq_swap same] at before
      exact absurd before (Int.lt_irrefl 0)
    · have after := between.after entry member
      rw [same] at after
      exact absurd after (Int.lt_irrefl 0)

omit [DecidableEq ν] in
/-- The new entry has its place in the order. -/
theorem Between.ordered (h : Between tree (tree.key element) context)
    (ordered : Ordered tree (context.before .left ++ context.after .left)) :
    Ordered tree (context.before .left ++ element :: context.after .left) := by
  have ⟨first, last, across⟩ := pairwise_append.mp ordered
  refine pairwise_append.mpr ⟨first, pairwise_cons.mpr ⟨h.after, last⟩, ?_⟩
  intro entry member other member'
  rcases mem_cons.mp member' with rfl | member'
  · exact h.before entry member
  · exact across entry member other member'

/-- The first node. -/
theorem At.attach_root (h : At tree [] .leaf) (element : ν) :
    At (setColor { prepared tree element none with root := some element } element .black) []
      (.node .black .leaf element .leaf) := by
  have fields := prepared_fields tree element none
  have red : At { prepared tree element none with root := some element } []
      (.node .red .leaf element .leaf) := by
    refine ⟨rfl, ⟨⟨fields.1, fields.2.1, fields.2.2 .left, fields.2.2 .right⟩, trivial, trivial⟩,
      nodup_singleton element, fun side => ?_⟩
    have kept : Untouched tree (prepared tree element none) none :=
      prepared_untouched (some_ne_none element).symm
    exact (kept.2.2 side).trans (h.null side)
  exact red.recolor .black

/-- What the insertion makes of the place for a new key. -/
theorem At.insert_place {rv : Int} (hole : At tree context .leaf) (closed : context.Closed)
    (null : tree.color none = .black) (absent : element ∉ context.entries)
    (turned : Turned rv context) (enough : context.length ≤ tree.size)
    (result : descend tree (tree.key element) (tree.size + 1) none 0 tree.root =
      some (some (context.above, rv))) :
    ∃ tree' shape', pjRbtreeInsert tree element = some (0, { tree' with size := tree'.size + 1 }) ∧
      Fixed tree tree' (context.plug (.node .red .leaf element .leaf)) shape' ∧
      tree'.color none = .black ∧ (context.Fits 0 → ∃ count, shape'.Rules count) := by
  match context, hole, closed, absent, turned, enough, result with
  | [], hole, _, _, _, _, result =>
    refine ⟨_, _, ?_, ⟨hole.attach_root element, rfl, rfl, rfl, rfl, rfl⟩, ?_,
      fun _ => ⟨1, 0, rfl, rfl, rfl⟩⟩
    · rw [pjRbtreeInsert, result]
      rfl
    · have start : (prepared tree element none).color none = .black := by
        exact null
      exact (update_of_ne (some_ne_none element).symm Color.black _).trans start
  | frame :: up, hole, closed, absent, turned, enough, result =>
    have attached := hole.attach absent
    generalize made : setLink (prepared tree element (some frame.entry)) frame.side frame.entry
      element = tree₁ at attached
    have null₁ : tree₁.color none = .black := by
      have start : (prepared tree element (some frame.entry)).color none = .black := by
        exact null
      rw [← made]
      exact start
    have kept : Kept tree tree₁ := by
      rw [← made]
      exact ⟨rfl, rfl, rfl⟩
    have linked : (if rv < 0 then setLink (prepared tree element (some frame.entry)) .left
        frame.entry element else setLink (prepared tree element (some frame.entry)) .right
        frame.entry element) = tree₁ := by
      rw [← made]
      cases side : frame.side with
      | left => exact if_pos (turned.mpr side)
      | right => exact if_neg fun less => nomatch side.symm.trans (turned.mp less)
    have ⟨tree', shape', fixed, result', null', rules⟩ :=
      attached.insertFixup_eq (tree₁.size + 2) rfl rfl closed null₁ (by
        rw [kept.2.2]
        omega)
    refine ⟨tree', shape', ?_, result'.of_kept kept, null', fun fits => ?_⟩
    · rw [pjRbtreeInsert, result, bind_eq_bind, bind_some]
      unfold prepared at linked
      dsimp only [Context.above]
      rw [if_pos (some_ne_none frame.entry), linked, fixed]
      rfl
    · exact rules 0 fits ⟨⟨rfl, rfl⟩, rfl, rfl⟩

/-- A new key is put at its place, and the rules are kept. -/
theorem Rep.insert_new (h : Rep tree shape)
    (new : ∀ entry ∈ shape.walk .left, tree.comp.compare (tree.key element) (tree.key entry) ≠ 0) :
    ∃ tree' shape' before after, pjRbtreeInsert tree element = some (0, tree') ∧
      Rep tree' shape' ∧ shape.walk .left = before ++ after ∧
      shape'.walk .left = before ++ element :: after ∧ tree'.key = tree.key ∧
      tree'.comp = tree.comp ∧
      ((∃ count, shape.Rules count) → ∃ count', shape'.Rules count') := by
  rcases h.descend_eq (tree.key element) with
    ⟨entry, member, equal, _⟩ | ⟨context, rv, result, filled, between, turned⟩
  · exact absurd equal (new entry member)
  · have order : shape.walk .left = context.before .left ++ context.after .left := by
      rw [← filled, Context.walk_plug, Shape.walk_leaf, nil_append]
    have absent : element ∉ context.entries := by
      intro member
      refine new element ?_ (tree.comp.self _)
      rw [← filled, (Context.plug_perm context .leaf).mem_iff]
      exact mem_append_right _ member
    have total := (Context.plug_perm context .leaf).length_eq
    rw [filled, ← h.size, Shape.walk_leaf, nil_append] at total
    have frames := length_le_entries context
    have hole : At tree context .leaf := at_plug.mpr (filled ▸ h.linked)
    have ⟨tree', shape', inserted, fixed, null, rules⟩ := hole.insert_place
      (Context.closed_of_plug (filled ▸ h.black)) h.null absent turned (by omega) result
    have order' : shape'.walk .left = context.before .left ++ element :: context.after .left := by
      rw [fixed.walk, Context.walk_plug]
      rfl
    refine ⟨_, shape', _, _, inserted, ⟨?_, ?_, ?_, fixed.black, null⟩, order, order',
      fixed.kept.1, fixed.kept.2.1, fun whole => ?_⟩
    · exact fixed.linked.of_untouched rfl fun _ => ⟨rfl, rfl, fun _ => rfl⟩
    · have size := h.size
      show tree'.size + 1 = _
      rw [order, length_append] at size
      rw [order', length_append, length_cons, fixed.kept.2.2]
      omega
    · rw [order']
      exact (between.ordered (order ▸ h.ordered)).of_keys fixed.kept.1 fixed.kept.2.1
    · rw [← filled] at whole
      obtain ⟨count, fits, none, _⟩ := Context.rules_plug.mp whole
      exact rules (none ▸ fits)

end Pj.Rbtree
