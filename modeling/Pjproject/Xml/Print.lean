import Pjproject.Lib.CheckedWriter
import Pjproject.Pjlib.Int
import Pjproject.Pjlib.Str

/-!
# Printing XML

The nodes of `xml.h` and the printers of `xml.c`. The list heads of a node are the lists of its
attributes and of its sub-nodes. As in the printers of the session description, a printer takes
the length that is left of the buffer and returns what it prints, or nothing where the C
returns `-1`.
-/

namespace Pj.Xml
open CheckedWriter

/-- `pj_xml_attr`. -/
structure XmlAttr where
  name : Str
  value : Str
deriving DecidableEq, Repr

/-- `pj_xml_node`. -/
inductive XmlNode where
  | mk (name : Str) (attrs : List XmlAttr) (nodes : List XmlNode) (content : Str)
deriving Repr

/-- The spaces before a node. -/
def spaces (indent : Nat) : Str := List.replicate indent 32

/-- The value of an attribute, with the equal sign. An empty value is not printed. -/
def valueText (value : Str) : Str := if value = [] then [] else 61 :: 34 :: value ++ [34]

/-- What the loop over the attributes prints of one of them. -/
def attrText (attr : XmlAttr) : Str := 32 :: attr.name ++ valueText attr.value

/-- The loop over the attributes in `xml_print_node`. -/
def xmlPrintAttrs : List XmlAttr → Int → Option Str
  | [], _ => some []
  | attr :: attrs, len => do
    guard (¬i32 len < attr.name.length + attr.value.length + 4)
    let text ← xmlPrintAttrs attrs (len - (attrText attr).length)
    return attrText attr ++ text

mutual

/-- `xml_print_node`. -/
def xmlPrintNode : XmlNode → Nat → Int → Option Str
  | .mk name attrs nodes content, indent, len => do
    guard (¬i32 len < name.length + indent + 5)
    let buf := spaces indent ++ 60 :: name
    let text ← xmlPrintAttrs attrs (len - buf.length)
    let buf := buf ++ text
    if content = [] ∧ nodes = [] then
      guard (¬i32 (len - buf.length) < 3)
      return buf ++ [32, 47, 62]
    else
      guard (¬i32 (len - buf.length) < 1)
      let buf := buf ++ [62]
      let text ← xmlPrintNodes nodes indent (len - buf.length)
      let buf := buf ++ text
      guard (content = [] ∨ ¬i32 (len - buf.length) < content.length)
      let buf := buf ++ content
      if nodes ≠ [] then
        guard (¬i32 (len - buf.length) < name.length + 5 + indent)
        return buf ++ 10 :: spaces indent ++ 60 :: 47 :: name ++ [62]
      else
        guard (¬i32 (len - buf.length) < name.length + 3)
        return buf ++ 60 :: 47 :: name ++ [62]

/-- The loop over the sub-nodes in `xml_print_node`, which puts each on a line of its own. -/
def xmlPrintNodes : List XmlNode → Nat → Int → Option Str
  | [], _, _ => some []
  | node :: nodes, indent, len => do
    guard (¬i32 len < indent + 3)
    let printed ← xmlPrintNode node (indent + 1) (i32 (len - 1))
    let text ← xmlPrintNodes nodes indent (len - 1 - printed.length)
    return 10 :: printed ++ text

end

/-- `prolog`, with its line end. -/
def prologText : Str :=
  ofChars ['<', '?', 'x', 'm', 'l', ' ', 'v', 'e', 'r', 's', 'i', 'o', 'n', '=', '"', '1', '.',
    '0', '"', ' ', 'e', 'n', 'c', 'o', 'd', 'i', 'n', 'g', '=', '"', 'U', 'T', 'F', '-', '8', '"',
    '?', '>', '\n']

/-- What is printed before the node. -/
def prolog (includeProlog : Bool) : Str := if includeProlog then prologText else []

/-- `pj_xml_print`: the bytes of the buffer up to the length returned. The `-1` of a node that
does not fit is added to the length of the prolog. -/
def pjXmlPrint (node : XmlNode) (len : Nat) (includeProlog : Bool) : Option Str :=
  if len = 0 then some []
  else if includeProlog ∧ i32 len < prologText.length then none
  else
    let start := prolog includeProlog
    match xmlPrintNode node 0 (len - start.length) with
    | some text =>
      let printed := start.length + text.length
      some (start ++ text ++ if 0 < printed ∧ 1 ≤ len - printed then [10] else [])
    | none =>
      let printed := start.length - 1
      if 0 < printed ∧ 1 ≤ len - printed then some (start.take printed ++ [10]) else none

/-! ## What is printed -/

mutual

/-- The text of a node from its first `<` on. -/
def nodeText : XmlNode → Nat → Str
  | .mk name attrs nodes content, indent =>
    60 :: name ++ attrs.flatMap attrText ++
      if content = [] ∧ nodes = [] then [32, 47, 62]
      else
        62 :: nodesText nodes indent ++ content ++
          (if nodes = [] then [] else 10 :: spaces indent) ++ 60 :: 47 :: name ++ [62]

/-- The lines of the sub-nodes. -/
def nodesText : List XmlNode → Nat → Str
  | [], _ => []
  | node :: nodes, indent =>
    10 :: spaces (indent + 1) ++ nodeText node (indent + 1) ++ nodesText nodes indent

end

/-! ## Steps

The printers as writers that check their room, whose steps do not depend on it. -/

/-- `SIZE_LEFT()` is enough. -/
def fits (left : Int) (count : Nat) : Bool := ¬i32 left < count

/-- The loop over the attributes as steps. -/
def attrsOps (attrs : List XmlAttr) : List (Op UInt8) :=
  attrs.flatMap fun attr =>
    [.check (attr.name.length + attr.value.length + 4), .put (attrText attr)]

mutual

/-- `xml_print_node` as steps. -/
def nodeOps : XmlNode → Nat → List (Op UInt8)
  | .mk name attrs nodes content, indent =>
    (.check (name.length + indent + 5) :: .put (spaces indent ++ 60 :: name) :: attrsOps attrs) ++
      if content = [] ∧ nodes = [] then [.check 3, .put [32, 47, 62]]
      else
        (.check 1 :: .put [62] :: nodesOps nodes indent) ++
          ((if content = [] then [] else [.check content.length, .put content]) ++
            if nodes = [] then [.check (name.length + 3), .put (60 :: 47 :: name ++ [62])]
            else [.check (name.length + 5 + indent),
              .put (10 :: spaces indent ++ 60 :: 47 :: name ++ [62])])

/-- The loop over the sub-nodes as steps. -/
def nodesOps : List XmlNode → Nat → List (Op UInt8)
  | [], _ => []
  | node :: nodes, indent =>
    (.check (indent + 3) :: .put [10] :: nodeOps node (indent + 1)) ++ nodesOps nodes indent

end

variable {left : Int}

/-- What is printed, if the end is reached. -/
def ended (left : Int) (ops : List (Op UInt8)) : Option Str :=
  if (run fits left ops).1 then some (run fits left ops).2 else none

@[simp] theorem ended_nil : ended left [] = some [] := rfl

@[simp] theorem ended_append (ops second : List (Op UInt8)) :
    ended left (ops ++ second) = (ended left ops).bind fun text =>
      (ended (left - text.length) second).bind fun rest => some (text ++ rest) := by
  rw [ended, run_append]
  by_cases done : (run fits left ops).1 = true
  · simp only [if_pos done, ended, run_done done, Option.bind_some]
    split <;> rfl
  · simp [ended, done]

@[simp] theorem ended_check (count : Nat) (ops : List (Op UInt8)) :
    ended left (.check count :: ops) =
      (guard (¬i32 left < count) : Option Unit).bind fun _ => ended left ops := by
  by_cases fit : i32 left < count <;> simp [ended, run, fits, fit, guard, failure]

@[simp] theorem ended_put (piece : Str) (ops : List (Op UInt8)) :
    ended left (.put piece :: ops) =
      (ended (left - piece.length) ops).bind fun rest => some (piece ++ rest) := by
  by_cases done : (run fits (left - piece.length) ops).1 = true <;> simp [ended, run, done]

/-- The room is an `int` for a sub-node. -/
@[simp] theorem ended_i32 (ops : List (Op UInt8)) : ended (i32 left) ops = ended left ops := by
  have same : ∀ {left left' : Int}, left.bmod (2 ^ 32) = left'.bmod (2 ^ 32) →
      run fits left ops = run fits left' ops := by
    induction ops with
    | nil => exact fun _ => rfl
    | cons op ops ih =>
      intro left left' same
      cases op with
      | check count => rw [run, run, fits, fits, i32_eq, i32_eq, same, ih same]
      | put piece =>
        have rest : (left - piece.length).bmod (2 ^ 32) = (left' - piece.length).bmod (2 ^ 32) := by
          rw [← Int.bmod_sub_bmod, same, Int.bmod_sub_bmod]
        rw [run, run, ih rest]
  have equal : run fits (i32 left) ops = run fits left ops := same (by rw [i32_eq, Int.bmod_bmod])
  rw [ended, ended, equal]

theorem xmlPrintAttrs_run (attrs : List XmlAttr) (len : Int) :
    xmlPrintAttrs attrs len = ended len (attrsOps attrs) := by
  induction attrs generalizing len with
  | nil => rfl
  | cons attr attrs ih =>
    have rest := ih (len - (attrText attr).length)
    rw [attrsOps] at rest ⊢
    simp [xmlPrintAttrs, rest]

mutual

/-- The steps print what `xml_print_node` prints. -/
theorem xmlPrintNode_run (node : XmlNode) (indent : Nat) (len : Int) :
    xmlPrintNode node indent len = ended len (nodeOps node indent) := by
  have ⟨name, attrs, nodes, content⟩ := node
  have sums : ∀ x : Int, 1 + (1 + x) = 2 + x := fun x => by omega
  cases nodes with
  | nil =>
    by_cases plain : content = [] <;>
      simp [xmlPrintNode, nodeOps, plain, xmlPrintNodes, nodesOps, xmlPrintAttrs_run,
        Option.bind_assoc, Int.sub_sub, Int.add_assoc, Int.add_comm, Int.add_left_comm, sums]
  | cons node nodes =>
    by_cases plain : content = [] <;>
      simp [xmlPrintNode, nodeOps, plain, xmlPrintNodes_run (node :: nodes), xmlPrintAttrs_run,
        Option.bind_assoc, Int.sub_sub, Int.add_assoc, Int.add_comm, Int.add_left_comm, sums]

theorem xmlPrintNodes_run (nodes : List XmlNode) (indent : Nat) (len : Int) :
    xmlPrintNodes nodes indent len = ended len (nodesOps nodes indent) := by
  cases nodes with
  | nil => rw [xmlPrintNodes, nodesOps, ended_nil]
  | cons node nodes =>
    simp [xmlPrintNodes, nodesOps, xmlPrintNode_run node, xmlPrintNodes_run nodes,
      Option.bind_assoc]

end

theorem text_attrsOps (attrs : List XmlAttr) : text (attrsOps attrs) = attrs.flatMap attrText := by
  induction attrs with
  | nil => rfl
  | cons attr attrs ih => exact congrArg (attrText attr ++ ·) ih

mutual

/-- The steps put the text of the node. -/
theorem text_nodeOps (node : XmlNode) (indent : Nat) :
    text (nodeOps node indent) = spaces indent ++ nodeText node indent := by
  have ⟨name, attrs, nodes, content⟩ := node
  have nested := text_nodesOps nodes indent
  by_cases plain : content = [] <;> by_cases leaf : nodes = [] <;>
    simp_all [nodeOps, nodeText, text_append, text, text_attrsOps]

theorem text_nodesOps (nodes : List XmlNode) (indent : Nat) :
    text (nodesOps nodes indent) = nodesText nodes indent := by
  cases nodes with
  | nil => rw [nodesOps, nodesText, text]
  | cons node nodes =>
    simp [nodesOps, nodesText, text_append, text, text_nodeOps node, text_nodesOps nodes]

end

/-- What `xml_print_node` prints does not depend on the room it has. -/
theorem xmlPrintNode_eq {node : XmlNode} {indent : Nat} {len : Int} {text : Str}
    (h : xmlPrintNode node indent len = some text) :
    text = spaces indent ++ nodeText node indent := by
  rw [xmlPrintNode_run, ended] at h
  split at h
  · next done =>
    rw [← Option.some.inj h, run_done done, text_nodeOps]
  · cases h

end Pj.Xml
