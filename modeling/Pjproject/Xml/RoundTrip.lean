import Mathlib.Data.FinEnum
import Pjproject.Xml.Parse

/-!
# Round trip of XML

A node that is printed in full is read back, with or without the prolog, provided that the parser
can tell its names and attribute values: an element's name does not begin like a processing
instruction or a comment, and a value is on one line and does not end in a backslash that would
escape its last quote.
-/

namespace Pj.Xml
open List LineScanner

/-- A name: not empty, without white space, `<`, `>`, `/`, `=` and quotes. -/
structure Name (name : Str) : Prop where
  nonempty : name ≠ []
  free : ∀ byte ∈ name, byte ∉ ([32, 9, 13, 10, 60, 62, 47, 61, 34, 39] : Str)

/-- The name of an element, which the parser does not take for the start of a processing
instruction or of a comment. -/
structure ElementName (name : Str) : Prop extends Name name where
  notInstruction : name.head? ≠ some 63
  notComment : name.head? ≠ some 33

/-- A value that `pj_scan_get_quotes` reads to its end. -/
structure QuotedValue (value : Str) : Prop where
  quotes : 34 ∉ value
  oneLine : 10 ∉ value
  even : EvenBackslashes value

/-- Content: without `<`, not starting with white space. -/
structure Content (content : Str) : Prop where
  free : 60 ∉ content
  start : ∀ byte ∈ content.head?, isBlank byte = false

instance (name : Str) : Decidable (Name name) :=
  decidable_of_iff
    (name ≠ [] ∧ ∀ byte ∈ name, byte ∉ ([32, 9, 13, 10, 60, 62, 47, 61, 34, 39] : Str))
    ⟨fun ⟨nonempty, free⟩ => ⟨nonempty, free⟩, fun h => ⟨h.nonempty, h.free⟩⟩

instance (name : Str) : Decidable (ElementName name) :=
  decidable_of_iff (Name name ∧ name.head? ≠ some 63 ∧ name.head? ≠ some 33)
    ⟨fun ⟨named, instruction, comment⟩ => ⟨named, instruction, comment⟩,
      fun h => ⟨h.toName, h.notInstruction, h.notComment⟩⟩

instance (value : Str) : Decidable (QuotedValue value) :=
  decidable_of_iff (34 ∉ value ∧ 10 ∉ value ∧ EvenBackslashes value)
    ⟨fun ⟨quotes, oneLine, even⟩ => ⟨quotes, oneLine, even⟩,
      fun h => ⟨h.quotes, h.oneLine, h.even⟩⟩

instance (content : Str) : Decidable (Content content) :=
  decidable_of_iff (60 ∉ content ∧ ∀ byte ∈ content.head?, isBlank byte = false)
    ⟨fun ⟨free, start⟩ => ⟨free, start⟩, fun h => ⟨h.free, h.start⟩⟩

/-- A node whose element names and attribute values are such, with sub-nodes or content but not
both. -/
inductive Shaped (element value : Str → Prop) : XmlNode → Prop
  | mk {name : Str} {attrs : List XmlAttr} {nodes : List XmlNode} {content : Str}
      (named : element name) (attrs_ok : ∀ attr ∈ attrs, Name attr.name ∧ value attr.value)
      (either : nodes = [] ∨ content = []) (content_ok : Content content)
      (nodes_ok : ∀ node ∈ nodes, Shaped element value node) :
      Shaped element value (.mk name attrs nodes content)

/-- The node can be read back. -/
abbrev Printable : XmlNode → Prop := Shaped ElementName QuotedValue

/-! ## Tokens -/

variable {name : Str}

/-- A name begins with a byte that ends no token. -/
theorem Name.head (h : Name name) :
    ∃ first later, name = first :: later ∧ isBlank first = false ∧ first ≠ 62 ∧ first ≠ 47 ∧
      first ≠ 61 := by
  obtain ⟨first, later, rfl⟩ := exists_cons_of_ne_nil h.nonempty
  have free := h.free first mem_cons_self
  simp only [mem_cons, not_mem_nil, or_false, not_or] at free
  have ⟨space, tab, cr, lf, _, greater, slash, equal, _⟩ := free
  exact ⟨first, later, rfl, by simp [isBlank, isSpace, isNewline, *], greater, slash, equal⟩

theorem Name.autoskip (h : Name name) (rest : Str) :
    autoskip (name ++ rest) = name ++ rest := by
  obtain ⟨first, later, rfl, visible, _⟩ := h.head
  exact autoskip_of_not_isBlank visible _

set_option maxRecDepth 4000 in
/-- None of the bytes of a name ends it. -/
theorem Name.delims (h : Name name) :
    (∀ byte ∈ name, byte ∉ nodeDelims) ∧ (∀ byte ∈ name, byte ∉ attrDelims) ∧
      ∀ byte ∈ name, byte ∉ endDelims := by
  have all : ∀ delim ∈ nodeDelims ++ attrDelims ++ endDelims,
      delim ∈ ([32, 9, 13, 10, 60, 62, 47, 61, 34, 39] : Str) := by decide
  refine ⟨fun byte member delim => ?_, fun byte member delim => ?_, fun byte member delim => ?_⟩
  · exact h.free byte member (all byte (by simp [delim]))
  · exact h.free byte member (all byte (by simp [delim]))
  · exact h.free byte member (all byte (by simp [delim]))

/-- A character that does not precede white space. -/
theorem scanGetChar_visible {byte next : UInt8} (nonzero : byte ≠ 0)
    (visible : isBlank next = false) (rest : Str) :
    scanGetChar (byte :: next :: rest) = some (byte, next :: rest) := by
  rw [scanGetChar_spec byte nonzero, autoskip_of_not_isBlank visible]

theorem expectChar_spec {char : UInt8} (nonzero : char ≠ 0) (rest : Str) :
    expectChar char (char :: rest) = some (autoskip rest) := by
  simp [expectChar, scanGetChar_spec char nonzero]

/-- The end tag. -/
theorem parseEnd_spec (h : Name name) (rest : Str) :
    parseEnd name (60 :: 47 :: (name ++ 62 :: rest)) = some (autoskip rest) := by
  have slash : autoskip (47 :: (name ++ 62 :: rest)) = 47 :: (name ++ 62 :: rest) :=
    autoskip_of_not_isBlank (by decide) _
  have close : autoskip (62 :: rest) = 62 :: rest := autoskip_of_not_isBlank (by decide) _
  have same : pjStricmpEq name name = true := by simp [pjStricmpEq]
  simp [parseEnd, expectChar_spec (by decide : (60 : UInt8) ≠ 0), slash,
    expectChar_spec (by decide : (47 : UInt8) ≠ 0), h.autoskip,
    scanGetUntilChr_spec h.delims.2.2 62 (by decide), close, same, guard_true,
    expectChar_spec (by decide : (62 : UInt8) ≠ 0)]

/-! ## Attributes -/

variable {after : Str} {attrs : List XmlAttr}

/-- Where the attributes end: before ` />` or before `>`. -/
def TagEnd (after : Str) : Prop := (∃ rest, after = 32 :: 47 :: rest) ∨ ∃ rest, after = 62 :: rest

/-- After the attributes, or after a name, a space or `>` follows. -/
theorem attrs_start (attrs : List XmlAttr) (stop : TagEnd after) :
    ∃ byte rest, attrs.flatMap attrText ++ after = byte :: rest ∧ (byte = 32 ∨ byte = 62) := by
  cases attrs with
  | nil =>
    rcases stop with ⟨rest, rfl⟩ | ⟨rest, rfl⟩
    · exact ⟨32, 47 :: rest, rfl, .inl rfl⟩
    · exact ⟨62, rest, rfl, .inr rfl⟩
  | cons attr attrs => exact ⟨32, _, rfl, .inl rfl⟩

/-- The name of the next attribute follows. -/
theorem autoskip_attr {attr : XmlAttr} (h : Name attr.name) (rest : Str) :
    autoskip (attrText attr ++ rest) = attr.name ++ (valueText attr.value ++ rest) := by
  rw [attrText, cons_append, cons_append, autoskip_of_isBlank (by decide),
    append_assoc, h.autoskip]

/-- What is read next is not a value. -/
theorem attrs_curptr (h : ∀ attr ∈ attrs, Name attr.name) (stop : TagEnd after) :
    curptr (autoskip (attrs.flatMap attrText ++ after)) ≠ 61 := by
  cases attrs with
  | nil =>
    rcases stop with ⟨rest, rfl⟩ | ⟨rest, rfl⟩
    · exact (by decide : (47 : UInt8) ≠ 61)
    · exact (by decide : (62 : UInt8) ≠ 61)
  | cons attr attrs =>
    have named := h attr mem_cons_self
    have ⟨first, later, name, _, _, _, other⟩ := named.head
    rw [flatMap_cons, append_assoc, autoskip_attr named, name]
    exact other

/-- A value, if there is one, and what follows it. -/
theorem parseValue_spec {value : Str} (h : QuotedValue value)
    (named : ∀ attr ∈ attrs, Name attr.name) (stop : TagEnd after) :
    parseValue (autoskip (valueText value ++ (attrs.flatMap attrText ++ after))) =
      some (value, autoskip (attrs.flatMap attrText ++ after)) := by
  by_cases empty : value = []
  · rw [valueText, if_pos empty, nil_append, parseValue, if_neg (attrs_curptr named stop),
      empty]
  · generalize attrs.flatMap attrText ++ after = rest
    have text : valueText value ++ rest = 61 :: (34 :: value ++ 34 :: rest) := by
      rw [valueText, if_neg empty]
      simp
    have inside : ((34 :: value ++ [34]).drop 1).take ((34 :: value ++ [34]).length - 2) =
        value := by simp
    rw [text, autoskip_of_not_isBlank (by decide), parseValue, curptr_cons,
      if_pos rfl, cons_append,
      scanGetChar_visible (by decide) (by decide), ← cons_append, Option.bind_eq_bind,
      Option.bind_some]
    dsimp only
    rw [scanGetQuotes_spec (by decide) h.quotes h.oneLine h.even]
    simp

/-- The attributes. -/
theorem parseAttrs_spec (h : ∀ attr ∈ attrs, Name attr.name ∧ QuotedValue attr.value) {fuel : Nat}
    (enough : attrs.length < fuel) (stop : TagEnd after) :
    parseAttrs fuel (autoskip (attrs.flatMap attrText ++ after)) =
      some (attrs, autoskip after) := by
  induction attrs generalizing fuel with
  | nil =>
    obtain ⟨fuel, rfl⟩ := Nat.exists_eq_succ_of_ne_zero (Nat.ne_of_gt enough)
    have ended : ¬(curptr (autoskip after) ≠ 62 ∧ curptr (autoskip after) ≠ 47) := by
      rcases stop with ⟨rest, rfl⟩ | ⟨rest, rfl⟩
      · exact fun more => more.2 rfl
      · exact fun more => more.1 rfl
    rw [flatMap_nil, nil_append, parseAttrs, if_neg ended]
  | cons attr attrs ih =>
    obtain ⟨fuel, rfl⟩ := Nat.exists_eq_succ_of_ne_zero (Nat.ne_of_gt (Nat.zero_lt_of_lt enough))
    have ⟨⟨named, quoted⟩, later⟩ := forall_mem_cons.mp h
    have names : ∀ attr ∈ attrs, Name attr.name := fun attr member => (later attr member).1
    have rest := ih later (by simpa using enough)
    have value := parseValue_spec quoted names stop
    obtain ⟨byte, tail, start, delim⟩ : ∃ byte tail,
        valueText attr.value ++ (attrs.flatMap attrText ++ after) = byte :: tail ∧
          byte ∈ attrDelims := by
      rw [valueText]
      split
      · have ⟨byte, tail, start, found⟩ := attrs_start attrs stop
        refine ⟨byte, tail, start, ?_⟩
        rcases found with rfl | rfl <;> decide
      · exact ⟨61, _, rfl, by decide⟩
    rw [start] at value
    have more : curptr (attr.name ++ byte :: tail) ≠ 62 ∧
        curptr (attr.name ++ byte :: tail) ≠ 47 := by
      have ⟨first, _, name, _, greater, slash, _⟩ := named.head
      rw [name]
      exact ⟨greater, slash⟩
    rw [flatMap_cons, append_assoc, autoskip_attr named, start, parseAttrs, if_pos more,
      scanGetUntilChr_spec named.delims.2.1 byte delim]
    simp [value, rest]

/-! ## Nodes -/

mutual

/-- The fuel that a node takes. -/
def nodeSize : XmlNode → Nat
  | .mk _ attrs nodes _ => attrs.length + nodesSize nodes + 2

def nodesSize : List XmlNode → Nat
  | [] => 1
  | node :: nodes => nodeSize node + nodesSize nodes + 1

end

/-- The text of attributes is at least as long as their number. -/
theorem length_attrs (attrs : List XmlAttr) :
    attrs.length ≤ (attrs.flatMap attrText).length := by
  induction attrs with
  | nil => exact Nat.le_refl _
  | cons attr attrs ih =>
    rw [flatMap_cons, length_append, attrText]
    simp only [length_cons, length_append]
    omega

mutual

/-- The text of a node is at least as long as the fuel that it takes. -/
theorem nodeSize_le (node : XmlNode) (indent : Nat) :
    nodeSize node ≤ (nodeText node indent).length := by
  have ⟨name, attrs, nodes, content⟩ := node
  have attrsLength := length_attrs attrs
  have nodesLength := nodesSize_le nodes indent
  rw [nodeSize, nodeText]
  split
  · next empty =>
    rw [empty.2, nodesSize]
    simp only [length_append, length_cons, length_nil]
    omega
  · simp only [length_append, length_cons, length_nil]
    omega

theorem nodesSize_le (nodes : List XmlNode) (indent : Nat) :
    nodesSize nodes ≤ (nodesText nodes indent).length + 1 := by
  cases nodes with
  | nil =>
    rw [nodesSize]
    omega
  | cons node nodes =>
    have first := nodeSize_le node (indent + 1)
    have later := nodesSize_le nodes indent
    rw [nodesSize, nodesText]
    simp only [length_append, length_cons]
    omega

end

/-- The text of a node begins with its name. -/
theorem nodeText_start (h : Name name) (attrs : List XmlAttr) (nodes : List XmlNode)
    (content : Str) (indent : Nat) :
    ∃ first later, nodeText (.mk name attrs nodes content) indent = 60 :: first :: later ∧
      name.head? = some first ∧ first ≠ 47 := by
  obtain ⟨first, later, rfl, _, _, slash, _⟩ := h.head
  exact ⟨first, _, by rw [nodeText]; rfl, rfl, slash⟩

/-- The end of a node without sub-nodes and content. -/
theorem autoskip_empty (rest : Str) : autoskip (32 :: 47 :: 62 :: rest) = 47 :: 62 :: rest := by
  rw [autoskip_of_isBlank (by decide), autoskip_of_not_isBlank (by decide)]

/-- The content of a node and its end. -/
theorem parseContent_spec {content : Str} (h : Content content) (fuel : Nat) (rest : Str) :
    parseContent (content ++ 60 :: 47 :: rest) = some (content, 60 :: 47 :: rest) ∧
      parseCdata fuel content (60 :: 47 :: rest) = some (content, 60 :: 47 :: rest) := by
  constructor
  · rw [parseContent]
    cases content with
    | nil => simp
    | cons first later =>
      have other : first ≠ 60 := fun same => h.free (by simp [same])
      rw [if_pos ⟨by simp, by simpa using other⟩, scanGetUntilCh_spec h.free,
        autoskip_of_not_isBlank (by decide)]
  · rw [parseCdata, if_neg (by simp)]

/-- Content is not read as a sub-node. -/
theorem parseNodes_content {content : Str} (h : Content content) (nonempty : content ≠ [])
    (fuel : Nat) (rest : Str) :
    parseNodes (fuel + 1) (autoskip (content ++ rest)) = some ([], content ++ rest) := by
  obtain ⟨first, later, rfl⟩ := exists_cons_of_ne_nil nonempty
  have other : first ≠ 60 := fun same => h.free (by simp [same])
  rw [cons_append, autoskip_of_not_isBlank (h.start first rfl), parseNodes,
    if_neg fun node => other node.1]

/-- The line end and the spaces before a tag are skipped. -/
theorem autoskip_line (indent : Nat) (rest : Str) :
    autoskip (10 :: spaces indent ++ 60 :: rest) = 60 :: rest := by
  have blanks : ∀ byte ∈ 10 :: spaces indent, isBlank byte = true := by
    intro byte member
    rcases mem_cons.mp member with rfl | member
    · decide
    · rw [eq_of_mem_replicate member]
      decide
  rw [autoskip_append blanks, autoskip_of_not_isBlank (by decide)]

/-- The start of a node: its name and its attributes are read, and then what follows them. -/
theorem xmlParseNode_start (named : ElementName name)
    (attrs_ok : ∀ attr ∈ attrs, Name attr.name ∧ QuotedValue attr.value) {fuel : Nat}
    (enough : attrs.length < fuel) (stop : TagEnd after) :
    xmlParseNode (fuel + 1) (60 :: (name ++ (attrs.flatMap attrText ++ after))) =
      if curptr (autoskip after) = 47 then do
        let (_, rest) ← scanGetChar (autoskip after)
        let rest ← expectChar 62 rest
        return (.mk name attrs [] [], rest)
      else do
        let rest ← expectChar 62 (autoskip after)
        let (nodes, rest) ← parseNodes fuel rest
        let (content, rest) ← parseContent rest
        let (content, rest) ← parseCdata fuel content rest
        let rest ← parseEnd name rest
        return (.mk name attrs nodes content, rest) := by
  have ⟨first, later, start, _⟩ := named.head
  have instruction : nextptr (60 :: (name ++ (attrs.flatMap attrText ++ after))) ≠ 63 := by
    exact fun same => named.notInstruction (by simpa [start] using same)
  have comment : scanStrcmp [60, 33] (60 :: (name ++ (attrs.flatMap attrText ++ after))) =
      some false := by
    have bang : first ≠ 33 := fun same => named.notComment (by simp [start, same])
    simp [scanStrcmp, start, bang]
  have ⟨byte, tail, next, delim⟩ := attrs_start attrs stop
  have inDelims : byte ∈ nodeDelims := by
    rcases delim with rfl | rfl <;> decide
  have read := parseAttrs_spec attrs_ok enough stop
  have getName := scanGetUntilChr_spec named.delims.1 byte inDelims tail
  rw [← next] at getName
  rw [xmlParseNode, if_neg (by simp), if_neg instruction, comment]
  simp [scanGetChar_spec 60 (by decide), named.autoskip, getName, read]

mutual

/-- A node is read back. -/
theorem xmlParseNode_spec (node : XmlNode) (h : Printable node) (indent : Nat) {fuel : Nat}
    (enough : nodeSize node ≤ fuel) (rest : Str) :
    xmlParseNode fuel (nodeText node indent ++ rest) = some (node, autoskip rest) := by
  have ⟨name, attrs, nodes, content⟩ := node
  have ⟨named, attrs_ok, either, content_ok, nodes_ok⟩ := h
  rw [nodeSize] at enough
  obtain ⟨fuel, rfl⟩ := Nat.exists_eq_succ_of_ne_zero (by omega : fuel ≠ 0)
  by_cases empty : content = [] ∧ nodes = []
  · have text : nodeText (.mk name attrs nodes content) indent ++ rest =
        60 :: (name ++ (attrs.flatMap attrText ++ 32 :: 47 :: 62 :: rest)) := by
      rw [nodeText, if_pos empty]
      simp
    rw [text, xmlParseNode_start named attrs_ok (by omega) (.inl ⟨_, rfl⟩), autoskip_empty,
      curptr_cons, if_pos rfl, scanGetChar_visible (by decide) (by decide), empty.1, empty.2]
    simp [expectChar_spec (by decide : (62 : UInt8) ≠ 0)]
  · have text : nodeText (.mk name attrs nodes content) indent ++ rest =
        60 :: (name ++ (attrs.flatMap attrText ++ 62 :: (nodesText nodes indent ++ (content ++
          ((if nodes = [] then [] else 10 :: spaces indent) ++
            60 :: 47 :: (name ++ 62 :: rest)))))) := by
      rw [nodeText, if_neg empty]
      simp
    have last := parseEnd_spec named.toName rest
    have ⟨getContent, getCdata⟩ :=
      parseContent_spec content_ok fuel (name ++ 62 :: rest)
    have getNodes : parseNodes fuel (autoskip (nodesText nodes indent ++ (content ++
        ((if nodes = [] then [] else 10 :: spaces indent) ++ 60 :: 47 :: (name ++ 62 :: rest))))) =
          some (nodes, content ++ 60 :: 47 :: (name ++ 62 :: rest)) := by
      by_cases leaf : nodes = []
      · have nonempty : content ≠ [] := fun none => empty ⟨none, leaf⟩
        obtain ⟨fuel, rfl⟩ := Nat.exists_eq_succ_of_ne_zero (by omega : fuel ≠ 0)
        rw [leaf, nodesText, if_pos rfl, nil_append, nil_append]
        exact parseNodes_content content_ok nonempty fuel _
      · rw [either.resolve_left leaf, if_neg leaf, nil_append, nil_append]
        exact parseNodes_spec nodes nodes_ok indent (by omega) _
    rw [text, xmlParseNode_start named attrs_ok (by omega) (.inr ⟨_, rfl⟩),
      autoskip_of_not_isBlank (by decide), if_neg (by simp)]
    simp [getNodes, getContent, getCdata, last, expectChar_spec (by decide : (62 : UInt8) ≠ 0)]

theorem parseNodes_spec (nodes : List XmlNode) (h : ∀ node ∈ nodes, Printable node) (indent : Nat)
    {fuel : Nat} (enough : nodesSize nodes ≤ fuel) (rest : Str) :
    parseNodes fuel (autoskip (nodesText nodes indent ++ (10 :: spaces indent ++ 60 :: 47 :: rest)))
      = some (nodes, 60 :: 47 :: rest) := by
  cases nodes with
  | nil =>
    rw [nodesSize] at enough
    obtain ⟨fuel, rfl⟩ := Nat.exists_eq_succ_of_ne_zero (by omega : fuel ≠ 0)
    rw [nodesText, nil_append, autoskip_line, parseNodes, if_neg (by simp)]
  | cons node nodes =>
    have ⟨name, attrs, subs, content⟩ := node
    have ⟨printable, others⟩ := forall_mem_cons.mp h
    rw [nodesSize] at enough
    obtain ⟨fuel, rfl⟩ := Nat.exists_eq_succ_of_ne_zero (by omega : fuel ≠ 0)
    have node := xmlParseNode_spec _ printable (indent + 1) (by omega : _ ≤ fuel)
      (nodesText nodes indent ++ (10 :: spaces indent ++ 60 :: 47 :: rest))
    have later := parseNodes_spec nodes others indent (by omega : _ ≤ fuel) rest
    have ⟨named, _, _, _, _⟩ := printable
    have ⟨first, text, start, head, slash⟩ :=
      nodeText_start named.toName attrs subs content (indent + 1)
    have comment : first ≠ 33 := fun same => named.notComment (same ▸ head)
    rw [nodesText, start] 
    rw [start] at node
    simp only [append_assoc, cons_append] at node later ⊢
    rw [← cons_append, autoskip_line, parseNodes, if_pos (by simp [slash, comment]), node]
    simp [later]

end

/-- The prolog is skipped. -/
theorem xmlParseNode_prolog (fuel : Nat) (rest : Str) :
    xmlParseNode (fuel + 2) (prologText ++ rest) = xmlParseNode (fuel + 1) (autoskip rest) := by
  have text : prologText ++ rest = 60 :: 63 :: (((prologText.drop 2).take 34) ++ 63 :: 62 :: 10 ::
    rest) := rfl
  have question : scanGetUntilCh 63 (((prologText.drop 2).take 34) ++ 63 :: 62 :: 10 :: rest) =
      some ((prologText.drop 2).take 34, 63 :: 62 :: 10 :: rest) := by
    rw [scanGetUntilCh_spec (by decide), autoskip_of_not_isBlank (by decide)]
  rw [text, xmlParseNode, if_neg (by simp), if_pos (by simp), scanAdvanceN_two]
  simp [skipInstruction, question, curptr_cons, nextptr_cons, scanAdvanceN_two,
    autoskip_of_isBlank (by decide : isBlank 10 = true)]

/-- Nothing fits into an empty buffer. -/
theorem xmlPrintNode_none (node : XmlNode) (includeProlog : Bool) :
    xmlPrintNode node 0 ((0 : Nat) - (prolog includeProlog).length) = none := by
  have ⟨name, attrs, nodes, content⟩ := node
  have small : i32 ((0 : Nat) - (prolog includeProlog).length) < name.length + (0 : Nat) + 5 := by
    have room : i32 ((0 : Nat) - (prolog includeProlog).length) ≤ 0 := by
      cases includeProlog <;> decide
    omega
  rw [xmlPrintNode, guard, if_neg (by simpa using small)]
  rfl

/-- The text that `pj_xml_print` makes of a node that fits. -/
theorem pjXmlPrint_eq {node : XmlNode} {len : Nat} {includeProlog : Bool} {text : Str}
    (printed : pjXmlPrint node len includeProlog = some text)
    (fits : (xmlPrintNode node 0 (len - (prolog includeProlog).length)).isSome) :
    ∃ lineEnd, text = prolog includeProlog ++ (nodeText node 0 ++ lineEnd) := by
  have ⟨body, whole⟩ := Option.isSome_iff_exists.mp fits
  have content := xmlPrintNode_eq whole
  have nonempty : len ≠ 0 := by
    rintro rfl
    rw [xmlPrintNode_none] at whole
    contradiction
  unfold pjXmlPrint at printed
  rw [if_neg nonempty] at printed
  split at printed
  · contradiction
  · dsimp only at printed
    rw [whole] at printed
    obtain rfl := Option.some.inj printed
    exact ⟨_, by rw [content]; exact append_assoc _ _ _⟩

/-- What is printed of a printable node is read back as the node. -/
theorem xml_round_trip {node : XmlNode} (h : Printable node) {len : Nat} {includeProlog : Bool}
    {text : Str} (printed : pjXmlPrint node len includeProlog = some text)
    (fits : (xmlPrintNode node 0 (len - (prolog includeProlog).length)).isSome) :
    pjXmlParse text = some node := by
  obtain ⟨lineEnd, rfl⟩ := pjXmlPrint_eq printed fits
  obtain ⟨rest, start⟩ : ∃ rest, nodeText node 0 ++ lineEnd = 60 :: rest := by
    have ⟨name, attrs, nodes, content⟩ := node
    exact ⟨_, by rw [nodeText]; rfl⟩
  have visible : autoskip (nodeText node 0 ++ lineEnd) = nodeText node 0 ++ lineEnd := by
    rw [start, autoskip_of_not_isBlank (by decide)]
  have nonempty : prolog includeProlog ++ (nodeText node 0 ++ lineEnd) ≠ [] := by simp [start]
  have size := nodeSize_le node 0
  rw [pjXmlParse, if_neg nonempty, scanSkipWhitespace_eq, ← autoskip_eq]
  cases includeProlog with
  | false =>
    have enough : nodeSize node ≤ (nodeText node 0 ++ lineEnd).length + 1 := by
      rw [length_append]
      omega
    have whole : prolog false ++ (nodeText node 0 ++ lineEnd) = nodeText node 0 ++ lineEnd := rfl
    rw [whole, visible, xmlParseNode_spec node h 0 enough lineEnd]
    rfl
  | true =>
    generalize long : (prolog true ++ (nodeText node 0 ++ lineEnd)).length = length
    obtain ⟨fuel, rfl⟩ : ∃ fuel, length = fuel + 1 := by
      refine ⟨length - 1, ?_⟩
      rw [start] at long
      simp only [length_append, length_cons] at long
      omega
    have enough : nodeSize node ≤ fuel + 1 := by
      simp only [length_append] at long
      omega
    have skipped : autoskip (prolog true ++ (nodeText node 0 ++ lineEnd)) =
        prologText ++ (nodeText node 0 ++ lineEnd) := autoskip_of_not_isBlank (by decide) _
    rw [skipped, xmlParseNode_prolog, visible, xmlParseNode_spec node h 0 enough lineEnd]
    rfl

set_option maxRecDepth 4000 in
/-- A node with an empty attribute, a sub-node with content and an empty one. -/
theorem xml_round_trip_presence :
    let content : Str := [111, 112, 101, 110, 32]
    let node : XmlNode := .mk [116] [⟨[97], [47, 92, 92]⟩, ⟨[98], []⟩]
      [.mk [115] [] [] content, .mk [117] [⟨[105], [60]⟩] [] []] []
    ∃ text, pjXmlPrint node 1000 true = some text ∧ pjXmlParse text = some node := by
  intro content node
  have printable : Printable node := by
    refine .mk (by decide) (by decide) (.inr rfl) (by decide)
      (forall_mem_cons.mpr ⟨?_, forall_mem_singleton.mpr ?_⟩)
    · exact .mk (by decide) nofun (.inl rfl) (by decide) nofun
    · exact .mk (by decide) (by decide) (.inl rfl) (by decide) nofun
  have ⟨text, printed⟩ := Option.isSome_iff_exists.mp
    (by decide : (pjXmlPrint node 1000 true).isSome)
  exact ⟨text, printed, xml_round_trip printable printed (by decide)⟩

/-- A node of names and of values without quotes that fits is not read back. -/
def NotReadBack (node : XmlNode) : Prop :=
  Shaped Name (34 ∉ ·) node ∧ (xmlPrintNode node 0 100).isSome ∧
    ∃ text, pjXmlPrint node 100 false = some text ∧ pjXmlParse text ≠ some node

set_option maxRecDepth 4000 in
/-- Names that begin like a processing instruction or a comment, and values with a line end or
with a backslash before the last quote, are not read back. -/
theorem xml_round_trip_fails :
    NotReadBack (.mk [63, 97] [] [] []) ∧ NotReadBack (.mk [33, 97] [] [] []) ∧
      NotReadBack (.mk [97] [⟨[120], [10]⟩] [] []) ∧
      NotReadBack (.mk [97] [⟨[120], [92]⟩] [] []) := by
  have leaf : ∀ {name : Str} {attrs : List XmlAttr}, Name name →
      (∀ attr ∈ attrs, Name attr.name ∧ 34 ∉ attr.value) →
        Shaped Name (34 ∉ ·) (.mk name attrs [] []) := fun named attrs_ok =>
    .mk named attrs_ok (.inl rfl) (by decide) nofun
  have other : ∀ {text : Str} {node : XmlNode}, pjXmlParse text = none →
      pjXmlParse text ≠ some node := fun none => by simp [none]
  refine ⟨?_, ?_, ?_, ?_⟩
  · exact ⟨leaf (by decide) nofun, by decide, _, rfl, other rfl⟩
  · exact ⟨leaf (by decide) nofun, by decide, _, rfl, other rfl⟩
  · exact ⟨leaf (by decide) (by decide), by decide, _, rfl, other rfl⟩
  · exact ⟨leaf (by decide) (by decide), by decide, _, rfl, other rfl⟩

end Pj.Xml
