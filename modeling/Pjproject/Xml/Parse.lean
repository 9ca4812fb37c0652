import Pjproject.PjlibUtil.LineScanner
import Pjproject.Xml.Print

/-!
# Parsing XML

`xml_parse_node` of `xml.c`, whose loops and recursion take fuel. A function without a result has
thrown, or has run out of fuel: each turn reads at least one byte, so that the length of the text
is enough of it, except in the loop over a `CDATA` section, which stays at a `]` that does not end
the section.
-/

namespace Pj.Xml
open LineScanner

/-- The byte at `curptr`, and the one after it. -/
def curptr (rest : Str) : UInt8 := rest.getD 0 0
def nextptr (rest : Str) : UInt8 := rest.getD 1 0

@[simp] theorem curptr_cons (byte : UInt8) (rest : Str) : curptr (byte :: rest) = byte := rfl

@[simp] theorem nextptr_cons (byte next : UInt8) (rest : Str) :
    nextptr (byte :: next :: rest) = next := rfl

/-- A character read where the parser expects it. -/
def expectChar (char : UInt8) (rest : Str) : Option Str := do
  let (read, rest) ← scanGetChar rest
  guard (read = char)
  return rest

/-- The loop over a processing instruction. -/
def skipInstruction : Nat → Str → Option Str
  | 0, _ => none
  | fuel + 1, rest => do
    let (_, rest) ← scanGetUntilCh 63 rest
    if curptr rest = 63 ∧ nextptr rest = 62 then scanAdvanceN 2 true rest
    else
      let rest ← scanAdvanceN 1 false rest
      skipInstruction fuel rest

/-- The loop over a comment, which ends at the first `>`. -/
def skipComment : Nat → Str → Option Str
  | 0, _ => none
  | fuel + 1, rest => do
    let (_, rest) ← scanGetUntilCh 62 rest
    if ← scanStrcmp [62] rest then scanAdvanceN 1 true rest
    else
      let rest ← scanAdvanceN 1 false rest
      skipComment fuel rest

/-- Where the name of a node ends, `" />\t\r\n"`. -/
def nodeDelims : Str := [32, 47, 62, 9, 13, 10]

/-- Where the name of an attribute ends, `"=> \t\r\n"`. -/
def attrDelims : Str := [61, 62, 32, 9, 13, 10]

/-- Where the name in an end tag ends, `" \t>"`. -/
def endDelims : Str := [32, 9, 62]

/-- The value of an attribute, which is `alloc_attr`'s empty string unless a `=` follows the
name. -/
def parseValue (rest : Str) : Option (Str × Str) :=
  if curptr rest = 61 then do
    let (_, rest) ← scanGetChar rest
    let (value, rest) ← scanGetQuotes [34, 39] rest
    return ((value.drop 1).take (value.length - 2), rest)
  else some ([], rest)

/-- The loop over the attributes. -/
def parseAttrs : Nat → Str → Option (List XmlAttr × Str)
  | 0, _ => none
  | fuel + 1, rest =>
    if curptr rest ≠ 62 ∧ curptr rest ≠ 47 then do
      let (name, rest) ← scanGetUntilChr attrDelims rest
      let (value, rest) ← parseValue rest
      let (attrs, rest) ← parseAttrs fuel rest
      return ({ name := name, value := value } :: attrs, rest)
    else some ([], rest)

/-- The content of a node that does not begin with `<`. -/
def parseContent (rest : Str) : Option (Str × Str) :=
  if rest ≠ [] ∧ curptr rest ≠ 60 then scanGetUntilCh 60 rest else some ([], rest)

/-- The loop to the end of a `CDATA` section. -/
def skipCdata : Nat → Str → Option Str
  | 0, _ => none
  | fuel + 1, rest => do
    if ← scanStrcmp [93, 93, 62] rest then some rest
    else
      let (_, rest) ← scanGetUntilCh 93 rest
      skipCdata fuel rest

/-- `"<![CDATA["`. -/
def cdataStart : Str := [60, 33, 91, 67, 68, 65, 84, 65, 91]

/-- A `CDATA` section, which replaces the content read before it. -/
def parseCdata (fuel : Nat) (content rest : Str) : Option (Str × Str) :=
  if curptr rest = 60 ∧ nextptr rest = 33 then do
    if ← scanStrcmp cdataStart rest then
      let start ← scanAdvanceN 9 false rest
      let (_, rest) ← scanGetUntilCh 93 start
      let stop ← skipCdata fuel rest
      let rest ← scanAdvanceN 3 true stop
      return (start.take (start.length - stop.length), rest)
    else some (content, rest)
  else some (content, rest)

/-- The end tag of a node. -/
def parseEnd (name rest : Str) : Option Str := do
  let rest ← expectChar 60 rest
  let rest ← expectChar 47 rest
  let (endName, rest) ← scanGetUntilChr endDelims rest
  guard (pjStricmpEq name endName)
  expectChar 62 rest

mutual

/-- `xml_parse_node`. -/
def xmlParseNode : Nat → Str → Option (XmlNode × Str)
  | 0, _ => none
  | fuel + 1, rest =>
    if curptr rest ≠ 60 then none
    else if nextptr rest = 63 then do
      let rest ← scanAdvanceN 2 false rest
      let rest ← skipInstruction fuel rest
      xmlParseNode fuel rest
    else do
      if ← scanStrcmp [60, 33] rest then
        let rest ← scanAdvanceN 2 false rest
        let rest ← skipComment fuel rest
        xmlParseNode fuel rest
      else
        let (_, rest) ← scanGetChar rest
        let (name, rest) ← scanGetUntilChr nodeDelims rest
        let (attrs, rest) ← parseAttrs fuel rest
        if curptr rest = 47 then
          let (_, rest) ← scanGetChar rest
          let rest ← expectChar 62 rest
          return (.mk name attrs [] [], rest)
        else
          let rest ← expectChar 62 rest
          let (nodes, rest) ← parseNodes fuel rest
          let (content, rest) ← parseContent rest
          let (content, rest) ← parseCdata fuel content rest
          let rest ← parseEnd name rest
          return (.mk name attrs nodes content, rest)

/-- The loop over the sub-nodes. -/
def parseNodes : Nat → Str → Option (List XmlNode × Str)
  | 0, _ => none
  | fuel + 1, rest =>
    if curptr rest = 60 ∧ nextptr rest ≠ 47 ∧ nextptr rest ≠ 33 then do
      let (node, rest) ← xmlParseNode fuel rest
      let (nodes, rest) ← parseNodes fuel rest
      return (node :: nodes, rest)
    else some ([], rest)

end

/-- `pj_xml_parse`. -/
def pjXmlParse (msg : Str) : Option XmlNode :=
  if msg = [] then none
  else (xmlParseNode (msg.length + 1) (scanSkipWhitespace msg)).map Prod.fst

end Pj.Xml
