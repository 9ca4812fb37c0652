import Pjproject.PjlibUtil.LineScanner
import Pjproject.Json.Write

/-!
# Parsing JSON

The parser of `json.c`. Where the C returns `NULL` or the scanner throws there is no result. The
place of the error is left out.
-/

namespace Pj.Json
open LineScanner

variable {F : Type} (ops : FloatOps F)

/-- `*scanner.curptr`. -/
def curptr (rest : Str) : UInt8 := rest.getD 0 0

@[simp] theorem curptr_cons (byte : UInt8) (rest : Str) : curptr (byte :: rest) = byte := rfl

/-- `float_spec`. -/
def floatSpec (byte : UInt8) : Bool := byte = 46 || 48 ≤ byte && byte ≤ 57

/-- `pj_scan_get` of a number. -/
def scanGetFloat : Str → Option (Str × Str) := token (pjScanGet floatSpec)

/-- `pj_isalpha`. -/
def isAlpha (byte : UInt8) : Bool := 65 ≤ byte && byte ≤ 90 || 97 ≤ byte && byte ≤ 122

/-- `pj_hex_digit_to_val`. -/
def hexDigitToVal (c : UInt8) : UInt8 :=
  if c ≤ 57 then (c - 48) &&& 15
  else if c ≤ 70 then (c - 65 + 10) &&& 15
  else (c - 97 + 10) &&& 15

/-- The byte that a letter after a backslash stands for. -/
def letterByte (letter : UInt8) : Option UInt8 :=
  if letter = 34 ∨ letter = 92 ∨ letter = 47 then some letter
  else if letter = 98 then some 8
  else if letter = 102 then some 12
  else if letter = 110 then some 10
  else if letter = 114 then some 13
  else if letter = 116 then some 9
  else none

/-- The loop of `parse_quoted_string`. -/
def unescape : Str → Option Str
  | [] => some []
  | 92 :: 117 :: rest =>
    match rest with
    | _ :: _ :: high :: low :: rest => do
      let out ← unescape rest
      return (hexDigitToVal high * 16 + hexDigitToVal low) :: out
    | _ => none
  | 92 :: byte :: rest => do
    let plain ← letterByte byte
    let out ← unescape rest
    return plain :: out
  | [92] => none
  | byte :: rest => do
    let out ← unescape rest
    return byte :: out

/-- `parse_quoted_string`. -/
def parseQuotedString (rest : Str) : Option (Str × Str) := do
  let (quoted, rest) ← scanGetQuotes [34] rest
  let inside := (quoted.drop 1).take (quoted.length - 2)
  if 92 ∉ inside then return (inside, rest)
  else
    let value ← unescape inside
    return (value, rest)

/-- The start of `parse_elem_throw`: the name, a string that no colon follows, and the rest. -/
def parseName (rest : Str) : Option (Str × Str × Str) :=
  if curptr rest = 34 then do
    let (_, rest) ← scanGetChar rest
    let (text, rest) ← scanGetUntilCh 34 rest
    let (_, rest) ← scanGetChar rest
    if curptr rest = 58 then
      let (_, rest) ← scanGetChar rest
      return (text, [], rest)
    else return ([], text, rest)
  else some ([], [], rest)

/-- A number. -/
def parseNumber (rest : Str) : Option (F × Str) :=
  if curptr rest = 45 then do
    let (_, rest) ← scanGetChar rest
    let (text, rest) ← scanGetFloat rest
    return (ops.neg (ops.strtof text), rest)
  else do
    let (text, rest) ← scanGetFloat rest
    return (ops.strtof text, rest)

/-- One of the words. -/
def parseWord (name rest : Str) : Option (Elem F × Str) := do
  if ← scanStrcmp falseText rest then
    let rest ← scanAdvanceN 5 true rest
    return (.bool name false, rest)
  else if ← scanStrcmp trueText rest then
    let rest ← scanAdvanceN 4 true rest
    return (.bool name true, rest)
  else if ← scanStrcmp nullText rest then
    let rest ← scanAdvanceN 4 true rest
    return (.null name, rest)
  else none

mutual

/-- `parse_elem_throw`. -/
def parseElemThrow : Nat → Str → Option (Elem F × Str)
  | 0, _ => none
  | fuel + 1, rest => do
    let (name, value, rest) ← parseName rest
    if value ≠ [] then return (.string name value, rest)
    else parseValue fuel name rest

/-- The value of an element, in `parse_elem_throw`. -/
def parseValue : Nat → Str → Str → Option (Elem F × Str)
  | 0, _, _ => none
  | fuel + 1, name, rest =>
    if floatSpec (curptr rest) ∨ curptr rest = 45 then do
      let (num, rest) ← parseNumber ops rest
      return (.number name num, rest)
    else if curptr rest = 34 then do
      let (value, rest) ← parseQuotedString rest
      return (.string name value, rest)
    else if isAlpha (curptr rest) then parseWord name rest
    else if curptr rest = 91 then do
      let (_, rest) ← scanGetChar rest
      let (children, rest) ← parseChildren fuel 93 rest
      return (.list .array name children, rest)
    else if curptr rest = 123 then do
      let (_, rest) ← scanGetChar rest
      let (children, rest) ← parseChildren fuel 125 rest
      return (.list .obj name children, rest)
    else none

/-- `parse_children` after the first character. The loop over the commas and the one over the
children are one. -/
def parseChildren : Nat → UInt8 → Str → Option (List (Elem F) × Str)
  | 0, _, _ => none
  | fuel + 1, endQuote, rest =>
    if curptr rest = endQuote then do
      let (_, rest) ← scanGetChar rest
      return ([], rest)
    else if curptr rest = 44 then do
      let (_, rest) ← scanGetChar rest
      parseChildren fuel endQuote rest
    else do
      let (child, rest) ← parseElemThrow fuel rest
      let (children, rest) ← parseChildren fuel endQuote rest
      return (child :: children, rest)

end

/-- `pj_json_parse`. A function of the parser reads a character before it calls itself, so four
times the length of the text is enough fuel. -/
def pjJsonParse (buffer : Str) : Option (Elem F) :=
  if buffer = [] then none
  else (parseElemThrow ops (4 * buffer.length + 4) (autoskip buffer)).map Prod.fst

end Pj.Json
