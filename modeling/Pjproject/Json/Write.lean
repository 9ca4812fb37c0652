import Pjproject.Pjlib.Str

/-!
# Writing JSON

The elements of `json.h` and the writer of `json.c` over the buffer of `pj_json_write`. The writer
is the buffer with the bytes that are left of it; a function has no result where the C returns
`PJ_ETOOBIG`. The arithmetic of `float` is a parameter.
-/

namespace Pj.Json
open Option List

/-- What is done with a `float`: `pj_strtof`, the sign, and `snprintf` into `num_buf`, if the text
fits. -/
structure FloatOps (F : Type) where
  strtof : Str → F
  neg : F → F
  print : F → Option Str

/-- The types of `pj_json_val_type` that have children. -/
inductive ListType
  | array
  | obj
deriving DecidableEq, Repr

/-- `pj_json_elem`. -/
inductive Elem (F : Type) where
  | null (name : Str)
  | bool (name : Str) (truth : Bool)
  | number (name : Str) (num : F)
  | string (name value : Str)
  | list (type : ListType) (name : Str) (children : List (Elem F))

variable {F : Type} (ops : FloatOps F)

/-- `name` of any element. -/
def Elem.name : Elem F → Str
  | .null name | .bool name _ | .number name _ | .string name _ | .list _ name _ => name

/-- `buf_writer_data`, with what is written. -/
structure BufWriterData where
  out : Str
  size : Nat

/-- `buf_writer`. -/
def bufWriter (s : Str) (data : BufWriterData) : Option BufWriterData :=
  if data.size ≤ s.length + 1 then none
  else some { out := data.out ++ s, size := data.size - s.length }

/-- A byte in `write_string_escaped`. -/
def escape (byte : UInt8) : Str :=
  if byte = 34 ∨ byte = 92 ∨ byte = 47 then [92, byte]
  else if byte = 8 then [92, 98]
  else if byte = 12 then [92, 102]
  else if byte = 10 then [92, 110]
  else if byte = 13 then [92, 114]
  else if byte = 9 then [92, 116]
  else if 32 ≤ byte ∧ byte < 127 then [byte]
  else [92, 117, 48, 48, hexDigit (byte >>> 4), hexDigit (byte &&& 15)]
where
  /-- `pj_hex_digits`. -/
  hexDigit (digit : UInt8) : UInt8 := if digit < 10 then digit + 48 else digit + 87

/-- The inner loop of `write_string_escaped`, with the room in `buf`. -/
def fillBuf (room : Nat) : Str → Str × Str
  | [] => ([], [])
  | byte :: rest =>
    if room < 2 ∨ room < (escape byte).length then ([], byte :: rest)
    else
      let (buf, later) := fillBuf (room - (escape byte).length) rest
      (escape byte ++ buf, later)

/-- `write_string_escaped`. A turn writes a byte, so their number is enough fuel. -/
def writeStringEscaped : Nat → Str → BufWriterData → Option BufWriterData
  | _, [], data => some data
  | 0, _ :: _, _ => none
  | fuel + 1, byte :: rest, data => do
    let (buf, rest) := fillBuf 64 (byte :: rest)
    let data ← bufWriter buf data
    writeStringEscaped fuel rest data

/-- `indent_buf`, whose spaces are followed by `indent` itself in `write_state`. -/
def indentBuf (indent : Nat) : Str :=
  (List.replicate 100 32 ++ [UInt8.ofNat indent, UInt8.ofNat (indent / 256),
    UInt8.ofNat (indent / 65536), UInt8.ofNat (indent / 16777216)]).take indent

/-- The indent of named children. -/
def nextIndent (indent : Nat) : Nat := if indent < 100 then indent + 3 else indent

/-- The name at the start of `elem_write`. -/
def writeName (indent : Nat) (noName : Bool) (name : Str) (data : BufWriterData) :
    Option BufWriterData :=
  if name = [] then some data
  else do
    let data ← bufWriter (indentBuf indent) data
    if noName then return data
    else
      let data ← bufWriter [34] data
      let data ← writeStringEscaped name.length name data
      let data ← bufWriter [34, 58, 32] data
      if name.length < 20 then bufWriter (List.replicate (20 - name.length) 32) data
      else return data

/-- The first of the two `quotes` of a list. -/
def ListType.opening : ListType → UInt8
  | .array => 91
  | .obj => 123

/-- The second one. -/
def ListType.closing : ListType → UInt8
  | .array => 93
  | .obj => 125

/-- `null`. -/
def nullText : Str := [110, 117, 108, 108]

/-- `true`. -/
def trueText : Str := [116, 114, 117, 101]

/-- `false`. -/
def falseText : Str := [102, 97, 108, 115, 101]

mutual

/-- `elem_write`, with `write_children`. -/
def elemWrite (indent : Nat) (noName : Bool) : Elem F → BufWriterData → Option BufWriterData
  | .null name, data => do
    let data ← writeName indent noName name data
    bufWriter nullText data
  | .bool name truth, data => do
    let data ← writeName indent noName name data
    bufWriter (if truth then trueText else falseText) data
  | .number name num, data => do
    let data ← writeName indent noName name data
    let text ← ops.print num
    bufWriter text data
  | .string name value, data => do
    let data ← writeName indent noName name data
    let data ← bufWriter [34] data
    let data ← writeStringEscaped value.length value data
    bufWriter [34] data
  | .list type name children, data => do
    let data ← writeName indent noName name data
    let data ← bufWriter [type.opening] data
    let data ← bufWriter [32] data
    let written :=
      if children = [] then some data
      else if (children.head?.map Elem.name).getD [] = [] then
        writeItems indent (type = .array) [44, 32] none children data
      else do
        let data ← bufWriter [10] data
        let data ← writeItems (nextIndent indent) (type = .array) [44, 10] (some [10]) children data
        bufWriter (indentBuf indent) data
    written.bind (bufWriter [type.closing])

/-- The loops of `write_children`, with what is written between two children and after the last
one. -/
def writeItems (indent : Nat) (noName : Bool) (between : Str) (last : Option Str) :
    List (Elem F) → BufWriterData → Option BufWriterData
  | [], data => some data
  | child :: rest, data => do
    let data ← elemWrite indent noName child data
    if rest = [] then
      match last with
      | some text => bufWriter text data
      | none => some data
    else
      let data ← bufWriter between data
      writeItems indent noName between last rest data

end

/-- `pj_json_write`, with the text. -/
def pjJsonWrite (elem : Elem F) (size : Nat) : Option Str := do
  let data ← elemWrite ops 0 false elem { out := [], size := size }
  return data.out


/-! ## What is written -/

/-- The text of a name. -/
def nameText (indent : Nat) (noName : Bool) (name : Str) : Str :=
  if name = [] then []
  else indentBuf indent ++
    if noName then []
    else 34 :: name.flatMap escape ++ [34, 58, 32] ++ List.replicate (20 - name.length) 32

mutual

/-- The text of an element. -/
def elemText (indent : Nat) (noName : Bool) : Elem F → Str
  | .null name => nameText indent noName name ++ nullText
  | .bool name truth => nameText indent noName name ++ if truth then trueText else falseText
  | .number name num => nameText indent noName name ++ (ops.print num).getD []
  | .string name value => nameText indent noName name ++ 34 :: (value.flatMap escape ++ [34])
  | .list type name children => nameText indent noName name ++ type.opening :: 32 ::
    ((if children = [] then []
    else if (children.head?.map Elem.name).getD [] = [] then
      itemsText indent (type = .array) [44, 32] [] children
    else
      10 :: (itemsText (nextIndent indent) (type = .array) [44, 10] [10] children ++
        indentBuf indent)) ++ [type.closing])

/-- The text of the children of an element. -/
def itemsText (indent : Nat) (noName : Bool) (between last : Str) : List (Elem F) → Str
  | [] => []
  | child :: rest =>
    elemText indent noName child ++
      if rest = [] then last else between ++ itemsText indent noName between last rest

end

/-- The writer after this text. -/
def BufWriterData.append (data : BufWriterData) (text : Str) : BufWriterData :=
  { out := data.out ++ text, size := data.size - text.length }

/-- A writer that writes this text, if it fits with a byte to spare. -/
def Writes (write : BufWriterData → Option BufWriterData) (text : Str) : Prop :=
  ∀ data, write data = some (data.append text) ∨ write data = none ∧ data.size ≤ text.length + 1

theorem BufWriterData.append_append (data : BufWriterData) (text text' : Str) :
    (data.append text).append text' = data.append (text ++ text') := by
  simp [append, Nat.sub_sub]

theorem Writes.nil : Writes some [] := by
  intro data
  left
  rw [BufWriterData.append, append_nil]
  rfl

section
variable {first second : BufWriterData → Option BufWriterData} {text text' : Str}
  (h : Writes first text) (h' : Writes second text')
include h h'

theorem Writes.bind : Writes (fun data => (first data).bind second) (text ++ text') := by
  intro data
  simp only [length_append]
  rcases h data with written | ⟨full, size⟩
  · rcases h' (data.append text) with written' | ⟨full, size⟩
    · left
      rw [written, bind_some, written', data.append_append]
    · right
      have room : data.size - text.length ≤ text'.length + 1 := size
      rw [written, bind_some, full]
      exact ⟨rfl, by omega⟩
  · right
    rw [full]
    exact ⟨rfl, by omega⟩

theorem Writes.ite {condition : Prop} [Decidable condition] :
    Writes (fun data => if condition then first data else second data)
      (if condition then text else text') := by
  by_cases met : condition
  · simpa only [met, if_true] using h
  · simpa only [met, if_false] using h'

end

theorem bufWriter_writes (s : Str) : Writes (bufWriter s) s := by
  intro data
  rw [bufWriter]
  split
  · next full => exact .inr ⟨rfl, full⟩
  · exact .inl rfl

/-- What the inner loop takes from the bytes. -/
theorem fillBuf_eq (room : Nat) (value : Str) :
    ∃ taken, value = taken ++ (fillBuf room value).2 ∧
      (fillBuf room value).1 = taken.flatMap escape := by
  induction value generalizing room with
  | nil => exact ⟨[], rfl, rfl⟩
  | cons byte rest ih =>
    rw [fillBuf]
    split
    · exact ⟨[], rfl, rfl⟩
    · have ⟨taken, whole, text⟩ := ih (room - (escape byte).length)
      refine ⟨byte :: taken, congrArg (byte :: ·) whole, ?_⟩
      rw [flatMap_cons, ← text]

set_option maxRecDepth 4000 in
theorem length_escape (byte : UInt8) : (escape byte).length ≤ 6 :=
  every_byte (P := fun byte => (escape byte).length ≤ 6) (by decide) byte

/-- A buffer holds at least a byte, however it is escaped. -/
theorem fillBuf_cons (byte : UInt8) (rest : Str) : ∃ taken later, rest = taken ++ later ∧
    fillBuf 64 (byte :: rest) = ((byte :: taken).flatMap escape, later) := by
  have short := length_escape byte
  have ⟨taken, whole, text⟩ := fillBuf_eq (64 - (escape byte).length) rest
  refine ⟨taken, _, whole, ?_⟩
  rw [fillBuf, if_neg (by omega), flatMap_cons, ← text]

theorem writeStringEscaped_writes {fuel : Nat} {value : Str} (enough : value.length ≤ fuel) :
    Writes (writeStringEscaped fuel value) (value.flatMap escape) := by
  induction fuel generalizing value with
  | zero =>
    obtain rfl := length_eq_zero_iff.mp (Nat.le_zero.mp enough)
    exact Writes.nil
  | succ fuel ih =>
    cases value with
    | nil => exact Writes.nil
    | cons byte rest =>
      obtain ⟨taken, later, rfl, filled⟩ := fillBuf_cons byte rest
      have shorter : later.length ≤ fuel := by
        rw [length_cons, length_append] at enough
        omega
      have parts : (byte :: (taken ++ later)).flatMap escape =
          (byte :: taken).flatMap escape ++ later.flatMap escape := by
        rw [← cons_append, flatMap_append]
      have both := (bufWriter_writes ((byte :: taken).flatMap escape)).bind (ih shorter)
      rw [parts]
      intro data
      rw [writeStringEscaped, filled]
      exact both data

theorem writeName_writes (indent : Nat) (noName : Bool) (name : Str) :
    Writes (writeName indent noName name) (nameText indent noName name) := by
  have pad : Writes (fun data => if name.length < 20 then
      bufWriter (List.replicate (20 - name.length) 32) data else some data)
        (List.replicate (20 - name.length) 32) := by
    by_cases short : name.length < 20
    · simpa only [short, if_true] using bufWriter_writes _
    · have none : List.replicate (20 - name.length) (32 : UInt8) = [] := by
        rw [Nat.sub_eq_zero_of_le (Nat.not_lt.mp short), replicate_zero]
      simpa only [short, if_false, none] using Writes.nil
  have quoted : Writes (fun data => (bufWriter [34] data).bind fun data =>
      (writeStringEscaped name.length name data).bind fun data =>
        (bufWriter [34, 58, 32] data).bind fun data => if name.length < 20 then
          bufWriter (List.replicate (20 - name.length) 32) data else some data)
      ([34] ++ (name.flatMap escape ++ ([34, 58, 32] ++ List.replicate (20 - name.length) 32))) :=
    (bufWriter_writes [34]).bind ((writeStringEscaped_writes (Nat.le_refl name.length)).bind
      ((bufWriter_writes [34, 58, 32]).bind pad))
  refine Writes.nil.ite ((bufWriter_writes (indentBuf indent)).bind ?_)
  cases noName with
  | true => exact Writes.nil
  | false => simpa using quoted

mutual

/-- The numbers of an element have texts. -/
def Printed : Elem F → Prop
  | .number _ num => (ops.print num).isSome
  | .list _ _ children => PrintedAll children
  | _ => True

/-- Those of the children of an element. -/
def PrintedAll : List (Elem F) → Prop
  | [] => True
  | child :: rest => Printed child ∧ PrintedAll rest

end

mutual

theorem elemWrite_writes (indent : Nat) (noName : Bool) (elem : Elem F)
    (printed : Printed ops elem) :
    Writes (elemWrite ops indent noName elem) (elemText ops indent noName elem) := by
  intro data
  match elem with
  | .null name =>
    exact (writeName_writes indent noName name).bind (bufWriter_writes nullText) data
  | .bool name truth =>
    exact (writeName_writes indent noName name).bind (bufWriter_writes _) data
  | .number name num =>
    have ⟨text, fits⟩ := isSome_iff_exists.mp printed
    rw [elemWrite, elemText, fits]
    exact (writeName_writes indent noName name).bind (bufWriter_writes text) data
  | .string name value =>
    exact (writeName_writes indent noName name).bind ((bufWriter_writes [34]).bind
      ((writeStringEscaped_writes (Nat.le_refl value.length)).bind (bufWriter_writes [34]))) data
  | .list type name children =>
    refine (writeName_writes indent noName name).bind ((bufWriter_writes [type.opening]).bind
      ((bufWriter_writes [32]).bind ?_)) data
    refine Writes.bind ?_ (bufWriter_writes [type.closing])
    refine Writes.nil.ite (Writes.ite ?_ ?_)
    · exact writeItems_writes indent (type = .array) [44, 32] none children printed
    · exact (bufWriter_writes [10]).bind ((writeItems_writes (nextIndent indent) (type = .array)
        [44, 10] (some [10]) children printed).bind (bufWriter_writes (indentBuf indent)))

theorem writeItems_writes (indent : Nat) (noName : Bool) (between : Str) (last : Option Str)
    (children : List (Elem F)) (printed : PrintedAll ops children) :
    Writes (writeItems ops indent noName between last children)
      (itemsText ops indent noName between (last.getD []) children) := by
  intro data
  match children with
  | [] =>
    exact Writes.nil data
  | child :: rest =>
    refine (elemWrite_writes indent noName child printed.1).bind (Writes.ite ?_ ?_) data
    · cases last with
      | none => exact Writes.nil
      | some text => exact bufWriter_writes text
    · exact (bufWriter_writes between).bind
        (writeItems_writes indent noName between last rest printed.2)

end

/-- The text of `pj_json_write`, which fails if there is no room for it. -/
theorem pjJsonWrite_eq {elem : Elem F} (printed : Printed ops elem) (size : Nat) :
    pjJsonWrite ops elem size = some (elemText ops 0 false elem) ∨
      pjJsonWrite ops elem size = none ∧ size ≤ (elemText ops 0 false elem).length + 1 := by
  rw [pjJsonWrite]
  rcases elemWrite_writes ops 0 false elem printed { out := [], size := size } with
    written | ⟨full, room⟩
  · exact .inl (by rw [written]; rfl)
  · exact .inr ⟨by rw [full]; rfl, room⟩

end Pj.Json
