import Mathlib.Data.List.TakeWhile
import Pjproject.Json.Parse

/-!
# The JSON round trip

Which trees `pj_json_parse` makes again from the text of `pj_json_write`: names and strings without
a name are not unescaped, the spaces at their start are skipped, `true` and `null` need a byte
after them, and the buffer of the indent is too short for more than 33 objects in each other.
-/

namespace Pj.Json
open Option List LineScanner

variable {F : Type} (ops : FloatOps F)

/-! ## Escaped bytes -/

variable {s : Str}

variable {byte : UInt8}

/-- A byte that is written as it is. -/
def PlainByte (byte : UInt8) : Prop := 32 ≤ byte ∧ byte < 127 ∧ byte ≠ 34 ∧ byte ≠ 92 ∧ byte ≠ 47

instance (byte : UInt8) : Decidable (PlainByte byte) := inferInstanceAs (Decidable (_ ∧ _))

/-- A text that is written as it is, and does not begin with a space. -/
structure Plain (s : Str) : Prop where
  start : s.head? ≠ some 32
  bytes : ∀ byte ∈ s, PlainByte byte

theorem Plain.nil : Plain [] := ⟨nofun, nofun⟩

section bytes
-- The facts about one byte are decided for each of its values.
set_option maxRecDepth 4000

theorem escape_plain (h : PlainByte byte) : escape byte = [byte] :=
  every_byte (P := fun byte => PlainByte byte → escape byte = [byte]) (by decide) byte h

theorem escape_long (h : ¬PlainByte byte) : 2 ≤ (escape byte).length :=
  every_byte (P := fun byte => ¬PlainByte byte → 2 ≤ (escape byte).length) (by decide) byte h

/-- The first byte of an escaped one, which ends nothing. -/
theorem escape_head (byte : UInt8) : ∃ first rest, escape byte = first :: rest ∧ first ≠ 34 ∧
    first ≠ 10 ∧ (isBlank first = true → byte = 32 ∧ rest = []) := by
  have all : (escape byte).head? ≠ none ∧ (escape byte).headD 0 ≠ 34 ∧ (escape byte).headD 0 ≠ 10 ∧
      (isBlank ((escape byte).headD 0) = true → byte = 32) :=
    every_byte (P := fun byte => (escape byte).head? ≠ none ∧ (escape byte).headD 0 ≠ 34 ∧
      (escape byte).headD 0 ≠ 10 ∧ (isBlank ((escape byte).headD 0) = true → byte = 32))
      (by decide) byte
  cases text : escape byte with
  | nil =>
    rw [text] at all
    exact absurd rfl all.1
  | cons first rest =>
    rw [text] at all
    refine ⟨first, rest, rfl, all.2.1, all.2.2.1, fun blank => ?_⟩
    obtain rfl := all.2.2.2 blank
    exact ⟨rfl, (List.cons.inj text).2.symm⟩

theorem quote_escape (h : byte ≠ 34) : 34 ∉ escape byte :=
  every_byte (P := fun byte => byte ≠ 34 → 34 ∉ escape byte) (by decide) byte h

theorem escape_last (h : byte ≠ 92) :
    ∃ last before, (escape byte).reverse = last :: before ∧ last ≠ 92 := by
  have all : (escape byte).reverse ≠ [] ∧ (escape byte).reverse.headD 0 ≠ 92 :=
    every_byte (P := fun byte => byte ≠ 92 → (escape byte).reverse ≠ [] ∧
      (escape byte).reverse.headD 0 ≠ 92) (by decide) byte h
  cases text : (escape byte).reverse with
  | nil => exact absurd text all.1
  | cons last before =>
    rw [text] at all
    exact ⟨last, before, rfl, all.2⟩

theorem backslash_escape (h : ¬PlainByte byte) : 92 ∈ escape byte :=
  every_byte (P := fun byte => ¬PlainByte byte → 92 ∈ escape byte) (by decide) byte h

theorem newline_escape (byte : UInt8) : 10 ∉ escape byte :=
  every_byte (P := fun byte => 10 ∉ escape byte) (by decide) byte

theorem hexDigitToVal_hexDigit (byte : UInt8) :
    hexDigitToVal (escape.hexDigit (byte >>> 4)) * 16 +
      hexDigitToVal (escape.hexDigit (byte &&& 15)) = byte :=
  every_byte (P := fun byte => hexDigitToVal (escape.hexDigit (byte >>> 4)) * 16 +
    hexDigitToVal (escape.hexDigit (byte &&& 15)) = byte) (by decide) byte

end bytes

theorem PlainByte.not_isBlank (h : PlainByte byte) (space : byte ≠ 32) :
    isBlank byte = false := by
  by_contra blank
  exact space (UInt8.le_antisymm (isBlank_le (by simpa using blank)) h.1)

theorem quote_escaped (h : 34 ∉ s) : 34 ∉ s.flatMap escape := by
  intro member
  have ⟨byte, inside, found⟩ := mem_flatMap.mp member
  exact quote_escape (fun same => h (same ▸ inside)) found

theorem escaped_plain (h : ∀ byte ∈ s, PlainByte byte) : s.flatMap escape = s := by
  induction s with
  | nil => rfl
  | cons byte rest ih =>
    rw [flatMap_cons, escape_plain (h byte mem_cons_self),
      ih fun other member => h other (mem_cons_of_mem byte member)]
    rfl

/-- Escaping does not make a text shorter, and leaves only plain bytes as long as they are. -/
theorem length_escaped (s : Str) : s.length ≤ (s.flatMap escape).length ∧
    ((s.flatMap escape).length = s.length → ∀ byte ∈ s, PlainByte byte) := by
  induction s with
  | nil => exact ⟨Nat.le_refl 0, fun _ => nofun⟩
  | cons byte rest ih =>
    have ⟨first, later, text, _⟩ := escape_head byte
    have long : 1 ≤ (escape byte).length := by
      rw [text]
      exact Nat.succ_pos _
    rw [flatMap_cons, length_append, length_cons]
    refine ⟨by omega, fun same => forall_mem_cons.mpr ⟨?_, ih.2 (by omega)⟩⟩
    by_contra plain
    have longer := escape_long plain
    omega

/-! ## What the parser reads of a name -/

/-- The escaped text after the blanks at its start. -/
def visible (s : Str) : Str := (s.flatMap escape).dropWhile isBlank

/-- What is read of a name, and of a string without a name. -/
def readBack (s : Str) : Str := (visible s).takeWhile (· ≠ 34)

theorem visible_cons (byte : UInt8) (rest : Str) :
    byte = 32 ∧ visible (byte :: rest) = visible rest ∨
      visible (byte :: rest) = (byte :: rest).flatMap escape ∧
        ∃ first later, visible (byte :: rest) = first :: later ∧ first ≠ 34 := by
  have ⟨first, later, text, quote, _, blank⟩ := escape_head byte
  rw [visible, flatMap_cons, text, cons_append]
  by_cases skipped : isBlank first = true
  · obtain ⟨rfl, rfl⟩ := blank skipped
    exact .inl ⟨rfl, dropWhile_cons_of_pos skipped⟩
  · rw [dropWhile_cons_of_neg skipped]
    exact .inr ⟨rfl, first, _, rfl, quote⟩

theorem visible_not_isBlank (s : Str) {first : UInt8} {later : Str}
    (text : visible s = first :: later) : isBlank first = false := by
  have start := head?_dropWhile_not isBlank (s.flatMap escape)
  rw [← visible, text] at start
  exact start

/-- A name is read back exactly if it is plain. -/
theorem readBack_eq_iff (s : Str) : readBack s = s ↔ Plain s := by
  constructor
  · intro same
    have free : 34 ∉ s := by
      intro member
      rw [← same, readBack] at member
      have other := mem_takeWhile_imp member
      contradiction
    have whole : readBack s = visible s := by
      refine takeWhile_eq_self_iff.mpr fun byte member => decide_eq_true ?_
      rintro rfl
      exact quote_escaped free ((dropWhile_sublist isBlank).mem member)
    rw [whole] at same
    cases s with
    | nil => exact Plain.nil
    | cons byte rest =>
      have start := visible_not_isBlank _ same
      refine ⟨fun space => ?_, ?_⟩
      · obtain rfl := some.inj space
        exact absurd start (by decide)
      · rcases visible_cons byte rest with ⟨rfl, _⟩ | ⟨all, _⟩
        · exact absurd start (by decide)
        · exact (length_escaped (byte :: rest)).2 (congrArg List.length (all.symm.trans same))
  · intro plain
    have kept : visible s = s := by
      rw [visible, escaped_plain plain.bytes]
      cases s with
      | nil => rfl
      | cons byte rest =>
        have space : byte ≠ 32 := fun same => plain.start (congrArg some same)
        have shown := (plain.bytes byte mem_cons_self).not_isBlank space
        exact dropWhile_cons_of_neg (by simp [shown])
    rw [readBack, kept]
    exact takeWhile_eq_self_iff.mpr fun byte member =>
      decide_eq_true (plain.bytes byte member).2.2.1

/-- Of a name with a quote something is read. -/
theorem readBack_ne_nil (h : 34 ∈ s) : readBack s ≠ [] := by
  induction s with
  | nil => contradiction
  | cons byte rest ih =>
    rcases visible_cons byte rest with ⟨rfl, skipped⟩ | ⟨_, first, later, text, quote⟩
    · exact ih ((mem_cons.mp h).resolve_left (by decide))
    · rw [readBack, text, takeWhile_cons_of_pos (by simpa using quote)]
      exact cons_ne_nil _ _

theorem dropWhile_stop {p : UInt8 → Bool} {stop : UInt8} (h : p stop = false) (s rest : Str) :
    (s ++ stop :: rest).dropWhile p = s.dropWhile p ++ stop :: rest := by
  induction s with
  | nil => exact dropWhile_cons_of_neg (by simp [h])
  | cons byte s ih =>
    rw [cons_append]
    by_cases skipped : p byte = true
    · rw [dropWhile_cons_of_pos skipped, dropWhile_cons_of_pos skipped, ih]
    · rw [dropWhile_cons_of_neg skipped, dropWhile_cons_of_neg skipped,
        cons_append]

/-- A name or a string without a name is read to its first quote. -/
theorem parseName_quoted (s after : Str) : ∃ next, (34 ∉ s → next = after) ∧
    parseName (34 :: (s.flatMap escape ++ 34 :: after)) =
      if curptr (autoskip next) = 58 then some (readBack s, [], autoskip (autoskip next).tail)
      else some ([], readBack s, autoskip next) := by
  have shown : autoskip (s.flatMap escape ++ 34 :: after) = visible s ++ 34 :: after := by
    rw [autoskip_eq, dropWhile_stop (by decide), visible]
  -- The scanner goes on after the first quote that it meets.
  obtain ⟨next, stop, free⟩ : ∃ next, visible s ++ 34 :: after = readBack s ++ 34 :: next ∧
      (34 ∉ s → next = after) := by
    cases rest : (visible s).dropWhile (· ≠ 34) with
    | nil =>
      have all : readBack s = visible s := by
        have parts := takeWhile_append_dropWhile (p := (· ≠ (34 : UInt8))) (l := visible s)
        rw [rest, append_nil] at parts
        exact parts
      exact ⟨after, by rw [all], fun _ => rfl⟩
    | cons quote tail =>
      have parts := takeWhile_append_dropWhile (p := (· ≠ (34 : UInt8))) (l := visible s)
      have first := head?_dropWhile_not (· ≠ (34 : UInt8)) (visible s)
      rw [rest] at parts first
      obtain rfl : quote = 34 := by simpa using first
      refine ⟨tail ++ 34 :: after, ?_, fun none => ?_⟩
      · rw [← parts, readBack, append_assoc]
        rfl
      · have member : 34 ∈ visible s := by
          rw [← parts]
          exact mem_append_right _ mem_cons_self
        exact absurd ((dropWhile_sublist isBlank).mem member) (quote_escaped none)
  refine ⟨next, free, ?_⟩
  have token : 34 ∉ readBack s := by
    intro member
    have other := mem_takeWhile_imp member
    contradiction
  have quoted : parseName (34 :: (s.flatMap escape ++ 34 :: after)) = do
      if curptr (autoskip next) = 58 then
        return (readBack s, [], (← scanGetChar (autoskip next)).2)
      else return ([], readBack s, autoskip next) := by
    rw [parseName, curptr_cons, if_pos rfl]
    simp [scanGetChar_spec 34 (by decide), shown, stop, scanGetUntilCh_spec token,
      autoskip_of_not_isBlank (by decide : isBlank 34 = false)]
  rw [quoted]
  by_cases colon : curptr (autoskip next) = 58
  · cases rest : autoskip next with
    | nil =>
      rw [rest] at colon
      contradiction
    | cons byte tail =>
      rw [rest] at colon
      obtain rfl : byte = 58 := colon
      rw [scanGetChar_spec 58 (by decide)]
      rfl
  · rw [if_neg colon, if_neg colon]
    rfl

/-! ## What the parser reads of a string with a name -/

variable {seen : Str}

variable {text : Str}

/-- The bytes before a quote, the last one first, that do not escape it. -/
def Closed (seen : Str) : Prop := (seen.takeWhile (· = 92)).length % 2 = 0

theorem Closed.isEscaped (h : Closed seen) : isEscaped seen = false := by
  have backslashes : EvenBackslashes seen.reverse := by
    rw [EvenBackslashes, reverse_reverse]
    exact h
  have even := isEscaped_of_even backslashes
  rwa [reverse_reverse] at even

/-- A backslash after them escapes a quote. -/
theorem Closed.escapes (h : Closed seen) : LineScanner.isEscaped (92 :: seen) = true := by
  have even : (seen.takeWhile (· = 92)).length % 2 = 0 := h
  simp [LineScanner.isEscaped, even]

theorem closed_other (h : byte ≠ 92) (seen : Str) : Closed (byte :: seen) := by
  rw [Closed, takeWhile_cons_of_neg (by simpa using h)]
  rfl

theorem Closed.twice (h : Closed seen) : Closed (92 :: 92 :: seen) := by
  have even : (seen.takeWhile (· = 92)).length % 2 = 0 := h
  rw [Closed, takeWhile_cons_of_pos (by decide), takeWhile_cons_of_pos (by decide)]
  simp only [length_cons]
  omega

/-- The loop passes what is no quote and no line end. -/
theorem quoted_append (quotes : 34 ∉ text) (newlines : 10 ∉ text) (seen rest : Str) :
    quoted 34 seen (text ++ rest) = quoted 34 (text.reverse ++ seen) rest := by
  induction text generalizing seen with
  | nil => rfl
  | cons byte text ih =>
    have quote : byte ≠ 34 := fun same => quotes (mem_cons.mpr (.inl same.symm))
    have newline : byte ≠ 10 := fun same => newlines (mem_cons.mpr (.inl same.symm))
    rw [cons_append, quoted, if_neg quote, if_neg newline,
      ih (not_mem_of_not_mem_cons quotes) (not_mem_of_not_mem_cons newlines),
      reverse_cons, append_assoc, singleton_append]

/-- The loop passes an escaped byte. -/
theorem Closed.quoted_escape (h : Closed seen) (byte : UInt8) (rest : Str) :
    quoted 34 seen (escape byte ++ rest) = quoted 34 ((escape byte).reverse ++ seen) rest ∧
      Closed ((escape byte).reverse ++ seen) := by
  by_cases quote : byte = 34
  · subst quote
    have text : escape 34 = [92, 34] := rfl
    rw [text]
    refine ⟨?_, closed_other (by decide) (92 :: seen)⟩
    rw [cons_append, singleton_append, quoted, if_neg (by decide), if_neg (by decide),
      quoted, if_pos rfl, if_pos h.escapes]
    rfl
  · refine ⟨quoted_append (quote_escape quote) (newline_escape byte) seen rest, ?_⟩
    by_cases backslash : byte = 92
    · subst backslash
      exact h.twice
    · obtain ⟨last, before, text, other⟩ := escape_last backslash
      rw [text]
      exact closed_other other _

/-- A string in quotes is read to its last quote. -/
theorem scanGetQuotes_escaped (value rest : Str) :
    scanGetQuotes [34] (34 :: (value.flatMap escape ++ 34 :: rest)) =
      some (34 :: value.flatMap escape ++ [34], autoskip rest) := by
  have read : ∀ seen, Closed seen → quoted 34 seen (value.flatMap escape ++ 34 :: rest) =
      some (seen.reverse ++ value.flatMap escape, rest) := by
    induction value with
    | nil =>
      intro seen closed
      simp [quoted, closed.isEscaped]
    | cons byte value ih =>
      intro seen closed
      obtain ⟨passed, closed'⟩ := closed.quoted_escape byte (value.flatMap escape ++ 34 :: rest)
      rw [flatMap_cons, append_assoc, passed, ih _ closed']
      simp
  have inside := read [] rfl
  simp only [scanGetQuotes, getD_cons_zero, tail_cons, inside]
  rfl

theorem unescape_pair {letter : UInt8} (h : letter ≠ 117) (rest : Str) :
    unescape (92 :: letter :: rest) = do
      let plain ← letterByte letter
      let out ← unescape rest
      return plain :: out := by
  rw [unescape]
  exact h

theorem unescape_other (h : byte ≠ 92) (rest : Str) :
    unescape (byte :: rest) = (unescape rest).map (byte :: ·) := by
  rw [unescape]
  · cases unescape rest <;> rfl
  · exact fun _ same => absurd same h
  · exact fun _ _ same => absurd same h
  · exact fun same => absurd same h

/-- An escaped byte is unescaped. -/
theorem unescape_escape (byte : UInt8) (rest : Str) :
    unescape (escape byte ++ rest) = (unescape rest).map (byte :: ·) := by
  have paired : ∀ {letter : UInt8} (plain : UInt8), letter ≠ 117 →
      letterByte letter = some plain →
      unescape (92 :: letter :: rest) = (unescape rest).map (plain :: ·) := by
    intro letter plain other means
    rw [unescape_pair other, means]
    cases unescape rest <;> rfl
  unfold escape
  split
  · next self =>
    refine paired byte ?_ (if_pos self)
    rcases self with rfl | rfl | rfl <;> decide
  · next notSelf =>
    split
    · next same => exact same ▸ paired 8 (by decide) rfl
    · split
      · next same => exact same ▸ paired 12 (by decide) rfl
      · split
        · next same => exact same ▸ paired 10 (by decide) rfl
        · split
          · next same => exact same ▸ paired 13 (by decide) rfl
          · split
            · next same => exact same ▸ paired 9 (by decide) rfl
            · split
              · have backslash : byte ≠ 92 := fun same => notSelf (.inr (.inl same))
                exact unescape_other backslash rest
              · have value := hexDigitToVal_hexDigit byte
                simp only [cons_append, nil_append]
                rw [unescape, value]
                cases unescape rest <;> rfl

/-- What is escaped is unescaped. -/
theorem unescape_escaped (value : Str) : unescape (value.flatMap escape) = some value := by
  induction value with
  | nil => rfl
  | cons byte value ih => rw [flatMap_cons, unescape_escape, ih, map_some]

/-- Without a backslash nothing is escaped. -/
theorem escaped_of_backslash {value : Str} (h : 92 ∉ value.flatMap escape) :
    value.flatMap escape = value := by
  refine escaped_plain fun byte member => ?_
  by_contra plain
  exact h (mem_flatMap.mpr ⟨byte, member, backslash_escape plain⟩)

theorem parseQuotedString_escaped (value rest : Str) :
    parseQuotedString (34 :: (value.flatMap escape ++ 34 :: rest)) = some (value, autoskip rest) := by
  have inside : ((34 :: value.flatMap escape ++ [34]).drop 1).take
      ((34 :: value.flatMap escape ++ [34]).length - 2) = value.flatMap escape := by simp
  rw [parseQuotedString, scanGetQuotes_escaped]
  simp only [bind_eq_bind, bind_some, inside]
  split
  · next free =>
    rw [escaped_of_backslash free]
    rfl
  · rw [unescape_escaped]
    rfl

/-! ## The trees of the round trip -/

variable {rest' : Str}

variable {name rest : Str} {levels fuel : Nat} {elem : Elem F} {noName : Bool}

mutual

/-- A tree without numbers, in which the members of objects have names and the elements of arrays
do not. -/
def Shaped : Elem F → Prop
  | .null _ | .bool _ _ | .string _ _ => True
  | .number _ _ => False
  | .list type _ children => ShapedAll type children

/-- The children of an element. -/
def ShapedAll (type : ListType) : List (Elem F) → Prop
  | [] => True
  | child :: rest => (child.name = [] ↔ type = .array) ∧ Shaped child ∧ ShapedAll type rest

end

mutual

theorem Shaped.printed {elem : Elem F} (h : Shaped elem) : Printed ops elem := by
  match elem with
  | .null _ | .bool _ _ | .string _ _ => trivial
  | .number _ _ => exact h.elim
  | .list _ _ children => exact ShapedAll.printed h

theorem ShapedAll.printed {type : ListType} {children : List (Elem F)}
    (h : ShapedAll type children) : PrintedAll ops children := by
  match children with
  | [] => trivial
  | child :: rest => exact ⟨h.2.1.printed, h.2.2.printed⟩

end

mutual

/-- The elements that are read back, inside so many objects. A name is plain, and so is a string
without a name, which is not empty. -/
def Kept (levels : Nat) : Elem F → Prop
  | .null name | .bool name _ | .number name _ => Plain name
  | .string name value => Plain name ∧ (name = [] → value ≠ [] ∧ Plain value)
  | .list .array name children => Plain name ∧ KeptAll levels children
  | .list .obj name children =>
    Plain name ∧ (children ≠ [] → levels < 33) ∧ KeptAll (levels + 1) children

/-- The children of an element. -/
def KeptAll (levels : Nat) : List (Elem F) → Prop
  | [] => True
  | child :: rest => Kept levels child ∧ KeptAll levels rest

end

/-- The texts that read as nothing more of an element. -/
def Ends (rest : Str) : Prop := curptr (autoskip rest) ∈ ([0, 44, 93, 125] : Str)

/-- The indent inside so many objects. -/
def indentOf (levels : Nat) : Nat := 3 * min levels 34

theorem nextIndent_indentOf (levels : Nat) : nextIndent (indentOf levels) = indentOf (levels + 1) := by
  rw [nextIndent, indentOf, indentOf]
  split <;> omega

theorem indentBuf_eq (h : levels ≤ 33) :
    indentBuf (indentOf levels) = List.replicate (indentOf levels) 32 := by
  have short : indentOf levels ≤ 100 := by
    rw [indentOf]
    omega
  rw [indentBuf, take_append_of_le_length (by simpa using short), take_replicate,
    Nat.min_eq_left short]

theorem autoskip_replicate (count : Nat) (rest : Str) :
    autoskip (List.replicate count 32 ++ rest) = autoskip rest := by
  refine autoskip_append (fun byte member => ?_) rest
  rw [eq_of_mem_replicate member]
  decide

/-- The name is that of the element that is parsed. -/
theorem parseWord_name (h : parseWord name rest = some (elem, rest')) :
    elem.name = name := by
  have returned : ∀ {count : Nat} {word : Elem F}, word.name = name →
      ((scanAdvanceN count true rest).bind fun rest => some (word, rest)) = some (elem, rest') →
        elem.name = name := by
    intro count word named result
    have ⟨_, _, same⟩ := bind_eq_some_iff.mp result
    obtain ⟨rfl, _⟩ := Prod.mk.inj (some.inj same)
    exact named
  obtain ⟨isFalse, _, h⟩ := bind_eq_some_iff.mp h
  split at h
  · exact returned rfl h
  · obtain ⟨isTrue, _, h⟩ := bind_eq_some_iff.mp h
    split at h
    · exact returned rfl h
    · have ⟨isNull, _, h⟩ := bind_eq_some_iff.mp h
      split at h
      · exact returned rfl h
      · contradiction

theorem parseValue_name (h : parseValue ops fuel name rest = some (elem, rest')) :
    elem.name = name := by
  cases fuel with
  | zero => contradiction
  | succ fuel =>
    rw [parseValue] at h
    split at h
    · have ⟨_, _, h⟩ := bind_eq_some_iff.mp h
      obtain ⟨rfl, _⟩ := Prod.mk.inj (some.inj h)
      rfl
    · split at h
      · have ⟨_, _, h⟩ := bind_eq_some_iff.mp h
        obtain ⟨rfl, _⟩ := Prod.mk.inj (some.inj h)
        rfl
      · split at h
        · exact parseWord_name h
        · have children : ∀ {type : ListType} {endQuote : UInt8},
              ((scanGetChar rest).bind fun read => (parseChildren ops fuel endQuote read.2).bind
                fun parsed => some (Elem.list type name parsed.1, parsed.2)) =
                  some (elem, rest') → elem.name = name := by
            intro type endQuote result
            have ⟨_, _, result⟩ := bind_eq_some_iff.mp result
            have ⟨_, _, same⟩ := bind_eq_some_iff.mp result
            obtain ⟨rfl, _⟩ := Prod.mk.inj (some.inj same)
            rfl
          split at h
          · exact children h
          · split at h
            · exact children h
            · contradiction

/-- The text of a name, where the next indent is in the buffer. -/
theorem nameText_eq (few : levels ≤ 33) (unnamed : noName = true → name = []) (named : name ≠ [])
    (text : Str) :
    autoskip (nameText (indentOf levels) noName name ++ text) =
      34 :: (name.flatMap escape ++ 34 :: (58 :: 32 :: List.replicate (20 - name.length) 32 ++
        text)) := by
  have printed : noName = false := by
    cases noName with
    | true => exact absurd (unnamed rfl) named
    | false => rfl
  rw [nameText, if_neg named, indentBuf_eq few, printed, append_assoc, autoskip_replicate]
  have start : isBlank 34 = false := by decide
  simp [autoskip_of_not_isBlank start]

theorem autoskip_pad (count : Nat) (text : Str) :
    autoskip (58 :: 32 :: List.replicate count 32 ++ text) =
      58 :: (32 :: List.replicate count 32 ++ text) :=
  autoskip_of_not_isBlank (by decide) _

theorem parseElemThrow_eq {value : Str} (h : parseName rest = some (name, value, rest')) :
    parseElemThrow ops (fuel + 1) rest =
      if value ≠ [] then some (.string name value, rest') else parseValue ops fuel name rest' := by
  rw [parseElemThrow, h]
  rfl

/-- The name of an element is read before the value, and is right if it is plain. -/
theorem parseElemThrow_name (few : levels ≤ 33) (unnamed : noName = true → name = [])
    (other : name = [] → curptr (autoskip text) ≠ 34) (fuel : Nat) :
    (Plain name → parseElemThrow ops (fuel + 1) (autoskip (nameText (indentOf levels) noName name ++
      text)) = parseValue ops fuel name (autoskip text)) ∧
      (¬Plain name → ∀ elem rest, parseElemThrow ops (fuel + 1) (autoskip (nameText
        (indentOf levels) noName name ++ text)) = some (elem, rest) → elem.name ≠ name) := by
  by_cases empty : name = []
  · subst empty
    refine ⟨fun _ => ?_, fun notPlain => absurd Plain.nil notPlain⟩
    have start : parseName (autoskip text) = some ([], [], autoskip text) := if_neg (other rfl)
    rw [nameText, if_pos rfl, nil_append, parseElemThrow_eq ops start, if_neg (not_not.mpr rfl)]
  · rw [nameText_eq few unnamed empty]
    have ⟨next, free, read⟩ := parseName_quoted name (58 :: 32 :: List.replicate
      (20 - name.length) 32 ++ text)
    constructor
    · intro plain
      have noQuote : 34 ∉ name := fun member => (plain.bytes 34 member).2.2.1 rfl
      rw [free noQuote, autoskip_pad, curptr_cons, if_pos rfl, (readBack_eq_iff name).mpr plain,
        tail_cons] at read
      have padded : autoskip (32 :: List.replicate (20 - name.length) 32 ++ text) = autoskip text :=
        autoskip_replicate (20 - name.length + 1) text
      rw [parseElemThrow_eq ops read, if_neg (not_not.mpr rfl), padded]
    · intro notPlain elem rest parsed
      have different : readBack name ≠ name := fun same => notPlain ((readBack_eq_iff name).mp same)
      by_cases colon : curptr (autoskip next) = 58
      · rw [if_pos colon] at read
        rw [parseElemThrow_eq ops read, if_neg (not_not.mpr rfl)] at parsed
        rw [parseValue_name ops parsed]
        exact different
      · rw [if_neg colon] at read
        rw [parseElemThrow_eq ops read] at parsed
        have quote : 34 ∈ name := by
          by_contra noQuote
          rw [free noQuote, autoskip_pad] at colon
          exact colon rfl
        rw [if_pos (readBack_ne_nil quote)] at parsed
        obtain ⟨rfl, _⟩ := Prod.mk.inj (some.inj parsed)
        exact Ne.symm empty

/-- No value begins with what ends an element. -/
theorem parseValue_ends (ends : Ends rest) (fuel : Nat) (name : Str) :
    parseValue ops fuel name (autoskip rest) = none := by
  cases fuel with
  | zero => rfl
  | succ fuel =>
    rw [parseValue]
    rw [Ends] at ends
    generalize curptr (autoskip rest) = byte at ends
    simp only [mem_cons, not_mem_nil, or_false] at ends
    rcases ends with rfl | rfl | rfl | rfl <;> rfl

/-- A string without a name is read like a name. -/
theorem parseElemThrow_string (ends : Ends rest) (value : Str) (fuel : Nat) :
    (value ≠ [] → Plain value → parseElemThrow ops (fuel + 1) (34 :: (value.flatMap escape ++
      34 :: rest)) = some (.string [] value, autoskip rest)) ∧
      (¬(value ≠ [] ∧ Plain value) → ∀ elem rest', parseElemThrow ops (fuel + 1)
        (34 :: (value.flatMap escape ++ 34 :: rest)) = some (elem, rest') →
          elem ≠ .string [] value) := by
  have ⟨next, free, read⟩ := parseName_quoted value rest
  have noColon : curptr (autoskip rest) ≠ 58 := by
    intro colon
    rw [Ends, colon] at ends
    contradiction
  constructor
  · intro nonempty plain
    have noQuote : 34 ∉ value := fun member => (plain.bytes 34 member).2.2.1 rfl
    rw [free noQuote, if_neg noColon, (readBack_eq_iff value).mpr plain] at read
    rw [parseElemThrow_eq ops read, if_pos nonempty]
  · intro lost elem rest' parsed
    rintro rfl
    by_cases colon : curptr (autoskip next) = 58
    · -- A quote before a colon makes the text a name.
      have quote : 34 ∈ value := by
        by_contra noQuote
        rw [free noQuote] at colon
        exact noColon colon
      rw [if_pos colon] at read
      rw [parseElemThrow_eq ops read, if_neg (not_not.mpr rfl)] at parsed
      exact readBack_ne_nil quote (parseValue_name ops parsed).symm
    · rw [if_neg colon] at read
      rw [parseElemThrow_eq ops read] at parsed
      by_cases empty : readBack value = []
      · -- Nothing is read, and no value follows.
        have noQuote : 34 ∉ value := fun quote => readBack_ne_nil quote empty
        rw [if_neg (not_not.mpr empty), free noQuote] at parsed
        rw [parseValue_ends ops ends] at parsed
        contradiction
      · rw [if_pos empty] at parsed
        have ⟨same, _⟩ := Prod.mk.inj (some.inj parsed)
        have back : readBack value = value := (Elem.string.inj same).2
        exact lost ⟨back ▸ empty, (readBack_eq_iff value).mp back⟩


/-! ## Values -/

variable {α : Type}

variable {after : Str} {kept : Prop} {children : List (Elem F)}

/-- The parser makes this, and goes on there, exactly if it is kept. -/
def Reads {α : Type} (parsed : Option (α × Str)) (made : α) (after : Str) (kept : Prop) : Prop :=
  (kept → parsed = some (made, after)) ∧
    (¬kept → ∀ other rest, parsed = some (other, rest) → other ≠ made)

theorem Reads.congr {parsed : Option (α × Str)} {made : α} {kept' : Prop}
    (h : Reads parsed made after kept) (same : kept ↔ kept') :
    Reads parsed made after kept' := by
  rwa [← same]

theorem Reads.always {parsed : Option (α × Str)} {made : α} (h : parsed = some (made, after)) :
    Reads parsed made after True :=
  ⟨fun _ => h, fun lost => absurd trivial lost⟩

theorem Reads.never {parsed : Option (α × Str)} (made : α) (after : Str) (h : parsed = none)
    (lost : ¬kept) : Reads parsed made after kept := by
  refine ⟨fun holds => absurd holds lost, fun _ other rest parsed => ?_⟩
  rw [h] at parsed
  contradiction

/-- An element whose value is read after its name. -/
theorem Reads.named (few : levels ≤ 33) (unnamed : noName = true → name = []) {first : UInt8}
    (visible : isBlank first = false) (other : name = [] → first ≠ 34) (named : elem.name = name)
    (value : Reads (parseValue ops fuel name (first :: text)) elem after kept) :
    Reads (parseElemThrow ops (fuel + 1) (autoskip (nameText (indentOf levels) noName name ++
      first :: text))) elem after (Plain name ∧ kept) := by
  have shown : autoskip (first :: text) = first :: text := autoskip_of_not_isBlank visible text
  have unquoted : name = [] → curptr (autoskip (first :: text)) ≠ 34 := by
    rwa [shown, curptr_cons]
  have ⟨right, wrong⟩ := parseElemThrow_name ops few unnamed unquoted fuel
  rw [shown] at right
  constructor
  · rintro ⟨plain, holds⟩
    rw [right plain, value.1 holds]
  · intro lost made rest parsed
    by_cases plain : Plain name
    · rw [right plain] at parsed
      exact value.2 (fun holds => lost ⟨plain, holds⟩) made rest parsed
    · rintro rfl
      exact wrong plain made rest parsed named

/-- The words that are compared with a longer one first. -/
def ShortWord : Elem F → Prop
  | .null _ => True
  | .bool _ truth => truth = true
  | _ => False

set_option maxRecDepth 4000 in
/-- Nothing of a letter but a word is read. -/
theorem parseValue_word {first : UInt8} (letter : isAlpha first = true) (fuel : Nat)
    (name rest : Str) :
    parseValue ops (fuel + 1) name (first :: rest) = parseWord name (first :: rest) := by
  have other : floatSpec first = false ∧ first ≠ 45 ∧ first ≠ 34 :=
    every_byte (P := fun byte => isAlpha byte = true → floatSpec byte = false ∧ byte ≠ 45 ∧
      byte ≠ 34) (by decide) first letter
  rw [parseValue, curptr_cons, if_neg (by simp [other.1, other.2.1]), if_neg other.2.2,
    if_pos letter]

theorem parseValue_null (fuel : Nat) (name rest : Str) :
    Reads (parseValue ops (fuel + 1) name (nullText ++ rest)) (.null name) (autoskip rest)
      (rest ≠ []) := by
  have word := parseValue_word ops (by decide : isAlpha 110 = true) fuel name
    ([117, 108, 108] ++ rest)
  cases rest with
  | nil => exact .never _ _ (word.trans rfl) (not_not.mpr rfl)
  | cons byte rest => exact (Reads.always (word.trans rfl)).congr (by simp)

theorem parseValue_true (fuel : Nat) (name rest : Str) :
    Reads (parseValue ops (fuel + 1) name (trueText ++ rest)) (.bool name true) (autoskip rest)
      (rest ≠ []) := by
  have word := parseValue_word ops (by decide : isAlpha 116 = true) fuel name
    ([114, 117, 101] ++ rest)
  cases rest with
  | nil => exact .never _ _ (word.trans rfl) (not_not.mpr rfl)
  | cons byte rest => exact (Reads.always (word.trans rfl)).congr (by simp)

theorem parseValue_false (fuel : Nat) (name rest : Str) :
    parseValue ops (fuel + 1) name (falseText ++ rest) =
      some (.bool name false, autoskip rest) :=
  (parseValue_word ops (by decide : isAlpha 102 = true) fuel name _).trans rfl

theorem parseValue_string (fuel : Nat) (name value rest : Str) :
    parseValue ops (fuel + 1) name (34 :: (value.flatMap escape ++ 34 :: rest)) =
      some (.string name value, autoskip rest) := by
  rw [parseValue, curptr_cons, if_neg (by decide), if_pos rfl, parseQuotedString_escaped]
  rfl

theorem parseValue_list (fuel : Nat) (type : ListType) (name rest : Str) :
    parseValue ops (fuel + 1) name (type.opening :: rest) =
      (parseChildren ops fuel type.closing (autoskip rest)).map fun parsed =>
        (.list type name parsed.1, parsed.2) := by
  rw [parseValue, curptr_cons]
  cases type with
  | array =>
    rw [ListType.opening, if_neg (by decide), if_neg (by decide), if_neg (by decide), if_pos rfl,
      scanGetChar_spec 91 (by decide)]
    simp only [bind_eq_bind, bind_some, map_eq_bind]
    rfl
  | obj =>
    rw [ListType.opening, if_neg (by decide), if_neg (by decide), if_neg (by decide),
      if_neg (by decide), if_pos rfl, scanGetChar_spec 123 (by decide)]
    simp only [bind_eq_bind, bind_some, map_eq_bind]
    rfl

/-- A list is read if its children are. -/
theorem Reads.list {type : ListType}
    (h : Reads (parseChildren ops fuel type.closing (autoskip rest)) children after kept) :
    Reads (parseValue ops (fuel + 1) name (type.opening :: rest)) (.list type name children) after
      kept := by
  rw [parseValue_list]
  constructor
  · intro holds
    rw [h.1 holds]
    rfl
  · intro lost other rest' parsed
    have ⟨⟨made, rest''⟩, children_eq, same⟩ := map_eq_some_iff.mp parsed
    obtain ⟨rfl, _⟩ := Prod.mk.inj same
    intro equal
    exact h.2 lost made rest'' children_eq (Elem.list.inj equal).2.2

/-! ## Children -/

theorem parseChildren_end (fuel : Nat) (type : ListType) (rest : Str) :
    parseChildren ops (fuel + 1) type.closing (type.closing :: rest) =
      some ([], autoskip rest) := by
  have visible : type.closing ≠ 0 := by cases type <;> decide
  rw [parseChildren, curptr_cons, if_pos rfl, scanGetChar_spec _ visible]
  rfl

theorem parseChildren_comma (fuel : Nat) (type : ListType) (rest : Str) :
    parseChildren ops (fuel + 1) type.closing (44 :: rest) =
      parseChildren ops fuel type.closing (autoskip rest) := by
  have other : (44 : UInt8) ≠ type.closing := by cases type <;> decide
  rw [parseChildren, curptr_cons, if_neg other, if_pos rfl, scanGetChar_spec 44 (by decide)]
  rfl

/-- The bytes that an element that is no number begins with. -/
def startBytes : Str := [34, 91, 123, 110, 116, 102]

theorem parseChildren_child (start : curptr rest ∈ startBytes) (fuel : Nat) (type : ListType) :
    parseChildren ops (fuel + 1) type.closing rest = do
      let (child, rest) ← parseElemThrow ops fuel rest
      let (children, rest) ← parseChildren ops fuel type.closing rest
      return (child :: children, rest) := by
  have other : curptr rest ≠ type.closing ∧ curptr rest ≠ 44 := by
    generalize curptr rest = byte at start
    simp only [startBytes, mem_cons, not_mem_nil, or_false] at start
    rcases start with rfl | rfl | rfl | rfl | rfl | rfl <;> cases type <;> decide
  rw [parseChildren, if_neg other.1, if_neg other.2]

/-- Children are read if the first and the others are. -/
theorem Reads.cons {type : ListType} {between : Str} {child : Elem F} {keptAll : Prop}
    (start : curptr text ∈ startBytes)
    (first : Reads (parseElemThrow ops fuel text) child between kept)
    (others : Reads (parseChildren ops fuel type.closing between) children after keptAll) :
    Reads (parseChildren ops (fuel + 1) type.closing text) (child :: children) after
      (kept ∧ keptAll) := by
  rw [parseChildren_child ops start]
  constructor
  · rintro ⟨holds, holdsAll⟩
    rw [first.1 holds]
    simp only [bind_eq_bind, bind_some]
    rw [others.1 holdsAll]
    rfl
  · intro lost made rest parsed
    have ⟨⟨child', between'⟩, parsedFirst, parsed⟩ := bind_eq_some_iff.mp parsed
    have ⟨⟨children', after'⟩, parsedOthers, same⟩ := bind_eq_some_iff.mp parsed
    obtain ⟨rfl, _⟩ := Prod.mk.inj (some.inj same)
    intro equal
    have ⟨sameChild, sameChildren⟩ := List.cons.inj equal
    by_cases holds : kept
    · rw [first.1 holds] at parsedFirst
      obtain ⟨_, rfl⟩ := Prod.mk.inj (some.inj parsedFirst)
      exact others.2 (fun holdsAll => lost ⟨holds, holdsAll⟩) _ _ parsedOthers sameChildren
    · exact first.2 holds _ _ parsedFirst sameChild


/-! ## Trees -/

/-- An element's text begins with its name or its value. -/
theorem nameText_start (few : levels ≤ 33) (unnamed : noName = true → name = [])
    (value : curptr (autoskip text) ∈ startBytes) :
    curptr (autoskip (nameText (indentOf levels) noName name ++ text)) ∈ startBytes := by
  by_cases empty : name = []
  · rwa [nameText, if_pos empty]
  · rw [nameText_eq few unnamed empty]
    exact mem_cons_self

theorem curptr_visible (h : isBlank byte = false) (rest : Str) :
    curptr (autoskip (byte :: rest)) = byte := by
  rw [autoskip_of_not_isBlank h, curptr_cons]

theorem elemText_start (few : levels ≤ 33) (shaped : Shaped elem)
    (unnamed : noName = true → elem.name = []) (suffix : Str) :
    curptr (autoskip (elemText ops (indentOf levels) noName elem ++ suffix)) ∈ startBytes := by
  have start : ∀ {name text : Str} {byte : UInt8}, (noName = true → name = []) →
      isBlank byte = false → byte ∈ startBytes →
        curptr (autoskip (nameText (indentOf levels) noName name ++ (byte :: text) ++ suffix)) ∈
          startBytes := by
    intro name text byte unnamed visible member
    rw [append_assoc]
    apply nameText_start few unnamed
    rwa [cons_append, curptr_visible visible]
  cases elem with
  | null name => exact start unnamed (by decide) (by decide)
  | bool name truth => cases truth <;> exact start unnamed (by decide) (by decide)
  | number name num => exact shaped.elim
  | string name value => exact start unnamed (by decide) (by decide)
  | list type name children =>
    cases type <;> rw [elemText] <;> exact start unnamed (by decide) (by decide)

/-- The text between the quotes of a list. -/
def insideText (indent : Nat) (type : ListType) (children : List (Elem F)) : Str :=
  if children = [] then []
  else if (children.head?.map Elem.name).getD [] = [] then
    itemsText ops indent (type = .array) [44, 32] [] children
  else
    10 :: (itemsText ops (nextIndent indent) (type = .array) [44, 10] [10] children ++
      indentBuf indent)

theorem elemText_list (indent : Nat) (noName : Bool) (type : ListType) (name : Str)
    (children : List (Elem F)) : elemText ops indent noName (.list type name children) =
      nameText indent noName name ++ type.opening :: 32 ::
        (insideText ops indent type children ++ [type.closing]) := by
  rfl

mutual

/-- The fuel that reads an element. -/
def elemFuel : Elem F → Nat
  | .list _ _ children => childrenFuel children + 2
  | _ => 2

def childrenFuel : List (Elem F) → Nat
  | [] => 1
  | child :: rest => elemFuel child + childrenFuel rest + 2

end

theorem one_le_childrenFuel (children : List (Elem F)) : 1 ≤ childrenFuel children := by
  cases children with
  | nil => exact Nat.le_refl 1
  | cons child rest =>
    rw [childrenFuel]
    omega

theorem two_le_elemFuel (elem : Elem F) : 2 ≤ elemFuel elem := by
  cases elem <;> simp [elemFuel]

/-- An element with a name is indented. -/
theorem elemText_indent (named : elem.name ≠ []) (indent : Nat) (noName : Bool) :
    ∃ text, elemText ops indent noName elem = indentBuf indent ++ text := by
  rw [Elem.name.eq_def] at named
  cases elem <;> rw [elemText, nameText, if_neg named, append_assoc] <;> exact ⟨_, rfl⟩

/-- After the spaces of its buffer the indent of too many objects is no element. -/
theorem parseChildren_deep (fuel : Nat) (text : Str) :
    parseChildren ops fuel 125 (autoskip (indentBuf (indentOf 34) ++ text)) = none := by
  have start : autoskip (indentBuf (indentOf 34) ++ text) = 102 :: 0 :: text := by
    have buffer : indentBuf (indentOf 34) = List.replicate 100 32 ++ [102, 0] := by decide
    rw [buffer, append_assoc, autoskip_replicate]
    exact autoskip_of_not_isBlank (by decide) _
  have word : parseWord (F := F) [] (102 :: 0 :: text) = none := by
    rcases text with _ | ⟨_, _ | ⟨_, _ | ⟨_, _⟩⟩⟩ <;> rfl
  have elem : ∀ fuel, parseElemThrow ops fuel (102 :: 0 :: text) = none := by
    rintro (_ | _ | fuel)
    · rfl
    · rfl
    · have unnamed : parseName (102 :: 0 :: text) = some ([], [], 102 :: 0 :: text) := rfl
      rw [parseElemThrow_eq ops unnamed, if_neg (not_not.mpr rfl),
        parseValue_word ops (by decide), word]
  cases fuel with
  | zero => rfl
  | succ fuel =>
    have start : curptr (102 :: 0 :: text) ∈ startBytes := by
      rw [curptr_cons]
      decide
    have child := parseChildren_child ops start fuel .obj
    rw [elem] at child
    exact child

/-- The text between the quotes of a list is read as its children, if they are read inside any
number of objects for which the buffer of the indent is long enough. -/
theorem inside_reads (few : levels ≤ 33) {type : ListType} (shaped : ShapedAll type children)
    (enough : childrenFuel children ≤ fuel) (suffix : Str)
    (read : ∀ {levels : Nat}, levels ≤ 33 → ∀ {blanks last tail : Str},
      (∀ byte ∈ blanks, isBlank byte = true) → (∀ byte ∈ last, isBlank byte = true) →
        autoskip tail = type.closing :: suffix →
          Reads (parseChildren ops fuel type.closing (autoskip (itemsText ops (indentOf levels)
            (type = .array) (44 :: blanks) last children ++ tail))) children (autoskip suffix)
              (KeptAll levels children)) :
    Reads (parseChildren ops fuel type.closing (autoskip (32 :: (insideText ops (indentOf levels)
      type children ++ [type.closing]) ++ suffix))) children (autoskip suffix)
        ((type = .obj → children ≠ [] → levels < 33) ∧
          KeptAll (levels + if type = .obj then 1 else 0) children) := by
  have closes : autoskip (type.closing :: suffix) = type.closing :: suffix :=
    autoskip_of_not_isBlank (by cases type <;> decide) suffix
  have space : isBlank 32 = true := by decide
  have newline : isBlank 10 = true := by decide
  rw [cons_append, autoskip_of_isBlank space, insideText]
  cases children with
  | nil =>
    obtain ⟨fuel, rfl⟩ : ∃ more, fuel = more + 1 :=
      ⟨fuel - 1, by rw [childrenFuel] at enough; omega⟩
    have ended := parseChildren_end ops fuel type suffix
    rw [← closes] at ended
    exact (Reads.always ended).congr (by simp [KeptAll])
  | cons child rest =>
    have first : ((child :: rest).head?.map Elem.name).getD [] = child.name := rfl
    rw [if_neg (cons_ne_nil child rest), first, append_assoc]
    cases type with
    | array =>
      rw [if_pos (shaped.1.mpr rfl)]
      have items := read few (forall_mem_singleton.mpr space) (forall_mem_nil _) closes
      exact items.congr (by simp)
    | obj =>
      have named : child.name ≠ [] := fun none => nomatch shaped.1.mp none
      rw [if_neg named, cons_append, autoskip_of_isBlank newline, nextIndent_indentOf,
        append_assoc]
      by_cases room : levels < 33
      · have tail : autoskip (indentBuf (indentOf levels) ++ ([ListType.closing .obj] ++
            suffix)) = ListType.closing .obj :: suffix := by
          rw [indentBuf_eq few, autoskip_replicate]
          exact closes
        have items := read room (forall_mem_singleton.mpr newline)
          (forall_mem_singleton.mpr newline) tail
        exact items.congr (by simp [room])
      · obtain rfl : levels = 33 := by omega
        have ⟨text, indented⟩ := elemText_indent ops named (indentOf (33 + 1))
          (ListType.obj = .array)
        rw [itemsText, indented, append_assoc, append_assoc]
        exact .never _ _ (parseChildren_deep ops fuel _) (by simp)

mutual

/-- An element that is no number is read exactly if it is kept. -/
theorem elem_reads {levels : Nat} (few : levels ≤ 33) {noName : Bool} (elem : Elem F)
    (shaped : Shaped elem) (unnamed : noName = true → elem.name = []) {fuel : Nat}
    (enough : elemFuel elem ≤ fuel) {suffix : Str} (ends : Ends suffix) :
    Reads (parseElemThrow ops fuel (autoskip (elemText ops (indentOf levels) noName elem ++
      suffix))) elem (autoskip suffix) (Kept levels elem ∧ (ShortWord elem → suffix ≠ [])) := by
  obtain ⟨fuel, rfl⟩ : ∃ more, fuel = more + 2 := by
    have two := two_le_elemFuel elem
    exact ⟨fuel - 2, by omega⟩
  match elem with
  | .null name =>
    rw [elemText, append_assoc]
    exact (Reads.named ops few unnamed (by decide) (fun _ => by decide) rfl
      (parseValue_null ops fuel name suffix)).congr (by simp [Kept, ShortWord, Elem.name])
  | .bool name true =>
    rw [elemText, if_pos rfl, append_assoc]
    exact (Reads.named ops few unnamed (by decide) (fun _ => by decide) rfl
      (parseValue_true ops fuel name suffix)).congr (by simp [Kept, ShortWord, Elem.name])
  | .bool name false =>
    rw [elemText, if_neg (by decide), append_assoc]
    exact (Reads.named ops few unnamed (by decide) (fun _ => by decide) rfl
      (.always (parseValue_false ops fuel name suffix))).congr (by simp [Kept, ShortWord, Elem.name])
  | .number name num => exact shaped.elim
  | .string name value =>
    rw [elemText, append_assoc]
    have text : 34 :: (value.flatMap escape ++ [34]) ++ suffix =
        34 :: (value.flatMap escape ++ 34 :: suffix) := by simp
    rw [text]
    by_cases empty : name = []
    · subst empty
      have ⟨right, wrong⟩ := parseElemThrow_string ops ends value (fuel + 1)
      apply Reads.congr ⟨fun kept => right kept.1 kept.2, fun lost => wrong lost⟩
      simp [Kept, ShortWord, Plain.nil]
    · exact (Reads.named ops few unnamed (by decide) (fun same => absurd same empty) rfl
        (.always (parseValue_string ops fuel name value suffix))).congr
          (by simp [Kept, ShortWord, Elem.name, empty])
  | .list type name children =>
    rw [elemFuel] at enough
    rw [elemText_list, append_assoc]
    have visible : isBlank type.opening = false ∧ type.opening ≠ 34 := by cases type <;> decide
    have inside := inside_reads ops few shaped (by omega : childrenFuel children ≤ fuel) suffix
      fun few _ _ _ blank blank' closing => children_reads few children shaped blank blank' closing
        (by omega : _ ≤ fuel)
    refine (Reads.named ops few unnamed visible.1 (fun _ => visible.2) rfl inside.list).congr ?_
    cases type <;> simp [Kept, ShortWord, Elem.name]

theorem children_reads {levels : Nat} (few : levels ≤ 33) {type : ListType}
    (children : List (Elem F)) (shaped : ShapedAll type children) {blanks last tail suffix : Str}
    (blank : ∀ byte ∈ blanks, isBlank byte = true) (blank' : ∀ byte ∈ last, isBlank byte = true)
    (closing : autoskip tail = type.closing :: suffix) {fuel : Nat}
    (enough : childrenFuel children ≤ fuel) :
    Reads (parseChildren ops fuel type.closing (autoskip (itemsText ops (indentOf levels)
      (type = .array) (44 :: blanks) last children ++ tail))) children (autoskip suffix)
        (KeptAll levels children) := by
  match children with
  | [] =>
    obtain ⟨fuel, rfl⟩ : ∃ more, fuel = more + 1 := ⟨fuel - 1, by rw [childrenFuel] at enough; omega⟩
    rw [itemsText, nil_append, closing]
    exact (Reads.always (parseChildren_end ops fuel type suffix)).congr (by simp [KeptAll])
  | child :: rest =>
    rw [childrenFuel] at enough
    obtain ⟨fuel, rfl⟩ : ∃ more, fuel = more + 2 := ⟨fuel - 2, by omega⟩
    have ⟨named, shapedChild, shapedRest⟩ := shaped
    have unnamed : decide (type = .array) = true → child.name = [] :=
      fun array => named.mpr (of_decide_eq_true array)
    have positive : 1 ≤ childrenFuel rest := one_le_childrenFuel rest
    -- What follows the child is the end of the list or a comma and the others.
    obtain ⟨next, between, ends, others⟩ : ∃ next,
        itemsText ops (indentOf levels) (type = .array) (44 :: blanks) last (child :: rest) ++ tail =
          elemText ops (indentOf levels) (type = .array) child ++ next ∧ (Ends next ∧ next ≠ []) ∧
        Reads (parseChildren ops (fuel + 1) type.closing (autoskip next)) rest (autoskip suffix)
          (KeptAll levels rest) := by
      rw [itemsText]
      by_cases alone : rest = []
      · subst alone
        refine ⟨last ++ tail, by rw [if_pos rfl, append_assoc], ⟨?_, ?_⟩, ?_⟩
        · rw [Ends, autoskip_append blank', closing, curptr_cons]
          cases type <;> decide
        · rintro none
          rw [(append_eq_nil_iff.mp none).2] at closing
          contradiction
        · rw [autoskip_append blank', closing]
          exact (Reads.always (parseChildren_end ops fuel type suffix)).congr (by simp [KeptAll])
      · refine ⟨44 :: (blanks ++ (itemsText ops (indentOf levels) (type = .array) (44 :: blanks) last rest ++
          tail)), by simp [alone], ⟨?_, cons_ne_nil _ _⟩, ?_⟩
        · rw [Ends, curptr_visible (by decide)]
          decide
        · rw [autoskip_of_not_isBlank (by decide), parseChildren_comma, autoskip_append blank]
          exact children_reads few rest shapedRest blank blank' closing (by omega)
    rw [between]
    have first := elem_reads few child shapedChild unnamed (by omega : _ ≤ fuel + 1) ends.1
    exact (Reads.cons ops (elemText_start ops few shapedChild unnamed next) first
      others).congr (by simp [KeptAll, ends.2])

end


mutual

theorem elemFuel_le {elem : Elem F} (shaped : Shaped elem) (indent : Nat) (noName : Bool) :
    elemFuel elem + 2 ≤ 4 * (elemText ops indent noName elem).length := by
  match elem with
  | .null name =>
    simp only [elemFuel, elemText, nullText, length_append, length_cons, length_nil]
    omega
  | .bool name truth =>
    cases truth <;> simp only [elemFuel, elemText, trueText, falseText, length_append,
      if_true, if_false, Bool.false_eq_true, length_cons, length_nil] <;> omega
  | .number name num => exact shaped.elim
  | .string name value =>
    simp only [elemFuel, elemText, length_append, length_cons, length_nil]
    omega
  | .list type name children =>
    have shapedAll : ShapedAll type children := shaped
    have items := childrenFuel_le shapedAll
    have inside : childrenFuel children ≤ 4 * (insideText ops indent type children).length + 1 := by
      rw [insideText]
      split
      · next none => simp [none, childrenFuel]
      · split
        · exact items _ _ _ _
        · have few := items (nextIndent indent) (type = .array) [44, 10] [10]
          simp only [length_cons, length_append]
          omega
    rw [elemFuel, elemText_list]
    simp only [length_cons, length_append]
    omega

theorem childrenFuel_le {type : ListType} {children : List (Elem F)}
    (shaped : ShapedAll type children) (indent : Nat) (noName : Bool) (between last : Str) :
    childrenFuel children ≤ 4 * (itemsText ops indent noName between last children).length + 1 := by
  match children with
  | [] => simp [childrenFuel]
  | child :: rest =>
    have first := elemFuel_le shaped.2.1 indent noName
    have others := childrenFuel_le shaped.2.2 indent noName between last
    rw [childrenFuel, itemsText, length_append]
    by_cases alone : rest = []
    · subst alone
      rw [if_pos rfl, childrenFuel]
      omega
    · rw [if_neg alone, length_append]
      omega

end

/-- A tree that is written is read back exactly if it is kept and is no `null` or `true` that the
text ends with. -/
theorem json_round_trip_iff {elem : Elem F} (shaped : Shaped elem) {size : Nat} {text : Str}
    (written : pjJsonWrite ops elem size = some text) :
    pjJsonParse ops text = some elem ↔ Kept 0 elem ∧ ¬ShortWord elem := by
  obtain rfl : text = elemText ops 0 false elem := by
    rcases pjJsonWrite_eq ops (shaped.printed ops) size with same | ⟨full, _⟩
    · exact some.inj (written.symm.trans same)
    · rw [full] at written
      contradiction
  have enough := elemFuel_le ops shaped 0 false
  have positive := two_le_elemFuel elem
  have nonempty : elemText ops 0 false elem ≠ [] := by
    intro none
    rw [none, length_nil] at enough
    omega
  have ends : Ends [] := by
    rw [Ends]
    decide
  have unnamed : false = true → elem.name = [] := nofun
  have read := elem_reads ops (Nat.zero_le 33) elem shaped unnamed
    (by omega : _ ≤ 4 * (elemText ops 0 false elem).length + 4) ends
  rw [pjJsonParse, if_neg nonempty, map_eq_some_iff]
  rw [append_nil] at read
  constructor
  · rintro ⟨⟨made, rest⟩, parsed, rfl⟩
    by_contra lost
    exact read.2 (fun kept => lost ⟨kept.1, fun word => kept.2 word rfl⟩) made rest parsed rfl
  · rintro ⟨kept, long⟩
    exact ⟨_, read.1 ⟨kept, fun word => absurd word long⟩, rfl⟩

/-- A text without numbers. -/
def noFloats : FloatOps Unit := ⟨fun _ => (), id, fun _ => none⟩

set_option maxRecDepth 4000 in
/-- An object with the string `" /"` and a list of `"a b"` and `null`, under the names `k` and
`l`. -/
theorem json_round_trip_iff_members :
    let elem : Elem Unit := .list .obj [] [.string [107] [32, 47],
      .list .array [108] [.string [] [97, 32, 98], .null []]]
    ∃ text, pjJsonWrite noFloats elem 100 = some text ∧ pjJsonParse noFloats text = some elem := by
  intro elem
  have shaped : Shaped elem := by simp [elem, Shaped, ShapedAll, Elem.name]
  have key : Plain [107] ∧ Plain [108] := ⟨⟨by decide, by decide⟩, by decide, by decide⟩
  have inside : Plain [97, 32, 98] := ⟨by decide, by decide⟩
  have kept : Kept 0 elem ∧ ¬ShortWord elem := by
    simp [elem, Kept, KeptAll, ShortWord, Plain.nil, inside, key]
  have room : (elemText noFloats 0 false elem).length + 1 < 100 := by decide
  rcases pjJsonWrite_eq noFloats (shaped.printed noFloats) 100 with written | ⟨_, full⟩
  · exact ⟨_, written, (json_round_trip_iff noFloats shaped written).mpr kept⟩
  · omega

/-- A tree that is written and is not read back. -/
def Lost (elem : Elem Unit) : Prop :=
  Shaped elem ∧ ∃ text, pjJsonWrite noFloats elem 100 = some text ∧
    pjJsonParse noFloats text ≠ some elem

set_option maxRecDepth 4000 in
/-- A slash in a string without a name or in a name, a blank at the start of one, an empty string
in a list and a word that is the whole text are lost. -/
theorem json_round_trip_fails :
    Lost (.list .array [] [.string [] [47]]) ∧ Lost (.list .obj [] [.null [47]]) ∧
      Lost (.list .array [] [.string [] [32, 97]]) ∧ Lost (.list .array [] [.string [] []]) ∧
      Lost (.bool [] true) := by
  have lost : ∀ {elem : Elem Unit} (read : Option (Elem Unit)), Shaped elem →
      (elemText noFloats 0 false elem).length + 1 < 100 →
        pjJsonParse noFloats (elemText noFloats 0 false elem) = read → read ≠ some elem →
          Lost elem := by
    rintro elem read shaped room rfl other
    rcases pjJsonWrite_eq noFloats (shaped.printed noFloats) 100 with written | ⟨_, full⟩
    · exact ⟨shaped, _, written, other⟩
    · omega
  refine ⟨?_, ?_, ?_, ?_, ?_⟩
  · exact lost (some (.list .array [] [.string [] [92, 47]]))
      (by simp [Shaped, ShapedAll, Elem.name]) (by decide) rfl (by simp)
  · exact lost (some (.list .obj [] [.null [92, 47]]))
      (by simp [Shaped, ShapedAll, Elem.name]) (by decide) rfl (by simp)
  · exact lost (some (.list .array [] [.string [] [97]]))
      (by simp [Shaped, ShapedAll, Elem.name]) (by decide) rfl (by simp)
  · exact lost none (by simp [Shaped, ShapedAll, Elem.name]) (by decide) rfl nofun
  · exact lost none trivial (by decide) rfl nofun

end Pj.Json
