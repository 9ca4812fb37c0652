import Pjproject.PjlibUtil.Scanner

/-!
# The text scanner over several lines

The scanner of `xml.c`, with the options `PJ_SCAN_AUTOSKIP_WS` and `PJ_SCAN_AUTOSKIP_NEWLINE`:
after a token white space is skipped with the ends of lines in it. The options do not change, so
the scanner here is the bytes from `curptr` to `end`. A token is read as by the scanner that does
not skip.
-/

namespace Pj.LineScanner
open List

/-- `PJ_SCAN_IS_NEWLINE`. -/
def isNewline (byte : UInt8) : Bool := byte = 13 || byte = 10

/-- What is skipped once a line ends in the white space. -/
def isBlank (byte : UInt8) : Bool := isSpace byte || isNewline byte

/-- `pj_scan_skip_whitespace`. -/
def scanSkipWhitespace (rest : Str) : Str :=
  let rest := rest.dropWhile isSpace
  if isNewline (rest.getD 0 0) then rest.dropWhile isBlank else rest

/-- The end of most functions. -/
def autoskip (rest : Str) : Str :=
  if rest.getD 0 0 ≤ 32 then scanSkipWhitespace rest else rest

/-- A function of the scanner that skips after what it reads. -/
def token {α : Type} (read : Scanner → Option (α × Scanner)) (rest : Str) : Option (α × Str) := do
  let (out, scanner) ← read { rest := rest, skipWs := false }
  return (out, autoskip scanner.rest)

/-- `pj_scan_get_until_ch`. -/
def scanGetUntilCh (untilChar : UInt8) : Str → Option (Str × Str) :=
  token (pjScanGetUntilCh untilChar)

/-- `pj_scan_get_until_chr`. -/
def scanGetUntilChr (untilSpec : Str) : Str → Option (Str × Str) :=
  token (pjScanGetUntilChr untilSpec)

/-- `pj_scan_get_char`. -/
def scanGetChar : Str → Option (UInt8 × Str) := token pjScanGetChar

/-- `pj_scan_advance_n`. -/
def scanAdvanceN (count : Nat) (skipWs : Bool) (rest : Str) : Option Str := do
  let scanner ← pjScanAdvanceN count { rest := rest, skipWs := false }
  return if skipWs then autoskip scanner.rest else scanner.rest

/-- `pj_scan_strcmp` returns zero. The strings of the callers have no NUL, at which `strncmp`
would stop. -/
def scanStrcmp (str : Str) (rest : Str) : Option Bool :=
  if rest.length < str.length then none else some (rest.take str.length = str)

/-- The end quote does not count: a backslash is before it, and before that one an even number
of them. `seen` is what is between the quotes, the last byte first. -/
def isEscaped (seen : Str) : Bool :=
  seen.getD 0 0 = 92 && (seen.tail.takeWhile (· = 92)).length % 2 = 0

/-- The loop of `pj_scan_get_quotes`: what is between the quotes and what is after them. -/
def quoted (endQuote : UInt8) (seen : Str) : Str → Option (Str × Str)
  | [] => none
  | byte :: rest =>
    if byte = endQuote then
      if isEscaped seen then quoted endQuote (byte :: seen) rest else some (seen.reverse, rest)
    else if byte = 10 then none
    else quoted endQuote (byte :: seen) rest

/-- `pj_scan_get_quotes` with the same quotes at both ends. -/
def scanGetQuotes (quotes : Str) (rest : Str) : Option (Str × Str) := do
  let quote := rest.getD 0 0
  guard (quote ∈ quotes)
  let (inside, rest) ← quoted quote [] rest.tail
  return (quote :: inside ++ [quote], autoskip rest)

/-! ## Skipping -/

variable {byte : UInt8}

/-- Both loops together skip every blank. -/
theorem scanSkipWhitespace_eq (rest : Str) : scanSkipWhitespace rest = rest.dropWhile isBlank := by
  induction rest with
  | nil => rfl
  | cons byte rest ih =>
    by_cases space : isSpace byte = true
    · have blank : isBlank byte = true := by simp [isBlank, space]
      rw [dropWhile_cons_of_pos blank, ← ih]
      simp [scanSkipWhitespace, space]
    · by_cases newline : isNewline byte = true
      · simp [scanSkipWhitespace, space, newline]
      · simp [scanSkipWhitespace, isBlank, space, newline]

/-- A byte that may be skipped is at most a space. -/
theorem isBlank_le (h : isBlank byte = true) : byte ≤ 32 := by
  simp only [isBlank, isSpace, isNewline, Bool.or_eq_true, decide_eq_true_eq] at h
  rcases h with (rfl | rfl) | rfl | rfl <;> decide

theorem autoskip_eq (rest : Str) : autoskip rest = rest.dropWhile isBlank := by
  rw [autoskip, scanSkipWhitespace_eq]
  split
  · rfl
  · rename_i visible
    cases rest with
    | nil => rfl
    | cons byte rest =>
      rw [dropWhile_cons_of_neg]
      exact fun blank => visible (isBlank_le blank)

/-- Nothing is skipped before a byte that is not blank. -/
theorem autoskip_of_not_isBlank (h : isBlank byte = false) (rest : Str) :
    autoskip (byte :: rest) = byte :: rest := by
  rw [autoskip_eq, dropWhile_cons_of_neg (by simp [h])]

theorem autoskip_of_isBlank (h : isBlank byte = true) (rest : Str) :
    autoskip (byte :: rest) = autoskip rest := by
  rw [autoskip_eq, autoskip_eq, dropWhile_cons_of_pos h]

/-- Blanks are skipped. -/
theorem autoskip_append {blanks : Str} (h : ∀ byte ∈ blanks, isBlank byte = true) (rest : Str) :
    autoskip (blanks ++ rest) = autoskip rest := by
  rw [autoskip_eq, autoskip_eq, dropWhile_append_of_pos h]

/-! ## Reading

Each function on bytes that begin with what it reads and the byte it stops at. -/

variable {str : Str}

theorem scanGetUntilCh_spec {untilChar : UInt8} (h : untilChar ∉ str) (rest : Str) :
    scanGetUntilCh untilChar (str ++ untilChar :: rest) =
      some (str, autoskip (untilChar :: rest)) := by
  rw [scanGetUntilCh, token, pjScanGetUntilCh_spec h]
  rfl

theorem scanGetUntilChr_spec {untilSpec : Str} (h : ∀ byte ∈ str, byte ∉ untilSpec) (stop : UInt8)
    (hstop : stop ∈ untilSpec) (rest : Str) :
    scanGetUntilChr untilSpec (str ++ stop :: rest) = some (str, autoskip (stop :: rest)) := by
  rw [scanGetUntilChr, token, pjScanGetUntilChr_spec h stop hstop]
  rfl

theorem scanGetChar_spec (byte : UInt8) (h : byte ≠ 0) (rest : Str) :
    scanGetChar (byte :: rest) = some (byte, autoskip rest) := by
  rw [scanGetChar, token, pjScanGetChar_spec byte h]
  rfl

theorem scanAdvanceN_two (first second : UInt8) (rest : Str) (skipWs : Bool) :
    scanAdvanceN 2 skipWs (first :: second :: rest) =
      some (if skipWs then autoskip rest else rest) := by
  rfl

/-- A text that ends in an even number of backslashes leaves the quote after it alone. -/
def EvenBackslashes (str : Str) : Prop := (str.reverse.takeWhile (· = 92)).length % 2 = 0

instance (str : Str) : Decidable (EvenBackslashes str) := Nat.decEq _ _

theorem isEscaped_of_even (h : EvenBackslashes str) :
    isEscaped str.reverse = false := by
  rw [EvenBackslashes] at h
  cases last : str.reverse with
  | nil => rfl
  | cons byte before =>
    rw [last] at h
    by_cases backslash : byte = 92
    · rw [takeWhile_cons_of_pos (by simpa using backslash), length_cons] at h
      have odd : ¬ (before.takeWhile (· = 92)).length % 2 = 0 := by omega
      simp [isEscaped, odd]
    · simp [isEscaped, backslash]

theorem quoted_spec {endQuote : UInt8} (seen : Str) (quotes : endQuote ∉ str)
    (newlines : (10 : UInt8) ∉ str) (even : EvenBackslashes (seen.reverse ++ str)) (rest : Str) :
    quoted endQuote seen (str ++ endQuote :: rest) = some (seen.reverse ++ str, rest) := by
  induction str generalizing seen with
  | nil =>
    rw [append_nil] at even
    have plain := isEscaped_of_even even
    rw [reverse_reverse] at plain
    simp [quoted, plain]
  | cons byte str ih =>
    have other : byte ≠ endQuote := fun same => quotes (by simp [same])
    have sameLine : byte ≠ 10 := fun same => newlines (by simp [same])
    rw [cons_append, quoted, if_neg other, if_neg sameLine,
      ih (byte :: seen) (not_mem_of_not_mem_cons quotes)
        (not_mem_of_not_mem_cons newlines) (by simpa using even)]
    simp

/-- A string in quotes, without such a quote, without a line end and without a backslash before
its last quote. -/
theorem scanGetQuotes_spec {quotes : Str} {quote : UInt8} (member : quote ∈ quotes)
    (inside : quote ∉ str) (newlines : (10 : UInt8) ∉ str) (even : EvenBackslashes str)
    (rest : Str) :
    scanGetQuotes quotes (quote :: str ++ quote :: rest) =
      some (quote :: str ++ [quote], autoskip rest) := by
  have read := quoted_spec [] inside newlines (by simpa using even) rest
  simp only [scanGetQuotes, cons_append, getD_cons_zero, tail_cons]
  rw [read, guard, if_pos member]
  rfl

end Pj.LineScanner
