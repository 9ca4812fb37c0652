import Pjproject.Pjlib.Str

/-!
# The text scanner

`pj_scanner` over a NUL-terminated buffer: the scanner is the bytes from `curptr` to `end`, the
byte at `end` reads as NUL. A function that calls the syntax error callback has no result: the
callback of the SDP parser throws. Of the options only `PJ_SCAN_AUTOSKIP_WS` occurs. Line and
column, kept for error messages, are left out.
-/

namespace Pj

/-- `pj_scanner`. -/
structure Scanner where
  /-- The bytes from `curptr` to `end`. -/
  rest : Str
  /-- `skip_ws`: whether white space is skipped after a token. -/
  skipWs : Bool

/-- The byte `offset` places after `curptr`. -/
def Scanner.peek (scanner : Scanner) (offset : Nat) : UInt8 := scanner.rest.getD offset 0

/-- `PJ_SCAN_IS_SPACE`. -/
def isSpace (byte : UInt8) : Bool := byte = 32 || byte = 9

/-- `pj_scan_skip_whitespace`. -/
def pjScanSkipWhitespace (scanner : Scanner) : Scanner :=
  { scanner with rest := scanner.rest.dropWhile isSpace }

/-- The end of most functions: white space is skipped if the option is set. -/
def Scanner.autoskip (scanner : Scanner) : Scanner :=
  if scanner.peek 0 ≤ 32 ∧ scanner.skipWs then pjScanSkipWhitespace scanner else scanner

/-- `pj_scan_init`. -/
def pjScanInit (buf : Str) (skipWs : Bool) : Scanner :=
  let scanner : Scanner := { rest := buf, skipWs := skipWs }
  if skipWs then pjScanSkipWhitespace scanner else scanner

/-- `pj_scan_is_eof`. -/
def pjScanIsEof (scanner : Scanner) : Bool := scanner.rest.isEmpty

/-- `pj_scan_get`: the bytes of a character specification, at least one. -/
def pjScanGet (spec : UInt8 → Bool) (scanner : Scanner) : Option (Str × Scanner) :=
  if spec (scanner.peek 0) then
    some (scanner.rest.takeWhile spec,
      { scanner with rest := scanner.rest.dropWhile spec }.autoskip)
  else none

/-- `pj_scan_get_until_ch`. -/
def pjScanGetUntilCh (untilChar : UInt8) (scanner : Scanner) : Option (Str × Scanner) :=
  if scanner.rest = [] then none
  else
    some (scanner.rest.takeWhile (· ≠ untilChar),
      { scanner with rest := scanner.rest.dropWhile (· ≠ untilChar) }.autoskip)

/-- `pj_scan_get_until_chr`. -/
def pjScanGetUntilChr (untilSpec : Str) (scanner : Scanner) : Option (Str × Scanner) :=
  if scanner.rest = [] then none
  else
    some (scanner.rest.takeWhile (· ∉ untilSpec),
      { scanner with rest := scanner.rest.dropWhile (· ∉ untilSpec) }.autoskip)

/-- `pj_scan_get_char`. -/
def pjScanGetChar (scanner : Scanner) : Option (UInt8 × Scanner) :=
  if scanner.peek 0 = 0 then none
  else some (scanner.peek 0, { scanner with rest := scanner.rest.tail }.autoskip)

/-- `pj_scan_advance_n` without skipping. -/
def pjScanAdvanceN (count : Nat) (scanner : Scanner) : Option Scanner :=
  if scanner.rest.length < count then none
  else some { scanner with rest := scanner.rest.drop count }

/-- `pj_scan_skip_line`; `strchr` stops at a NUL, and the scanner then goes to the end. -/
def pjScanSkipLine (scanner : Scanner) : Scanner :=
  { scanner with
    rest := match scanner.rest.dropWhile fun byte => byte ≠ 10 && byte ≠ 0 with
      | 10 :: after => after
      | _ => [] }

/-- `pj_scan_get_newline`. -/
def pjScanGetNewline (scanner : Scanner) : Option Scanner :=
  if scanner.peek 0 ≠ 13 ∧ scanner.peek 0 ≠ 10 then none
  else
    let afterCr := if scanner.peek 0 = 13 then scanner.rest.tail else scanner.rest
    let afterLf := if afterCr.getD 0 0 = 10 then afterCr.tail else afterCr
    some { scanner with rest := afterLf }

/-! ## Reading without skipping

Each function on a buffer that begins with what it reads and the byte it stops at. -/

@[simp] theorem Scanner.peek_zero (byte : UInt8) (rest : Str) (skipWs : Bool) :
    ({ rest := byte :: rest, skipWs := skipWs } : Scanner).peek 0 = byte := rfl

@[simp] theorem Scanner.peek_succ (byte : UInt8) (rest : Str) (skipWs : Bool) (offset : Nat) :
    ({ rest := byte :: rest, skipWs := skipWs } : Scanner).peek (offset + 1) =
      ({ rest := rest, skipWs := skipWs } : Scanner).peek offset := rfl

@[simp] theorem Scanner.autoskip_false (rest : Str) :
    ({ rest := rest, skipWs := false } : Scanner).autoskip = { rest := rest, skipWs := false } := by
  simp [Scanner.autoskip]

/-- The bytes before the first one that fails a test, and the rest from there. -/
theorem takeWhile_stop (spec : UInt8 → Bool) {str : Str} (h : ∀ byte ∈ str, spec byte = true)
    (stop : UInt8) (hstop : spec stop = false) (rest : Str) :
    (str ++ stop :: rest).takeWhile spec = str ∧
      (str ++ stop :: rest).dropWhile spec = stop :: rest := by
  rw [List.takeWhile_append_of_pos h, List.dropWhile_append_of_pos h]
  simp [hstop]

theorem pjScanGet_spec {spec : UInt8 → Bool} {str : Str} (nonempty : str ≠ [])
    (h : ∀ byte ∈ str, spec byte = true) (stop : UInt8) (hstop : spec stop = false) (rest : Str) :
    pjScanGet spec { rest := str ++ stop :: rest, skipWs := false } =
      some (str, { rest := stop :: rest, skipWs := false }) := by
  have ⟨take, drop⟩ := takeWhile_stop spec h stop hstop rest
  obtain ⟨first, later, rfl⟩ := List.exists_cons_of_ne_nil nonempty
  have matched : spec first = true := h first (by simp)
  rw [pjScanGet, List.cons_append, Scanner.peek_zero, if_pos matched, ← List.cons_append]
  simp only [take, drop, Scanner.autoskip_false]

theorem pjScanGetUntilCh_spec {untilChar : UInt8} {str : Str} (h : untilChar ∉ str) (rest : Str) :
    pjScanGetUntilCh untilChar { rest := str ++ untilChar :: rest, skipWs := false } =
      some (str, { rest := untilChar :: rest, skipWs := false }) := by
  have ⟨take, drop⟩ := takeWhile_stop (· ≠ untilChar)
    (fun byte (member : byte ∈ str) => by simpa using ne_of_mem_of_not_mem member h) untilChar
    (by simp) rest
  simp only [pjScanGetUntilCh]
  rw [if_neg (by simp), take, drop, Scanner.autoskip_false]

theorem pjScanGetUntilChr_spec {untilSpec str : Str} (h : ∀ byte ∈ str, byte ∉ untilSpec)
    (stop : UInt8) (hstop : stop ∈ untilSpec) (rest : Str) :
    pjScanGetUntilChr untilSpec { rest := str ++ stop :: rest, skipWs := false } =
      some (str, { rest := stop :: rest, skipWs := false }) := by
  have ⟨take, drop⟩ := takeWhile_stop (· ∉ untilSpec)
    (fun byte (member : byte ∈ str) => by simpa using h byte member) stop
    (by simpa using hstop) rest
  simp only [pjScanGetUntilChr]
  rw [if_neg (by simp), take, drop, Scanner.autoskip_false]

theorem pjScanGetChar_spec (byte : UInt8) (h : byte ≠ 0) (rest : Str) :
    pjScanGetChar { rest := byte :: rest, skipWs := false } =
      some (byte, { rest := rest, skipWs := false }) := by
  simp [pjScanGetChar, h]

theorem pjScanAdvanceN_two (first second : UInt8) (rest : Str) (skipWs : Bool) :
    pjScanAdvanceN 2 { rest := first :: second :: rest, skipWs := skipWs } =
      some { rest := rest, skipWs := skipWs } := by
  simp [pjScanAdvanceN]

/-- The rest of a line is skipped with its end. -/
theorem pjScanSkipLine_spec (str : Str) (h : ∀ byte ∈ str, byte ≠ 10 ∧ byte ≠ 0) (rest : Str)
    (skipWs : Bool) :
    pjScanSkipLine { rest := str ++ 10 :: rest, skipWs := skipWs } =
      { rest := rest, skipWs := skipWs } := by
  have ⟨_, drop⟩ := takeWhile_stop (fun byte => byte ≠ 10 && byte ≠ 0)
    (fun byte (member : byte ∈ str) => by simpa using h byte member) 10 (by decide) rest
  simp only [pjScanSkipLine, drop]

theorem pjScanSkipLine_crlf (rest : Str) (skipWs : Bool) :
    pjScanSkipLine { rest := 13 :: 10 :: rest, skipWs := skipWs } =
      { rest := rest, skipWs := skipWs } :=
  pjScanSkipLine_spec [13] (by simp) rest skipWs

theorem pjScanGetNewline_crlf (rest : Str) (skipWs : Bool) :
    pjScanGetNewline { rest := 13 :: 10 :: rest, skipWs := skipWs } =
      some { rest := rest, skipWs := skipWs } := by
  simp [pjScanGetNewline]

end Pj
