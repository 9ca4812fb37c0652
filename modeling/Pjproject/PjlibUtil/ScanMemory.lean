import Pjproject.Lib.Traced
import Pjproject.PjlibUtil.LineScanner

/-!
# The text scanner in memory

`pj_scanner` with its pointers, addresses in a process of 32 bits, over the bytes in memory. Each
byte that is read or written is logged. A function that calls the syntax error callback has no
result: the callback throws. A read outside the buffer is logged too; C says nothing of what follows
it, and the function has no result then. Each loop counts the bytes up to the end of the buffer,
with the NUL there; when none is left, the next read is outside.
-/

namespace Pj.ScanMemory

/-- What `pj_scan_init` gets: a buffer in memory with a NUL behind it, and the options. -/
structure Buffer where
  bufstart : Nat
  buflen : Nat
  options : UInt32
  /-- The bytes in memory. -/
  bytes : Nat → UInt8
  not_null : 0 < bufstart
  /-- There is an address behind the NUL. -/
  addressable : bufstart + buflen + 1 < 2 ^ 32
  terminated : bytes (bufstart + buflen) = 0

/-- `end`: the address of the NUL. -/
abbrev Buffer.bufEnd (buf : Buffer) : Nat := buf.bufstart + buf.buflen

/-- An address of the buffer, the NUL included. -/
abbrev Buffer.Holds (buf : Buffer) (address : Nat) : Prop :=
  buf.bufstart ≤ address ∧ address ≤ buf.bufEnd

/-- The fields of `pj_scanner` that change, and the memory. `begin`, `end` and `skip_ws` are what
`pj_scan_init` got. -/
structure Scanner where
  curptr : Nat
  line : Nat
  startLine : Nat
  memory : Nat → UInt8

/-- `pj_str_t`: a part of memory. A length from 2^31 on, negative as a `pj_ssize_t`, is the number
asked for. -/
structure Token where
  ptr : Nat
  slen : Nat
deriving DecidableEq, Repr

/-- `pj_cis_t`: a set of characters. NUL is never one of them. -/
structure Cis where
  contains : UInt8 → Bool
  zero : contains 0 = false

/-- A set of characters for `pj_scan_get_unescape`, without the percent sign. -/
structure UnescapeCis extends Cis where
  percent : contains 37 = false

/-- An access to memory. -/
inductive Access where
  | read (address : Nat)
  | write (address : Nat)
deriving DecidableEq, Repr

/-- Why a function has no result. -/
inductive Fault where
  /-- The syntax error callback is called. -/
  | syntaxErr
  /-- A byte outside the buffer is read. -/
  | wild
deriving DecidableEq, Repr

abbrev Scan (α : Type) := Traced Access Fault α

/-- `PJ_SCAN_AUTOSKIP_NEWLINE`. -/
def autoskipNewline : UInt32 := 4

/-- `PJ_SCAN_AUTOSKIP_WS_HEADER`. -/
def autoskipWsHeader : UInt32 := 3

/-- The sum of a pointer and a number. -/
def advanced (address : Nat) (count : UInt32) : Nat := (address + count.toNat) % 2 ^ 32

/-- `(char)` of an `int`. -/
def toChar (value : Int) : UInt8 := UInt8.ofNat (value % 256).toNat

variable (buf : Buffer)

/-- `*s`. -/
def readByte (memory : Nat → UInt8) (s : Nat) : Scan UInt8 :=
  if buf.Holds s then .access [.read s] (memory s)
  else { result := .error .wild, log := [.read s] }

/-- `*dst = byte`. -/
def writeByte (memory : Nat → UInt8) (dst : Nat) (byte : UInt8) : Scan (Nat → UInt8) :=
  .access [.write dst] (Function.update memory dst byte)

/-- `pj_memmove(dst, start, count)`. -/
def memmove (memory : Nat → UInt8) (dst start count : Nat) : Scan (Nat → UInt8) :=
  .access
    ((List.range' start count).map .read ++ (List.range' dst count).map .write)
    fun address =>
      if dst ≤ address ∧ address < dst + count then memory (start + (address - dst))
      else memory address

/-- The loop of `advanceWhile`. -/
def advanceLoop (memory : Nat → UInt8) (checkEof : Bool) (test : UInt8 → Bool) :
    Nat → Nat → Scan Nat
  | 0, s =>
    if checkEof ∧ s = buf.bufEnd then pure s
    else do
      let _ ← readByte buf memory s
      pure s
  | left + 1, s =>
    if checkEof ∧ s = buf.bufEnd then pure s
    else do
      let byte ← readByte buf memory s
      if test byte then advanceLoop memory checkEof test left (s + 1) else pure s

/-- `while (test(*s)) ++s`, in front of the test `PJ_SCAN_CHECK_EOF(s)` in some functions. -/
def advanceWhile (memory : Nat → UInt8) (checkEof : Bool) (test : UInt8 → Bool) (s : Nat) :
    Scan Nat :=
  advanceLoop buf memory checkEof test (buf.bufEnd + 1 - s) s

/-- `if (*s == byte) ++s`. -/
def eat (memory : Nat → UInt8) (byte : UInt8) (s : Nat) : Scan Nat := do
  let here ← readByte buf memory s
  pure (if here = byte then s + 1 else s)

/-! ## White space -/

/-- The loop of `PJ_SCAN_AUTOSKIP_NEWLINE`. -/
def skipNewlines : Nat → Nat → Scanner → Scan (Nat × Scanner)
  | 0, s, scanner => do
    let _ ← readByte buf scanner.memory s
    pure (s, scanner)
  | left + 1, s, scanner => do
    let byte ← readByte buf scanner.memory s
    if byte = 13 then do
      let s ← eat buf scanner.memory 10 (s + 1)
      skipNewlines left s { scanner with line := scanner.line + 1, curptr := s, startLine := s }
    else if byte = 10 then
      skipNewlines left (s + 1)
        { scanner with line := scanner.line + 1, curptr := s + 1, startLine := s + 1 }
    else if isSpace byte then do
      let s ← advanceWhile buf scanner.memory false isSpace (s + 1)
      skipNewlines left s scanner
    else pure (s, scanner)

/-- The first part of `pj_scan_skip_whitespace` behind the spaces: ends of lines. -/
def skipLineEnds (s : Nat) (scanner : Scanner) : Scan (Nat × Scanner) := do
  let byte ← readByte buf scanner.memory s
  if LineScanner.isNewline byte ∧ buf.options &&& autoskipNewline ≠ 0 then
    skipNewlines buf (buf.bufEnd + 1 - s) s scanner
  else pure (s, scanner)

/-- The second part: a header that goes on in the next line, which begins with a space. -/
def skipContinuation (s : Nat) (scanner : Scanner) : Scan Scanner := do
  let behindCr ← eat buf scanner.memory 13 s
  let behindLf ← eat buf scanner.memory 10 behindCr
  let byte ← readByte buf scanner.memory behindLf
  if isSpace byte then do
    let t ← advanceWhile buf scanner.memory false isSpace (behindLf + 1)
    pure { scanner with line := scanner.line + 1, startLine := behindLf, curptr := t }
  else pure { scanner with startLine := behindLf, curptr := s }

/-- `pj_scan_skip_whitespace`. -/
def scanSkipWhitespace (scanner : Scanner) : Scan Scanner := do
  let s ← advanceWhile buf scanner.memory false isSpace scanner.curptr
  let (s, scanner) ← skipLineEnds buf s scanner
  let byte ← readByte buf scanner.memory s
  if LineScanner.isNewline byte ∧ buf.options &&& autoskipWsHeader = autoskipWsHeader then
    skipContinuation buf s scanner
  else pure { scanner with curptr := s }

/-- The end of most functions: white space is skipped at a `PJ_SCAN_IS_PROBABLY_SPACE`. -/
def autoskip (skipWs : Bool) (scanner : Scanner) : Scan Scanner := do
  let byte ← readByte buf scanner.memory scanner.curptr
  if byte ≤ 32 ∧ skipWs then scanSkipWhitespace buf scanner else pure scanner

/-- `pj_scan_init`. -/
def scanInit : Scan Scanner :=
  let scanner : Scanner :=
    { curptr := buf.bufstart, line := 1, startLine := buf.bufstart, memory := buf.bytes }
  if buf.options ≠ 0 then scanSkipWhitespace buf scanner else pure scanner

/-- `pj_scan_skip_line`; `strchr` stops at a NUL, and the scanner then goes to the end. -/
def scanSkipLine (scanner : Scanner) : Scan Scanner := do
  let s ← advanceWhile buf scanner.memory false (fun byte => byte ≠ 10 && byte ≠ 0) scanner.curptr
  let byte ← readByte buf scanner.memory s
  pure (if byte = 10 then
      { scanner with curptr := s + 1, startLine := s + 1, line := scanner.line + 1 }
    else { scanner with curptr := buf.bufEnd })

/-! ## Tokens -/

/-- `pj_strset3(out, scanner->curptr, s)`. -/
def Scanner.upTo (scanner : Scanner) (s : Nat) : Token :=
  { ptr := scanner.curptr, slen := s - scanner.curptr }

/-- A token up to `s`, where the scanner goes on. -/
def tokenUpTo (s : Nat) (scanner : Scanner) : Scan (Token × Scanner) := do
  let next ← autoskip buf (buf.options ≠ 0) { scanner with curptr := s }
  pure (scanner.upTo s, next)

/-- `pj_scan_peek`. -/
def scanPeek (spec : Cis) (scanner : Scanner) : Scan (UInt8 × Token) :=
  if scanner.curptr ≥ buf.bufEnd then .throw .syntaxErr
  else do
    let s ← advanceWhile buf scanner.memory false spec.contains scanner.curptr
    let byte ← readByte buf scanner.memory s
    pure (byte, scanner.upTo s)

/-- `pj_scan_peek_n`. -/
def scanPeekN (len : UInt32) (scanner : Scanner) : Scan (UInt8 × Token) :=
  let endpos := advanced scanner.curptr len
  if endpos > buf.bufEnd then .throw .syntaxErr
  else do
    let byte ← readByte buf scanner.memory endpos
    pure (byte, { ptr := scanner.curptr, slen := len.toNat })

/-- `pj_scan_peek_until`. -/
def scanPeekUntil (spec : Cis) (scanner : Scanner) : Scan (UInt8 × Token) :=
  if scanner.curptr ≥ buf.bufEnd then .throw .syntaxErr
  else do
    let s ← advanceWhile buf scanner.memory true (fun byte => !spec.contains byte) scanner.curptr
    let byte ← readByte buf scanner.memory s
    pure (byte, scanner.upTo s)

/-- `pj_scan_get`. -/
def scanGet (spec : Cis) (scanner : Scanner) : Scan (Token × Scanner) := do
  let byte ← readByte buf scanner.memory scanner.curptr
  if spec.contains byte then do
    let s ← advanceWhile buf scanner.memory false spec.contains (scanner.curptr + 1)
    tokenUpTo buf s scanner
  else .throw .syntaxErr

/-- The functions that get what is in front of a byte. -/
def getUntil (stop : UInt8 → Bool) (scanner : Scanner) : Scan (Token × Scanner) :=
  if scanner.curptr ≥ buf.bufEnd then .throw .syntaxErr
  else do
    let s ← advanceWhile buf scanner.memory true (fun byte => !stop byte) scanner.curptr
    tokenUpTo buf s scanner

/-- `pj_scan_get_until`. -/
def scanGetUntil (spec : Cis) : Scanner → Scan (Token × Scanner) := getUntil buf spec.contains

/-- `pj_scan_get_until_ch`; a `char` of the target is unsigned. -/
def scanGetUntilCh (untilChar : Int) : Scanner → Scan (Token × Scanner) :=
  getUntil buf fun byte => (byte.toNat : Int) = untilChar

/-- `pj_scan_get_until_chr`; the `strlen` of the characters is where the first NUL is. -/
def scanGetUntilChr (untilSpec : Str) : Scanner → Scan (Token × Scanner) :=
  getUntil buf fun byte => byte ∈ untilSpec.takeWhile (· ≠ 0)

/-- `pj_scan_get_n`. -/
def scanGetN (n : UInt32) (scanner : Scanner) : Scan (Token × Scanner) :=
  if advanced scanner.curptr n > buf.bufEnd then .throw .syntaxErr
  else do
    let next ← autoskip buf (buf.options ≠ 0) { scanner with curptr := advanced scanner.curptr n }
    pure ({ ptr := scanner.curptr, slen := n.toNat }, next)

/-- `pj_scan_get_char`. -/
def scanGetChar (scanner : Scanner) : Scan (UInt8 × Scanner) := do
  let chr ← readByte buf scanner.memory scanner.curptr
  if chr = 0 then .throw .syntaxErr
  else do
    let next ← autoskip buf (buf.options ≠ 0) { scanner with curptr := scanner.curptr + 1 }
    pure (chr, next)

/-- `pj_scan_get_newline`. -/
def scanGetNewline (scanner : Scanner) : Scan Scanner := do
  let byte ← readByte buf scanner.memory scanner.curptr
  if LineScanner.isNewline byte then do
    let behindCr ← eat buf scanner.memory 13 scanner.curptr
    let behindLf ← eat buf scanner.memory 10 behindCr
    pure { scanner with curptr := behindLf, line := scanner.line + 1, startLine := behindLf }
  else .throw .syntaxErr

/-- `pj_scan_advance_n`. -/
def scanAdvanceN (n : UInt32) (skipWs : Bool) (scanner : Scanner) : Scan Scanner :=
  if advanced scanner.curptr n > buf.bufEnd then .throw .syntaxErr
  else autoskip buf skipWs { scanner with curptr := advanced scanner.curptr n }

/-- `strncmp`, and with the characters in lower case `strncasecmp`: what follows a NUL is not
compared. -/
def strncmp (fold : UInt8 → UInt8) (memory : Nat → UInt8) : Nat → Nat → Str → Scan Int
  | 0, _, _ => pure 0
  | count + 1, s, str => do
    let byte ← readByte buf memory s
    let other := str.getD 0 0
    if fold byte ≠ fold other then pure ((fold byte).toNat - (fold other).toNat)
    else if byte = 0 then pure 0
    else strncmp fold memory count (s + 1) str.tail

/-- `tolower`. -/
def toLower (byte : UInt8) : UInt8 := if 65 ≤ byte ∧ byte ≤ 90 then byte + 32 else byte

/-- The functions that compare. `len` is the `int` as the `size_t` that the comparison gets. -/
def compare (fold : UInt8 → UInt8) (str : Str) (len : UInt32) (scanner : Scanner) : Scan Int :=
  if advanced scanner.curptr len > buf.bufEnd then .throw .syntaxErr
  else strncmp buf fold scanner.memory len.toNat scanner.curptr str

/-- `pj_scan_strcmp`. -/
def scanStrcmp (str : Str) (len : UInt32) : Scanner → Scan Int := compare buf id str len

/-- `pj_scan_stricmp`. -/
def scanStricmp (str : Str) (len : UInt32) : Scanner → Scan Int := compare buf toLower str len

/-- `pj_scan_stricmp_alnum`, the same without `PJ_HAS_STRICMP_ALNUM`. -/
def scanStricmpAlnum (str : Str) (len : UInt32) : Scanner → Scan Int := compare buf toLower str len

/-! ## Escapes -/

/-- `pj_isxdigit`. -/
def isxdigit (byte : UInt8) : Bool :=
  48 ≤ byte && byte ≤ 57 || 65 ≤ byte && byte ≤ 70 || 97 ≤ byte && byte ≤ 102

/-- `pj_hex_digit_to_val`. -/
def hexDigitToVal (c : UInt8) : UInt8 :=
  if c ≤ 57 then (c - 48) &&& 15
  else if c ≤ 70 then (c - 65 + 10) &&& 15
  else (c - 97 + 10) &&& 15

/-- Where `pj_scan_get_unescape` is: it reads at `s` and writes at `dst`. -/
structure Cursors where
  s : Nat
  dst : Nat
  memory : Nat → UInt8

/-- `s+3 <= scanner->end && pj_isxdigit(*(s+1)) && pj_isxdigit(*(s+2))`: the two digits. -/
def hexDigits (memory : Nat → UInt8) (s : Nat) : Scan (Option (UInt8 × UInt8)) :=
  if advanced s 3 ≤ buf.bufEnd then do
    let first ← readByte buf memory (s + 1)
    if isxdigit first then do
      let second ← readByte buf memory (s + 2)
      pure (if isxdigit second then some (first, second) else none)
    else pure none
  else pure none

/-- `if (dst != start) pj_memmove(dst, start, s-start)`. -/
def moveSpan (memory : Nat → UInt8) (dst start s : Nat) : Scan (Nat → UInt8) :=
  if dst ≠ start then memmove memory dst start (s - start) else pure memory

/-- The bytes of the character set, moved to `dst`. -/
def copySpan (spec : Cis) (cursors : Cursors) : Scan Cursors := do
  let t ← advanceWhile buf cursors.memory false spec.contains cursors.s
  let memory ← moveSpan cursors.memory cursors.dst cursors.s t
  pure { s := t, dst := cursors.dst + (t - cursors.s), memory := memory }

/-- `*dst++ = *s++`, twice. -/
def copyTwo (cursors : Cursors) : Scan Cursors := do
  let first ← readByte buf cursors.memory cursors.s
  let memory ← writeByte cursors.memory cursors.dst first
  let second ← readByte buf memory (cursors.s + 1)
  let memory ← writeByte memory (cursors.dst + 1) second
  pure { s := cursors.s + 2, dst := cursors.dst + 2, memory := memory }

/-- The second half of a round, and whether another escape comes. -/
def endRound (spec : Cis) (cursors : Cursors) : Scan (Cursors × Bool) := do
  let behind ← copySpan buf spec cursors
  let byte ← readByte buf behind.memory behind.s
  pure (behind, byte = 37)

/-- A round of the loop of `pj_scan_get_unescape`, and whether there is another one. A percent sign
without two digits is kept with the byte behind it, and ends the loop. -/
def unescapeRound (spec : Cis) (cursors : Cursors) : Scan (Cursors × Bool) := do
  let byte ← readByte buf cursors.memory cursors.s
  if byte = 37 then do
    let digits ← hexDigits buf cursors.memory cursors.s
    match digits with
    | none => do
      let behind ← copyTwo buf cursors
      pure (behind, false)
    | some (first, second) => do
      let memory ← writeByte cursors.memory cursors.dst
        ((hexDigitToVal first <<< 4) + hexDigitToVal second)
      endRound buf spec { s := cursors.s + 3, dst := cursors.dst + 1, memory := memory }
  else endRound buf spec cursors

/-- The loop of `pj_scan_get_unescape`. -/
def unescapeLoop (spec : Cis) : Nat → Cursors → Scan Cursors
  | 0, cursors => do
    let _ ← readByte buf cursors.memory cursors.s
    pure cursors
  | left + 1, cursors => do
    let (behind, more) ← unescapeRound buf spec cursors
    if more then unescapeLoop spec left behind else pure behind

/-- `pj_scan_get_unescape`. -/
def scanGetUnescape (spec : UnescapeCis) (scanner : Scanner) : Scan (Token × Scanner) := do
  let byte ← readByte buf scanner.memory scanner.curptr
  if spec.contains byte ∨ byte = 37 then do
    let behind ← unescapeLoop buf spec.toCis (buf.bufEnd + 1 - scanner.curptr)
      { s := scanner.curptr, dst := scanner.curptr, memory := scanner.memory }
    let next ← autoskip buf (buf.options ≠ 0)
      { scanner with curptr := behind.s, memory := behind.memory }
    pure ({ ptr := scanner.curptr, slen := behind.dst - scanner.curptr }, next)
  else .throw .syntaxErr

/-! ## Quotes -/

/-- `while (r != scanner->begin && *r == '\\\\') --r`. -/
def backslashLoop (memory : Nat → UInt8) : Nat → Nat → Scan Nat
  | 0, r =>
    if r = buf.bufstart then pure r
    else do
      let _ ← readByte buf memory r
      pure r
  | left + 1, r =>
    if r = buf.bufstart then pure r
    else do
      let byte ← readByte buf memory r
      if byte = 92 then backslashLoop memory left (r - 1) else pure r

/-- The end quote at `s` counts: no backslash is before it, or `q - r` of them are before that one,
an odd number. -/
def endsQuote (memory : Nat → UInt8) (s : Nat) : Scan Bool := do
  let before ← readByte buf memory (s - 1)
  if before = 92 then do
    let q := s - 2
    let r ← backslashLoop buf memory (q - buf.bufstart) q
    pure ((q - r) % 2 = 1)
  else pure true

/-- The loop of `pj_scan_get_quotes`: where the end quote is, or what it stops at instead. -/
def quoteLoop (memory : Nat → UInt8) (endQuote : UInt8) : Nat → Nat → Scan Nat
  | 0, s => do
    let _ ← readByte buf memory s
    pure s
  | left + 1, s => do
    let s ← advanceWhile buf memory true (fun byte => byte ≠ 10 && byte ≠ endQuote) s
    let byte ← readByte buf memory s
    if byte = endQuote then do
      let ends ← endsQuote buf memory s
      if ends then pure s else quoteLoop memory endQuote left (s + 1)
    else pure s

/-- `pj_scan_get_quotes`; the begin quotes and the end quotes in pairs. -/
def scanGetQuotes (quotes : List (UInt8 × UInt8)) (scanner : Scanner) : Scan (Token × Scanner) := do
  let byte ← readByte buf scanner.memory scanner.curptr
  match quotes.find? fun quote => quote.1 = byte with
  | none => .throw .syntaxErr
  | some (_, endQuote) => do
    let s ← quoteLoop buf scanner.memory endQuote (buf.bufEnd - scanner.curptr) (scanner.curptr + 1)
    let byte ← readByte buf scanner.memory s
    if byte = endQuote then tokenUpTo buf (s + 1) scanner else .throw .syntaxErr

/-- `pj_scan_get_quote`. -/
def scanGetQuote (beginQuote endQuote : Int) : Scanner → Scan (Token × Scanner) :=
  scanGetQuotes buf [(toChar beginQuote, toChar endQuote)]

/-! ## Sessions -/

/-- `pj_scan_state`. -/
structure ScanState where
  curptr : Nat
  line : Nat
  startLine : Nat

/-- A scanner and the states that its user saved, under numbers. -/
structure Session where
  scanner : Scanner
  saved : Nat → Option ScanState

/-- A call of a function of the scanner. -/
inductive Op where
  | skipWhitespace
  | skipLine
  | peek (spec : Cis)
  | peekN (len : UInt32)
  | peekUntil (spec : Cis)
  | get (spec : Cis)
  | getUnescape (spec : UnescapeCis)
  | getQuote (beginQuote endQuote : Int)
  | getQuotes (quotes : List (UInt8 × UInt8))
  | getN (n : UInt32)
  | getChar
  | getNewline
  | getUntil (spec : Cis)
  | getUntilCh (untilChar : Int)
  | getUntilChr (untilSpec : Str)
  | advanceN (n : UInt32) (skipWs : Bool)
  | strcmp (str : Str) (len : UInt32)
  | stricmp (str : Str) (len : UInt32)
  | stricmpAlnum (str : Str) (len : UInt32)
  | saveState (slot : Nat)
  | restoreState (slot : Nat)

/-- `pj_scan_save_state`. -/
def scanSaveState (scanner : Scanner) : ScanState :=
  { curptr := scanner.curptr, line := scanner.line, startLine := scanner.startLine }

/-- `pj_scan_restore_state`. -/
def scanRestoreState (scanner : Scanner) (state : ScanState) : Scanner :=
  { scanner with curptr := state.curptr, line := state.line, startLine := state.startLine }

namespace Session

variable (session : Session)

/-- A function that moves the scanner. -/
def move (made : Scan Scanner) : Scan (Option Token × Session) := do
  let scanner ← made
  pure (none, { session with scanner := scanner })

/-- A function that returns a token and moves the scanner. -/
def token (made : Scan (Token × Scanner)) : Scan (Option Token × Session) := do
  let out ← made
  pure (some out.1, { session with scanner := out.2 })

/-- A function that returns a token and leaves the scanner where it is. -/
def look (made : Scan (UInt8 × Token)) : Scan (Option Token × Session) := do
  let out ← made
  pure (some out.2, session)

/-- A function that compares. -/
def compared (made : Scan Int) : Scan (Option Token × Session) := do
  let _ ← made
  pure (none, session)

end Session

/-- A call: the token that it returns, if any. A state that was not saved is not restored. -/
def Op.run (session : Session) : Op → Scan (Option Token × Session)
  | skipWhitespace => session.move (scanSkipWhitespace buf session.scanner)
  | skipLine => session.move (scanSkipLine buf session.scanner)
  | peek spec => session.look (scanPeek buf spec session.scanner)
  | peekN len => session.look (scanPeekN buf len session.scanner)
  | peekUntil spec => session.look (scanPeekUntil buf spec session.scanner)
  | get spec => session.token (scanGet buf spec session.scanner)
  | getUnescape spec => session.token (scanGetUnescape buf spec session.scanner)
  | getQuote beginQuote endQuote =>
    session.token (scanGetQuote buf beginQuote endQuote session.scanner)
  | getQuotes quotes => session.token (scanGetQuotes buf quotes session.scanner)
  | getN n => session.token (scanGetN buf n session.scanner)
  | getChar => session.move (scanGetChar buf session.scanner >>= fun out => pure out.2)
  | getNewline => session.move (scanGetNewline buf session.scanner)
  | getUntil spec => session.token (scanGetUntil buf spec session.scanner)
  | getUntilCh untilChar => session.token (scanGetUntilCh buf untilChar session.scanner)
  | getUntilChr untilSpec => session.token (scanGetUntilChr buf untilSpec session.scanner)
  | advanceN n skipWs => session.move (scanAdvanceN buf n skipWs session.scanner)
  | strcmp str len => session.compared (scanStrcmp buf str len session.scanner)
  | stricmp str len => session.compared (scanStricmp buf str len session.scanner)
  | stricmpAlnum str len => session.compared (scanStricmpAlnum buf str len session.scanner)
  | saveState slot =>
    pure (none, { session with
      saved := Function.update session.saved slot (some (scanSaveState session.scanner)) })
  | restoreState slot =>
    pure (none, { session with
      scanner := (session.saved slot).elim session.scanner (scanRestoreState session.scanner) })

/-- The scanner is initialised. -/
def start : Scan (Option Token × Session) := do
  let scanner ← scanInit buf
  pure (none, { scanner := scanner, saved := fun _ => none })

/-- The next call. None comes after one that has no result. -/
def step (outcome : Scan (Option Token × Session)) (op : Op) : Scan (Option Token × Session) :=
  match outcome.result with
  | .error _ => outcome
  | .ok (_, session) => op.run buf session

end Pj.ScanMemory
