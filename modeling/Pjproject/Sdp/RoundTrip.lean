import Mathlib.Data.List.TakeWhile
import Pjproject.Sdp.Parse
import Pjproject.Sdp.Print

/-!
# Parsing a printed session description

A description is printable if its strings have no line ends and none of the bytes at which
their parser stops, its numbers and counts are in range, and it has no direction attribute in
the session. Each line parser reads its line back, and the loop reads the lines one by one.
-/

namespace Pjmedia.Sdp
open List Pj

/-- The string has no CR, LF or NUL. -/
def Plain (str : Str) : Prop := ∀ byte ∈ str, byte ≠ 13 ∧ byte ≠ 10 ∧ byte ≠ 0

instance (str : Str) : Decidable (Plain str) := List.decidableBAll _ str

/-- The string is not empty, plain and free of the delimiters. -/
structure Field (delims str : Str) : Prop where
  nonempty : str ≠ []
  plain : Plain str
  free : ∀ byte ∈ str, byte ∉ delims

instance (delims str : Str) : Decidable (Field delims str) :=
  haveI := List.decidableBAll (· ∉ delims) str
  decidable_of_iff (str ≠ [] ∧ Plain str ∧ ∀ byte ∈ str, byte ∉ delims)
    ⟨fun ⟨nonempty, plain, free⟩ => ⟨nonempty, plain, free⟩, fun h => ⟨h.nonempty, h.plain, h.free⟩⟩

/-- The string is a token. -/
structure Token (str : Str) : Prop where
  nonempty : str ≠ []
  chars : ∀ byte ∈ str, csToken byte = true

instance (str : Str) : Decidable (Token str) :=
  haveI := List.decidableBAll (csToken · = true) str
  decidable_of_iff (str ≠ [] ∧ ∀ byte ∈ str, csToken byte = true)
    ⟨fun ⟨nonempty, chars⟩ => ⟨nonempty, chars⟩, fun h => ⟨h.nonempty, h.chars⟩⟩

/-- The origin can be read back. -/
structure SdpOrigin.Printable (origin : SdpOrigin) : Prop where
  user : Field [32] origin.user
  id : origin.id < 2 ^ 32
  version : origin.version < 2 ^ 32
  netType : Field [32] origin.netType
  addrType : Field [32] origin.addrType
  addr : Field [32, 9] origin.addr

/-- The connection info can be read back. -/
structure SdpConn.Printable (c : SdpConn) : Prop where
  netType : Field [32] c.netType
  addrType : Field [32] c.addrType
  addr : Field [47, 32, 9] c.addr

/-- The bandwidth info can be read back. -/
structure SdpBandw.Printable (bandw : SdpBandw) : Prop where
  plain : Plain bandw.modifier
  value : bandw.value < 2 ^ 32

/-- No bandwidth modifier has a colon, at which the parser ends it. -/
def ColonFree (bandws : List SdpBandw) : Prop := ∀ bandw ∈ bandws, 58 ∉ bandw.modifier

instance (bandws : List SdpBandw) : Decidable (ColonFree bandws) := List.decidableBAll _ bandws

/-- The attribute can be read back. -/
structure SdpAttr.Printable (attr : SdpAttr) : Prop where
  name : Token attr.name
  value : Plain attr.value

/-- The media description can be read back. -/
structure SdpMedia.Printable (m : SdpMedia) : Prop where
  media : Field [32] m.media
  port : m.port < 2 ^ 16
  portCount : m.portCount < 2 ^ 32 ∧ m.portCount ≠ 1
  transport : Field [32, 9] m.transport
  fmt : ∀ fmt ∈ m.fmt, Token fmt
  fmtCount : m.fmt.length ≤ maxSdpFmt
  conn : ∀ c ∈ m.conn, c.Printable
  bandw : ∀ bandw ∈ m.bandw, bandw.Printable
  bandwCount : m.bandw.length ≤ maxSdpBandw
  attr : ∀ attr ∈ m.attr, attr.Printable
  attrCount : m.attr.length ≤ maxSdpAttr

/-- The session description can be read back. -/
structure SdpSession.Printable (ses : SdpSession) : Prop where
  origin : ses.origin.Printable
  name : Plain ses.name
  conn : ∀ c ∈ ses.conn, c.Printable
  bandw : ∀ bandw ∈ ses.bandw, bandw.Printable
  bandwCount : ses.bandw.length ≤ maxSdpBandw
  start : ses.start < 2 ^ 32
  stop : ses.stop < 2 ^ 32
  attr : ∀ attr ∈ ses.attr, attr.Printable
  /-- No direction attribute in the session, which would move to the media. -/
  direction : ∀ attr ∈ ses.attr, isDirection attr = false
  attrCount : ses.attr.length ≤ maxSdpAttr
  media : ∀ m ∈ ses.media, m.Printable
  mediaCount : ses.media.length ≤ maxSdpMedia

/-! ## Fields -/

section
variable {delims str : Str} (h : Field delims str)
include h

theorem Field.notMem {byte : UInt8} (delim : byte ∈ delims) : byte ∉ str :=
  fun member => h.free byte member delim

/-- A field ends at a delimiter or at the end of the line. -/
theorem Field.notMem_line : ∀ byte ∈ str, byte ∉ delims ++ [13, 10] := by
  intro byte member delim
  rcases mem_append.mp delim with delim | lineEnd
  · exact h.free byte member delim
  · have ⟨cr, lf, _⟩ := h.plain byte member
    simp [cr, lf] at lineEnd

theorem Field.cText : cText str = str := by
  rw [Sdp.cText, takeWhile_eq_self_iff]
  intro byte member
  simpa using (h.plain byte member).2.2

end

/-- A printed number has no byte that is not a digit. -/
theorem pjUtoa_notMem {byte : UInt8} (h : pjIsdigit byte = false) (val : Nat) :
    byte ∉ pjUtoa val := by
  intro member
  rw [pjUtoa_isdigit member] at h
  contradiction

/-- A printed number ends at a delimiter of the line. -/
theorem pjUtoa_lineDelims (val : Nat) : ∀ byte ∈ pjUtoa val, byte ∉ lineDelims := by
  intro byte member delim
  have digit := pjUtoa_isdigit member
  have digits : ∀ delim ∈ lineDelims, pjIsdigit delim = false := by simp [lineDelims, pjIsdigit]
  rw [digits byte delim] at digit
  contradiction

theorem pjUtoa_token (val : Nat) : ∀ byte ∈ pjUtoa val, csToken byte = true := by
  intro byte member
  simp [csToken, pjUtoa_isdigit member]

/-! ## Lines -/

variable {m : SdpMedia} {origin : SdpOrigin}

theorem parseOrigin_line (h : origin.Printable) (rest : Str) :
    parseOrigin { rest := originLine origin ++ rest, skipWs := false } =
      some (origin, { rest := rest, skipWs := false }) := by
  have bytes : originLine origin ++ rest =
      111 :: 61 :: (origin.user ++ 32 :: (pjUtoa origin.id ++ 32 :: (pjUtoa origin.version ++
        32 :: (origin.netType ++ 32 :: (origin.addrType ++ 32 :: (origin.addr ++
          13 :: 10 :: rest)))))) := by
    simp only [originLine, ofChars, crlf, List.map, append_assoc, cons_append,
      nil_append]
    rfl
  have number : ∀ val, (32 : UInt8) ∉ pjUtoa val := pjUtoa_notMem (by decide)
  have addr : ∀ byte ∈ origin.addr, byte ∉ lineDelims := h.addr.notMem_line
  simp only [bytes, parseOrigin, hasEqual, Scanner.peek_zero, Scanner.peek_succ, decide_true,
    guard_true, Option.pure_def, Option.bind_eq_bind, Option.bind_some, pjScanAdvanceN_two,
    pjScanGetUntilCh_spec (h.user.notMem (mem_singleton_self 32)),
    pjScanGetUntilCh_spec (h.netType.notMem (mem_singleton_self 32)),
    pjScanGetUntilCh_spec (h.addrType.notMem (mem_singleton_self 32)),
    pjScanGetUntilCh_spec (number _), pjScanGetUntilChr_spec addr 13 (by decide),
    pjScanGetChar_spec 32 (by decide), pjScanSkipLine_crlf, pjStrtoul_pjUtoa h.id,
    pjStrtoul_pjUtoa h.version, Nat.mod_eq_of_lt h.id, Nat.mod_eq_of_lt h.version]

theorem parseTime_line {start stop : Nat} (hstart : start < 2 ^ 32) (hstop : stop < 2 ^ 32)
    (rest : Str) :
    parseTime { rest := timeLine start stop ++ rest, skipWs := false } =
      some ((start, stop), { rest := rest, skipWs := false }) := by
  have bytes : timeLine start stop ++ rest =
      116 :: 61 :: (pjUtoa start ++ 32 :: (pjUtoa stop ++ 13 :: 10 :: rest)) := by
    simp only [timeLine, ofChars, crlf, List.map, append_assoc, cons_append,
      nil_append]
    rfl
  have number : (32 : UInt8) ∉ pjUtoa start := pjUtoa_notMem (by decide) start
  simp only [bytes, parseTime, hasEqual, Scanner.peek_zero, Scanner.peek_succ, decide_true,
    guard_true, Option.pure_def, Option.bind_eq_bind, Option.bind_some, pjScanAdvanceN_two,
    pjScanGetUntilCh_spec number,
    pjScanGetUntilChr_spec (pjUtoa_lineDelims stop) 13 (by decide),
    pjScanGetChar_spec 32 (by decide), pjScanSkipLine_crlf, pjStrtoul_pjUtoa hstart,
    pjStrtoul_pjUtoa hstop, Nat.mod_eq_of_lt hstart, Nat.mod_eq_of_lt hstop]

theorem parseGenericLine_line {name : Str} (h : Plain name) (rest : Str) :
    parseGenericLine { rest := nameLine name ++ rest, skipWs := false } =
      some (name, { rest := rest, skipWs := false }) := by
  have bytes : nameLine name ++ rest = 115 :: 61 :: (name ++ 13 :: 10 :: rest) := by
    simp only [nameLine, ofChars, crlf, List.map, append_assoc, cons_append,
      nil_append]
    rfl
  have line : ∀ byte ∈ name, byte ∉ ([13, 10] : Str) := by
    intro byte member
    have ⟨cr, lf, _⟩ := h byte member
    simp [cr, lf]
  simp [bytes, parseGenericLine, hasEqual, Scanner.peek_zero, Scanner.peek_succ, guard_true,
    pjScanAdvanceN_two, pjScanGetUntilChr_spec line 13 (by decide), pjScanGetNewline_crlf]

theorem parseConnectionInfo_line {c : SdpConn} (h : c.Printable) (rest : Str) :
    parseConnectionInfo { rest := connLine c ++ rest, skipWs := false } =
      some (c, { rest := rest, skipWs := false }) := by
  have bytes : connLine c ++ rest =
      99 :: 61 :: (c.netType ++ 32 :: (c.addrType ++ 32 :: (c.addr ++ 13 :: 10 :: rest))) := by
    simp only [connLine, h.netType.cText, h.addrType.cText, h.addr.cText, ofChars, crlf, List.map,
      append_assoc, cons_append, nil_append]
    rfl
  have addr : ∀ byte ∈ c.addr, byte ∉ 47 :: lineDelims := h.addr.notMem_line
  simp [bytes, parseConnectionInfo, pjScanAdvanceN_two,
    pjScanGetUntilCh_spec (h.netType.notMem (mem_singleton_self 32)),
    pjScanGetUntilCh_spec (h.addrType.notMem (mem_singleton_self 32)),
    pjScanGetUntilChr_spec addr 13 (by decide), pjScanGetChar_spec 32 (by decide),
    pjScanSkipLine_crlf]

theorem parseBandwidthInfo_line {bandw : SdpBandw} (h : bandw.Printable)
    (free : 58 ∉ bandw.modifier) (rest : Str) :
    parseBandwidthInfo { rest := bandwLine bandw ++ rest, skipWs := false } =
      some (bandw, { rest := rest, skipWs := false }) := by
  have bytes : bandwLine bandw ++ rest =
      98 :: 61 :: (bandw.modifier ++ 58 :: (pjUtoa bandw.value ++ 13 :: 10 :: rest)) := by
    simp only [bandwLine, ofChars, crlf, List.map, append_assoc, cons_append,
      nil_append]
    rfl
  simp only [bytes, parseBandwidthInfo, Option.pure_def, Option.bind_eq_bind, Option.bind_some,
    pjScanAdvanceN_two, pjScanGetUntilCh_spec free,
    pjScanGetUntilChr_spec (pjUtoa_lineDelims bandw.value) 13 (by decide),
    pjScanGetChar_spec 58 (by decide), pjScanSkipLine_crlf, pjStrtoul_pjUtoa h.value,
    Nat.mod_eq_of_lt h.value]

theorem parseAttr_line {attr : SdpAttr} (h : attr.Printable) (rest : Str) :
    parseAttr { rest := attrLine attr ++ rest, skipWs := false } =
      some (attr, { rest := rest, skipWs := false }) := by
  have line : ∀ byte ∈ attr.value, byte ∉ ([13, 10] : Str) := by
    intro byte member
    have ⟨cr, lf, _⟩ := h.value byte member
    simp [cr, lf]
  by_cases empty : attr.value = []
  · have bytes : attrLine attr ++ rest = 97 :: 61 :: (attr.name ++ 13 :: 10 :: rest) := by
      simp only [attrLine, empty, if_true, ofChars, crlf, List.map, append_assoc,
        cons_append, nil_append]
      rfl
    have value : parseAttrValue { rest := 13 :: 10 :: rest, skipWs := false } =
        some ([], { rest := 13 :: 10 :: rest, skipWs := false }) := rfl
    simp [bytes, parseAttr, hasEqual, Scanner.peek_zero, Scanner.peek_succ, guard_true,
      pjScanAdvanceN_two, pjScanGet_spec h.name.nonempty h.name.chars 13 (by decide), value,
      pjScanSkipLine_crlf, ← empty]
  · have bytes : attrLine attr ++ rest =
        97 :: 61 :: (attr.name ++ 58 :: (attr.value ++ 13 :: 10 :: rest)) := by
      simp only [attrLine, if_neg empty, ofChars, crlf, List.map, append_assoc,
        cons_append, nil_append]
      rfl
    have value :
        parseAttrValue { rest := 58 :: (attr.value ++ 13 :: 10 :: rest), skipWs := false } =
          some (attr.value, { rest := 13 :: 10 :: rest, skipWs := false }) := by
      obtain ⟨first, later, cons⟩ := exists_cons_of_ne_nil empty
      have ⟨cr, lf, _⟩ := h.value first (by simp [cons])
      have read := pjScanGetUntilChr_spec line 13 (by decide) (10 :: rest)
      rw [cons, cons_append] at read ⊢
      simp [parseAttrValue, pjScanGetChar_spec, cr, lf, read]
    simp [bytes, parseAttr, hasEqual, Scanner.peek_zero, Scanner.peek_succ, guard_true,
      pjScanAdvanceN_two, pjScanGet_spec h.name.nonempty h.name.chars 58 (by decide), value,
      pjScanSkipLine_crlf]

/-- The text of a format list, with the line end. -/
def formatText (fmt : List Str) (rest : Str) : Str :=
  fmt.flatMap (fun fmt => ofChars [' '] ++ fmt) ++ 13 :: 10 :: rest

/-- What follows a format is no part of a token. -/
theorem formatText_stop (fmt : List Str) (rest : Str) :
    ∃ stop later, formatText fmt rest = stop :: later ∧ csToken stop = false ∧
      stop ∈ lineDelims := by
  cases fmt with
  | nil => exact ⟨13, 10 :: rest, rfl, by decide, by decide⟩
  | cons first fmt =>
    refine ⟨32, first ++ formatText fmt rest, ?_, by decide, by decide⟩
    simp only [formatText, flatMap_cons, ofChars, List.map, append_assoc,
      cons_append, nil_append]
    rfl

/-- Every format takes a byte at least. -/
theorem formatText_length (fmt : List Str) (rest : Str) :
    fmt.length ≤ (formatText fmt rest).length := by
  induction fmt with
  | nil => exact Nat.zero_le _
  | cons first fmt ih =>
    simp only [formatText, flatMap_cons, append_assoc, length_append,
      length_cons, ofChars, length_map] at ih ⊢
    omega

theorem parseFormats_line {fuel : Nat} {fmt done : List Str} (h : ∀ each ∈ fmt, Token each)
    (count : done.length + fmt.length ≤ maxSdpFmt) (enough : fmt.length ≤ fuel) (rest : Str) :
    parseFormats fuel done { rest := formatText fmt rest, skipWs := false } =
      some (done ++ fmt, { rest := 13 :: 10 :: rest, skipWs := false }) := by
  induction fmt generalizing fuel done with
  | nil =>
    have bytes : formatText [] rest = 13 :: 10 :: rest := rfl
    cases fuel <;> simp [parseFormats, bytes]
  | cons first fmt ih =>
    obtain ⟨fuel, rfl⟩ := Nat.exists_eq_succ_of_ne_zero (show fuel ≠ 0 by simp at enough; omega)
    have ⟨stop, later, htext, hstop, _⟩ := formatText_stop fmt rest
    have token : Token first := h first (by simp)
    have bytes : formatText (first :: fmt) rest = 32 :: (first ++ stop :: later) := by
      rw [← htext]
      simp only [formatText, flatMap_cons, ofChars, List.map, append_assoc,
        cons_append, nil_append]
      rfl
    have ⟨byte, bytes', hfirst⟩ := exists_cons_of_ne_nil token.nonempty
    have inLine : byte ≠ 13 ∧ byte ≠ 10 := by
      have char := token.chars byte (by simp [hfirst])
      constructor
      · rintro rfl
        revert char
        decide
      · rintro rfl
        revert char
        decide
    have read := pjScanGet_spec token.nonempty token.chars stop hstop later
    have room : done.length < maxSdpFmt := by
      simp at count
      omega
    have next := ih (fun other member => h other (by simp [member]))
      (show (done ++ [first]).length + fmt.length ≤ maxSdpFmt by simp at count ⊢; omega)
      (by simp at enough; omega)
    rw [htext] at next
    rw [hfirst] at read
    rw [bytes, hfirst]
    simp only [cons_append] at read ⊢
    simp [parseFormats, pjScanGetChar_spec, inLine, read, room, ← hfirst, next]

theorem parsePortCount_line {portCount : Nat} (range : portCount < 2 ^ 32) (notOne : portCount ≠ 1)
    (rest : Str) :
    parsePortCount
        { rest := (if 1 < portCount then ofChars ['/'] ++ pjUtoa portCount else []) ++ 32 :: rest
          skipWs := false } =
      some (portCount, { rest := 32 :: rest, skipWs := false }) := by
  by_cases many : 1 < portCount
  · have bytes : (if 1 < portCount then ofChars ['/'] ++ pjUtoa portCount else []) ++ 32 :: rest =
        47 :: (pjUtoa portCount ++ 32 :: rest) := by
      rw [if_pos many]
      rfl
    have read := pjScanGet_spec (pjUtoa_ne_nil portCount) (pjUtoa_token portCount) 32
      (by decide) rest
    simp only [bytes, parsePortCount, Scanner.peek_zero, if_true, Option.bind_eq_bind,
      pjScanGetChar_spec 47 (by decide), Option.bind_some, read, pjStrtoul_pjUtoa range,
      Nat.mod_eq_of_lt range, Option.pure_def]
  · have zero : portCount = 0 := by omega
    simp [zero, parsePortCount]

/-- The media line gives a description without connection, bandwidth and attributes. -/
theorem parseMedia_line (h : m.Printable) (rest : Str) :
    parseMedia { rest := mediaLine m ++ rest, skipWs := false } =
      some ({ m with conn := none, bandw := [], attr := [] },
        { rest := rest, skipWs := false }) := by
  have ⟨stop, later, htext, _, hstop⟩ := formatText_stop m.fmt rest
  have bytes : mediaLine m ++ rest = 109 :: 61 :: (m.media ++ 32 :: (pjUtoa m.port ++
      ((if 1 < m.portCount then ofChars ['/'] ++ pjUtoa m.portCount else []) ++
        32 :: (m.transport ++ stop :: later)))) := by
    rw [← htext]
    simp only [mediaLine, formatText, crlf, append_assoc, cons_append, nil_append]
    rfl
  obtain ⟨stop', later', hcount, hstop'⟩ : ∃ stop' later',
      (if 1 < m.portCount then ofChars ['/'] ++ pjUtoa m.portCount else []) ++
        32 :: (m.transport ++ stop :: later) = stop' :: later' ∧ csToken stop' = false := by
    split
    · exact ⟨47, _, rfl, by decide⟩
    · exact ⟨32, _, rfl, by decide⟩
  have transport : ∀ byte ∈ m.transport, byte ∉ lineDelims := h.transport.notMem_line
  have count := parsePortCount_line h.portCount.1 h.portCount.2 (m.transport ++ stop :: later)
  have formats := parseFormats_line h.fmt (show ([] : List Str).length + m.fmt.length ≤ maxSdpFmt by
    simpa using h.fmtCount) (show _ ≤ (stop :: later).length by
    rw [← htext]; exact formatText_length m.fmt rest) rest
  rw [htext] at formats
  rw [hcount] at count bytes
  simp only [bytes, parseMedia, hasEqual, Scanner.peek_zero, Scanner.peek_succ, decide_true,
    guard_true, Option.pure_def, Option.bind_eq_bind, Option.bind_some, pjScanAdvanceN_two,
    pjScanGetUntilCh_spec (h.media.notMem (mem_singleton_self 32)),
    pjScanGet_spec (pjUtoa_ne_nil m.port) (pjUtoa_token m.port) stop' hstop', count,
    pjScanGetUntilChr_spec transport stop hstop, pjScanGetChar_spec 32 (by decide), formats,
    pjScanSkipLine_crlf, pjStrtoul_pjUtoa (show m.port < 2 ^ 32 by have := h.port; omega),
    Nat.mod_eq_of_lt h.port, SdpMedia.zero, nil_append]

/-! ## The loop -/

variable {state state' : ParseState}

/-- The loop of the parser reads the text in no more rounds than it has bytes, and is then in
the second state. -/
def Reads (text : Str) (state state' : ParseState) : Prop :=
  ∃ rounds ≤ text.length, ∀ fuel rest,
    parseLines (fuel + rounds) state { rest := text ++ rest, skipWs := false } =
      parseLines fuel state' { rest := rest, skipWs := false }

theorem Reads.nil (state : ParseState) : Reads [] state state :=
  ⟨0, Nat.zero_le _, fun _ _ => rfl⟩

theorem Reads.append {first second : Str} {state'' : ParseState} (h : Reads first state state')
    (h' : Reads second state' state'') :
    Reads (first ++ second) state state'' := by
  have ⟨rounds, few, read⟩ := h
  have ⟨rounds', few', read'⟩ := h'
  refine ⟨rounds' + rounds, by rw [length_append]; omega, fun fuel rest => ?_⟩
  rw [← Nat.add_assoc, append_assoc, read, read']

/-- One line is one round. -/
theorem Reads.line {text : Str} (nonempty : text ≠ [])
    (h : ∀ rest, parseLine state { rest := text ++ rest, skipWs := false } =
      .ok (state', { rest := rest, skipWs := false })) :
    Reads text state state' := by
  refine ⟨1, length_pos_of_ne_nil nonempty, fun fuel rest => ?_⟩
  obtain ⟨first, later, rfl⟩ := exists_cons_of_ne_nil nonempty
  rw [parseLines, h rest]
  rfl

/-- The lines of a list of elements are read by a fold. -/
theorem Reads.flatMap {α : Type} {text : α → Str} {next : ParseState → α → ParseState}
    {elements : List α} (each : ∀ element ∈ elements, ∀ state,
      Reads (text element) state (next state element)) (state : ParseState) :
    Reads (elements.flatMap text) state (elements.foldl next state) := by
  induction elements generalizing state with
  | nil => exact Reads.nil state
  | cons element rest ih =>
    exact (each element (by simp) state).append
      (ih (fun other member => each other (by simp [member])) _)

theorem reads_version (state : ParseState) : Reads versionLine state state := by
  refine Reads.line (by decide) fun rest => ?_
  have first : ({ rest := versionLine ++ rest, skipWs := false } : Scanner).peek 0 = 118 := rfl
  rfl

theorem reads_origin (h : origin.Printable) (state : ParseState) :
    Reads (originLine origin) state
      { state with session := { state.session with origin := origin } } := by
  refine Reads.line (cons_ne_nil _ _) fun rest => ?_
  have first : ({ rest := originLine origin ++ rest, skipWs := false } : Scanner).peek 0 = 111 :=
    rfl
  rw [parseLine, parseOrigin_line h]
  rfl

theorem reads_name {name : Str} (h : Plain name) (state : ParseState) :
    Reads (nameLine name) state 
      { state with session := { state.session with name := name } } := by
  refine Reads.line (cons_ne_nil _ _) fun rest => ?_
  have first : ({ rest := nameLine name ++ rest, skipWs := false } : Scanner).peek 0 = 115 := rfl
  rw [parseLine, parseGenericLine_line h]
  rfl

theorem reads_time {start stop : Nat} (hstart : start < 2 ^ 32)
    (hstop : stop < 2 ^ 32) (state : ParseState) :
    Reads (timeLine start stop) state 
      { state with session := { state.session with start := start, stop := stop } } := by
  refine Reads.line (cons_ne_nil _ _) fun rest => ?_
  have first : ({ rest := timeLine start stop ++ rest, skipWs := false } : Scanner).peek 0 = 116 :=
    rfl
  rw [parseLine, parseTime_line hstart hstop]
  rfl

theorem reads_conn {c : SdpConn} (h : c.Printable) (state : ParseState) :
    Reads (connLine c) state (state.onConn c) := by
  refine Reads.line (cons_ne_nil _ _) fun rest => ?_
  have first : ({ rest := connLine c ++ rest, skipWs := false } : Scanner).peek 0 = 99 := rfl
  rw [parseLine, parseConnectionInfo_line h]
  rfl

theorem reads_bandw {bandw : SdpBandw} (h : bandw.Printable) (free : 58 ∉ bandw.modifier)
    (state : ParseState) :
    Reads (bandwLine bandw) state (state.onBandw bandw) := by
  refine Reads.line (cons_ne_nil _ _) fun rest => ?_
  have first : ({ rest := bandwLine bandw ++ rest, skipWs := false } : Scanner).peek 0 = 98 := rfl
  rw [parseLine, parseBandwidthInfo_line h free]
  rfl

theorem reads_attr {attr : SdpAttr} (h : attr.Printable) (state : ParseState) :
    Reads (attrLine attr) state (state.onAttr attr) := by
  refine Reads.line (cons_ne_nil _ _) fun rest => ?_
  have first : ({ rest := attrLine attr ++ rest, skipWs := false } : Scanner).peek 0 = 97 := rfl
  rw [parseLine, parseAttr_line h]
  rfl

theorem reads_mediaLine (h : m.Printable) (state : ParseState) :
    Reads (mediaLine m) state 
      (state.onMedia { m with conn := none, bandw := [], attr := [] }) := by
  refine Reads.line (cons_ne_nil _ _) fun rest => ?_
  have first : ({ rest := mediaLine m ++ rest, skipWs := false } : Scanner).peek 0 = 109 := rfl
  rw [parseLine, parseMedia_line h]
  rfl

/-- An optional connection line. -/
theorem reads_optional {conn : Option SdpConn} (h : ∀ c ∈ conn, c.Printable) (state : ParseState) :
    Reads (conn.elim [] connLine) state (conn.elim state state.onConn) := by
  cases conn with
  | none => exact Reads.nil state
  | some c => exact reads_conn (h c rfl) state

/-! ## Session and media parts -/

/-- The state of the loop before the first media line. -/
def inSession (session : SdpSession) : ParseState := { session := session, media := .null }

/-- The state of the loop after the line of a media and before the next one. -/
def inMedia (session : SdpSession) (done : List SdpMedia) (m : SdpMedia) : ParseState :=
  { session := { session with media := done ++ [m] }, media := .element done.length }

/-- A change of the media is a change of the last one. -/
theorem updateMedia_inMedia (session : SdpSession) (done : List SdpMedia) (m : SdpMedia)
    (f : SdpMedia → SdpMedia) :
    (inMedia session done m).updateMedia f = inMedia session done (f m) := by
  have last : (done ++ [m]).modify done.length f = done ++ [f m] := by
    have split := modifyTailIdx_add (f := List.modifyHead f) 0 done [m]
    simpa [List.modify] using split
  simp only [inMedia, ParseState.updateMedia, last]

/-- Additions within the limit append. -/
theorem foldl_addAttr {attrs done : List SdpAttr}
    (count : done.length + attrs.length ≤ maxSdpAttr) :
    attrs.foldl addAttr done = done ++ attrs := by
  induction attrs generalizing done with
  | nil => simp
  | cons attr attrs ih =>
    rw [length_cons] at count
    rw [foldl_cons, addAttr, if_pos (by omega), ih (by simp; omega)]
    simp

theorem foldl_addBandw {bandws done : List SdpBandw}
    (count : done.length + bandws.length ≤ maxSdpBandw) :
    bandws.foldl addBandw done = done ++ bandws := by
  induction bandws generalizing done with
  | nil => simp
  | cons bandw bandws ih =>
    rw [length_cons] at count
    rw [foldl_cons, addBandw, if_pos (by omega), ih (by simp; omega)]
    simp

section
variable (session : SdpSession)
include session

/-- The attributes of the session. -/
theorem foldl_onAttr_inSession (attrs : List SdpAttr) :
    attrs.foldl ParseState.onAttr (inSession session) =
      inSession { session with attr := attrs.foldl addAttr session.attr } := by
  induction attrs generalizing session with
  | nil => rfl
  | cons attr attrs ih => exact ih { session with attr := addAttr session.attr attr }

theorem foldl_onBandw_inSession (bandws : List SdpBandw) :
    bandws.foldl ParseState.onBandw (inSession session) =
      inSession { session with bandw := bandws.foldl addBandw session.bandw } := by
  induction bandws generalizing session with
  | nil => rfl
  | cons bandw bandws ih => exact ih { session with bandw := addBandw session.bandw bandw }

/-- The attributes of a media. -/
theorem foldl_onAttr_inMedia (done : List SdpMedia) (m : SdpMedia) (attrs : List SdpAttr) :
    attrs.foldl ParseState.onAttr (inMedia session done m) =
      inMedia session done { m with attr := attrs.foldl addAttr m.attr } := by
  induction attrs generalizing m with
  | nil => rfl
  | cons attr attrs ih =>
    have step : (inMedia session done m).onAttr attr =
        inMedia session done { m with attr := addAttr m.attr attr } :=
      updateMedia_inMedia session done m _
    rw [foldl_cons, step, ih]
    rfl

theorem foldl_onBandw_inMedia (done : List SdpMedia) (m : SdpMedia) (bandws : List SdpBandw) :
    bandws.foldl ParseState.onBandw (inMedia session done m) =
      inMedia session done { m with bandw := bandws.foldl addBandw m.bandw } := by
  induction bandws generalizing m with
  | nil => rfl
  | cons bandw bandws ih =>
    have step : (inMedia session done m).onBandw bandw =
        inMedia session done { m with bandw := addBandw m.bandw bandw } :=
      updateMedia_inMedia session done m _
    rw [foldl_cons, step, ih]
    rfl

end

/-- The lines of a media description append it to the media read before. -/
theorem reads_media (h : m.Printable) (free : ColonFree m.bandw)
    (room : state.session.media.length < maxSdpMedia) :
    Reads (mediaText m) state (inMedia state.session state.session.media m) := by
  obtain ⟨empty, hempty⟩ : ∃ empty : SdpMedia,
    { m with conn := none, bandw := [], attr := [] } = empty := ⟨_, rfl⟩
  have line : Reads (mediaLine m) state (inMedia state.session state.session.media empty) := by
    have read := reads_mediaLine h state
    rw [ParseState.onMedia, if_pos room, hempty] at read
    exact read
  have conn : Reads (m.conn.elim [] connLine) (inMedia state.session state.session.media empty)
      (inMedia state.session state.session.media { empty with conn := m.conn }) := by
    have read := reads_optional h.conn (inMedia state.session state.session.media empty)
    cases hconn : m.conn with
    | none =>
      rw [hconn] at read
      rw [← hempty] at read ⊢
      exact read
    | some c =>
      rw [hconn] at read
      have step : (inMedia state.session state.session.media empty).onConn c =
          inMedia state.session state.session.media { empty with conn := some c } :=
        updateMedia_inMedia _ _ _ _
      rw [← step]
      exact read
  have bandw := Reads.flatMap (fun bandw member =>
      reads_bandw (h.bandw bandw member) (free bandw member))
    (inMedia state.session state.session.media { empty with conn := m.conn })
  rw [foldl_onBandw_inMedia] at bandw
  have attr := Reads.flatMap (fun attr member => reads_attr (h.attr attr member))
    (inMedia state.session state.session.media
      { empty with conn := m.conn, bandw := m.bandw.foldl addBandw empty.bandw })
  rw [foldl_onAttr_inMedia] at attr
  have whole := ((line.append conn).append bandw).append attr
  rw [foldl_addBandw (by rw [← hempty]; simpa using h.bandwCount),
    foldl_addAttr (by rw [← hempty]; simpa using h.attrCount), ← hempty] at whole
  exact whole

/-- The lines of a list of media append it to the media read before. -/
theorem reads_medias {medias : List SdpMedia} (h : ∀ m ∈ medias, m.Printable)
    (free : ∀ m ∈ medias, ColonFree m.bandw) (state : ParseState)
    (room : state.session.media.length + medias.length ≤ maxSdpMedia) :
    ∃ state', Reads (medias.flatMap mediaText) state state' ∧
      state'.session = { state.session with media := state.session.media ++ medias } := by
  induction medias generalizing state with
  | nil => exact ⟨state, Reads.nil state, by simp⟩
  | cons m medias ih =>
    rw [length_cons] at room
    have first := reads_media (h m (by simp)) (free m (by simp))
      (show state.session.media.length < maxSdpMedia by omega)
    have ⟨state', rest, session⟩ := ih (fun other member => h other (by simp [member]))
      (fun other member => free other (by simp [member]))
      (inMedia state.session state.session.media m) (by simp [inMedia]; omega)
    refine ⟨state', ?_, ?_⟩
    · exact first.append rest
    · rw [session]
      simp [inMedia]

/-- The lines of a session description leave the loop with it. -/
theorem reads_session {ses : SdpSession} (h : ses.Printable) (free : ColonFree ses.bandw)
    (mediaFree : ∀ m ∈ ses.media, ColonFree m.bandw) :
    ∃ state, Reads (sessionText ses) (inSession SdpSession.zero) state ∧ state.session = ses := by
  have version := reads_version (inSession SdpSession.zero)
  have origin := reads_origin h.origin (inSession SdpSession.zero)
  have name := reads_name h.name (inSession { SdpSession.zero with origin := ses.origin })
  have conn : Reads (ses.conn.elim [] connLine)
      (inSession { SdpSession.zero with origin := ses.origin, name := ses.name })
      (inSession { SdpSession.zero with
        origin := ses.origin, name := ses.name, conn := ses.conn }) := by
    have read := reads_optional h.conn
      (inSession { SdpSession.zero with origin := ses.origin, name := ses.name })
    cases hconn : ses.conn with
    | none =>
      rw [hconn] at read
      exact read
    | some c =>
      rw [hconn] at read
      exact read
  have bandw := Reads.flatMap (fun bandw member =>
      reads_bandw (h.bandw bandw member) (free bandw member))
    (inSession { SdpSession.zero with origin := ses.origin, name := ses.name, conn := ses.conn })
  rw [foldl_onBandw_inSession,
    foldl_addBandw (by simpa [SdpSession.zero] using h.bandwCount)] at bandw
  have time := reads_time h.start h.stop (inSession
    { SdpSession.zero with
      origin := ses.origin, name := ses.name, conn := ses.conn, bandw := ses.bandw })
  have attr := Reads.flatMap (fun attr member => reads_attr (h.attr attr member))
    (inSession { SdpSession.zero with
      origin := ses.origin, name := ses.name, conn := ses.conn, bandw := ses.bandw
      start := ses.start, stop := ses.stop })
  rw [foldl_onAttr_inSession, foldl_addAttr (by simpa [SdpSession.zero] using h.attrCount)] at attr
  have ⟨state, media, session⟩ := reads_medias h.media mediaFree
    (inSession { ses with media := [] }) (by simpa [inSession] using h.mediaCount)
  refine ⟨state, ?_, by simpa [inSession] using session⟩
  exact (((((version.append origin).append name).append conn).append bandw).append time
    |>.append attr).append media

/-- The text of a session begins with its version line. -/
theorem sessionText_first (ses : SdpSession) : ∃ later, sessionText ses = 118 :: later := by
  refine ⟨(sessionText ses).tail, ?_⟩
  rfl

/-- Without a direction attribute in the session the media stay as they are. -/
theorem applyMediaDirection_none {ses : SdpSession}
    (h : ∀ attr ∈ ses.attr, isDirection attr = false) : applyMediaDirection ses = ses := by
  have none : ses.attr.find? isDirection = none := by
    rw [find?_eq_none]
    intro attr member
    simp [h attr member]
  rw [applyMediaDirection, none]

/-- A printable session description without a colon in a bandwidth modifier is parsed back from
what it is printed as. -/
theorem pjmediaSdpParse_print {ses : SdpSession} (h : ses.Printable) (free : ColonFree ses.bandw)
    (mediaFree : ∀ m ∈ ses.media, ColonFree m.bandw) (size : Nat) {text : Str}
    (printed : pjmediaSdpPrint ses size = some text) : pjmediaSdpParse text = .ok ses := by
  obtain rfl := pjmediaSdpPrint_eq printed
  have ⟨state, ⟨rounds, few, read⟩, session⟩ := reads_session h free mediaFree
  have ⟨later, first⟩ := sessionText_first ses
  have start : ((pjScanInit (sessionText ses) false).rest.dropWhile
      fun byte => byte = 13 || byte = 10) = sessionText ses := by
    rfl
  have loop := read ((sessionText ses).length - rounds) []
  rw [append_nil, Nat.sub_add_cancel few] at loop
  have ended :
      parseLines ((sessionText ses).length - rounds) state { rest := [], skipWs := false } =
        .ok state := by
    cases (sessionText ses).length - rounds <;> rfl
  rw [ended] at loop
  rw [pjmediaSdpParse, start, show ({ session := SdpSession.zero, media := .null } : ParseState) =
    inSession SdpSession.zero from rfl, loop]
  exact congrArg Except.ok (by rw [session, applyMediaDirection_none h.direction])

/-- An origin. -/
def audioOrigin : SdpOrigin :=
  { user := ofChars ['-'], id := 7, version := 8, netType := ofChars ['I', 'N']
    addrType := ofChars ['I', 'P', '4'], addr := ofChars ['h', 'o', 's', 't'] }

theorem audioOrigin_printable : audioOrigin.Printable where
  user := by decide
  id := by decide
  version := by decide
  netType := by decide
  addrType := by decide
  addr := by decide

/-- An audio media with two formats, connection info and two attributes. -/
def audioMedia : SdpMedia :=
  { media := ofChars ['a', 'u', 'd', 'i', 'o'], port := 4000, portCount := 0
    transport := ofChars ['R', 'T', 'P', '/', 'A', 'V', 'P']
    fmt := [ofChars ['0'], ofChars ['8']]
    conn :=
      some { netType := ofChars ['I', 'N'], addrType := ofChars ['I', 'P', '4']
             addr := ofChars ['h', 'o', 's', 't'] }
    bandw := []
    attr :=
      [{ name := ofChars ['p', 't', 'i', 'm', 'e'], value := ofChars ['2', '0'] },
       { name := sendrecv, value := [] }] }

theorem audioMedia_printable : audioMedia.Printable where
  media := by decide
  port := by decide
  portCount := by decide
  transport := by decide
  fmt fmt member := by
    rcases mem_pair.mp member with rfl | rfl <;> decide
  fmtCount := by decide
  conn c member := by
    obtain rfl := Option.some.inj member
    exact ⟨by decide, by decide, by decide⟩
  bandw := nofun
  bandwCount := by decide
  attr attr member := by
    rcases mem_pair.mp member with rfl | rfl <;> exact ⟨by decide, by decide⟩
  attrCount := by decide

/-- An audio session with a bandwidth modifier. -/
def audioSession (modifier : Str) : SdpSession :=
  { origin := audioOrigin, name := ofChars ['c', 'a', 'l', 'l'], conn := none
    bandw := [{ modifier := modifier, value := 64 }], start := 0, stop := 0, attr := []
    media := [audioMedia] }

theorem audioSession_printable {modifier : Str} (plain : Plain modifier) :
    (audioSession modifier).Printable where
  origin := audioOrigin_printable
  name := show Plain (ofChars ['c', 'a', 'l', 'l']) by decide
  conn := nofun
  bandw bandw member := by
    obtain rfl := mem_singleton.mp member
    exact ⟨plain, show 64 < 2 ^ 32 by decide⟩
  bandwCount := show 1 ≤ maxSdpBandw by decide
  start := show 0 < 2 ^ 32 by decide
  stop := show 0 < 2 ^ 32 by decide
  attr := nofun
  direction := nofun
  attrCount := Nat.zero_le _
  media m member := by
    obtain rfl := mem_singleton.mp member
    exact audioMedia_printable
  mediaCount := show 1 ≤ maxSdpMedia by decide

/-- The audio session with `b=AS:64` is read back. -/
theorem pjmediaSdpParse_print_audioSession :
    pjmediaSdpParse (sessionText (audioSession (ofChars ['A', 'S']))) =
      .ok (audioSession (ofChars ['A', 'S'])) :=
  pjmediaSdpParse_print (audioSession_printable (by decide)) (by decide)
    (by decide) 1000 (by decide +kernel)

/-- A bandwidth modifier with a colon is not read back: `b=A:B:64` is the modifier `A` with the
value 0. -/
theorem pjmediaSdpParse_print_colon :
    ¬ ∀ ses : SdpSession, ses.Printable → ∀ (size : Nat) (text : Str),
      pjmediaSdpPrint ses size = some text → pjmediaSdpParse text = .ok ses := by
  intro h
  have printed : pjmediaSdpPrint (audioSession (ofChars ['A', ':', 'B'])) 1000 =
      some (sessionText (audioSession (ofChars ['A', ':', 'B']))) := by decide +kernel
  have parsed := h _ (audioSession_printable (by decide)) 1000 _ printed
  have value : ∀ ses ∈
      (pjmediaSdpParse (sessionText (audioSession (ofChars ['A', ':', 'B'])))).toOption,
        ses.bandw.map SdpBandw.value = [0] := by decide +kernel
  have same := value (audioSession (ofChars ['A', ':', 'B'])) (by rw [parsed]; rfl)
  exact absurd same (by decide)

end Pjmedia.Sdp
