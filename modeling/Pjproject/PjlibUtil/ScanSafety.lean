import Pjproject.PjlibUtil.ScanEscapes

/-!
# Sessions with the text scanner

Every call of every session reads and writes in the buffer, leaves the scanner there and returns a
token of it, up to the first call that does not fit: an escape in front of the NUL, quotes made of
NULs or backslashes, a number of bytes that wraps around the address space. A session ends at the
first syntax error.
-/

namespace Pj.ScanMemory

variable {buf : Buffer} {session : Session}

variable (buf) in
/-- The scanner and the states that were saved are in the buffer. -/
structure Session.Sound (session : Session) : Prop where
  scanner : ScanMemory.Sound buf session.scanner
  saved : ∀ slot state, session.saved slot = some state → buf.Holds state.curptr

variable (buf) in
/-- A token that is returned lies in the buffer. -/
def Returned (out : Option Token) : Prop := ∀ token, out = some token → token.Within buf

variable (buf) in
/-- What a call may do: it accesses the buffer, its token lies there, and the scanner is there
afterwards. -/
def InBounds (outcome : Scan (Option Token × Session)) : Prop :=
  outcome.Ensures (Inside buf) fun out =>
    Returned buf out.1 ∧ buf.Holds out.2.scanner.curptr

variable (buf session) in
/-- A call stays in the buffer. -/
def Op.Fits : Op → Prop
  | peekN len => session.scanner.curptr + len.toNat < 2 ^ 32
  | getN n => session.scanner.curptr + n.toNat < 2 ^ 32
  | advanceN n _ => buf.bufstart ≤ advanced session.scanner.curptr n
  | getUnescape spec =>
    danglingPercent spec.contains (text buf session.scanner.memory session.scanner.curptr) = false
  | getQuote beginQuote endQuote =>
    QuotesFit buf session.scanner [(toChar beginQuote, toChar endQuote)]
  | getQuotes quotes => QuotesFit buf session.scanner quotes
  | _ => True

variable (buf) in
/-- The next call fits. -/
def Fits (outcome : Scan (Option Token × Session)) (op : Op) : Prop :=
  ∀ out session, outcome.result = .ok (out, session) → op.Fits buf session

variable (buf) in
/-- What holds after each call that fits. -/
def Kept (outcome : Scan (Option Token × Session)) : Prop :=
  outcome.Ensures (Inside buf) fun out => Returned buf out.1 ∧ out.2.Sound buf

/-! ## One call -/

variable {made : Scan (Token × Scanner)}

theorem returned_none : Returned buf none := nofun

theorem returned_some {token : Token} (within : token.Within buf) : Returned buf (some token) := by
  rintro _ ⟨⟩
  exact within

section
variable (sound : session.Sound buf)
include sound

theorem Session.Sound.moved {scanner : Scanner} (scannerSound : ScanMemory.Sound buf scanner) :
    Session.Sound buf { session with scanner := scanner } where
  scanner := scannerSound
  saved := sound.saved

theorem kept_move {made : Scan Scanner} (ensures : made.Ensures (Inside buf) (Sound buf)) :
    Kept buf (session.move made) := by
  apply ensures.bind
  intro scanner scannerSound
  exact (Traced.gives_pure ⟨returned_none, sound.moved scannerSound⟩).ensures

theorem kept_token (ensures : made.Ensures (Inside buf) (Got buf)) :
    Kept buf (session.token made) := by
  apply ensures.bind
  intro out got
  exact (Traced.gives_pure ⟨returned_some got.1, sound.moved got.2⟩).ensures

theorem kept_look {made : Scan (UInt8 × Token)}
    (ensures : made.Ensures (Inside buf) fun out => out.2.Within buf) :
    Kept buf (session.look made) := by
  apply ensures.bind
  intro out within
  exact (Traced.gives_pure ⟨returned_some within, sound⟩).ensures

theorem kept_compared {made : Scan Int} (ensures : made.Ensures (Inside buf) fun _ => True) :
    Kept buf (session.compared made) := by
  apply ensures.bind
  intro out _
  exact (Traced.gives_pure ⟨returned_none, sound⟩).ensures

theorem kept_saveState (slot : Nat) : Kept buf ((Op.saveState slot).run buf session) := by
  apply Traced.Gives.ensures
  refine Traced.gives_pure ⟨returned_none, sound.scanner, fun other state saved => ?_⟩
  simp only [Function.update_apply] at saved
  split_ifs at saved with same
  · cases saved
    exact sound.scanner.cursor
  · exact sound.saved other state saved

theorem kept_restoreState (slot : Nat) : Kept buf ((Op.restoreState slot).run buf session) := by
  apply Traced.Gives.ensures
  refine Traced.gives_pure ⟨returned_none, sound.moved ?_⟩
  cases saved : session.saved slot with
  | none => exact sound.scanner
  | some state => exact ⟨sound.saved slot state saved, sound.scanner.terminated⟩

/-- The step lemma. -/
theorem kept_run {op : Op} (fits : op.Fits buf session) : Kept buf (op.run buf session) := by
  have scannerSound := sound.scanner
  cases op with
  | skipWhitespace => exact kept_move sound (gives_scanSkipWhitespace scannerSound).ensures
  | skipLine => exact kept_move sound (gives_scanSkipLine scannerSound).ensures
  | peek spec => exact kept_look sound (ensures_scanPeek spec scannerSound)
  | peekN len => exact kept_look sound (ensures_scanPeekN scannerSound fits)
  | peekUntil spec => exact kept_look sound (ensures_scanPeekUntil spec scannerSound)
  | get spec => exact kept_token sound (ensures_scanGet spec scannerSound)
  | getUnescape spec => exact kept_token sound (ensures_scanGetUnescape scannerSound fits)
  | getQuote beginQuote endQuote =>
    exact kept_token sound (ensures_scanGetQuotes scannerSound fits)
  | getQuotes quotes => exact kept_token sound (ensures_scanGetQuotes scannerSound fits)
  | getN n => exact kept_token sound (ensures_scanGetN scannerSound fits)
  | getChar =>
    exact kept_move sound ((Traced.ensures_map Prod.snd).mpr (ensures_scanGetChar scannerSound))
  | getNewline => exact kept_move sound (ensures_scanGetNewline scannerSound)
  | getUntil spec => exact kept_token sound (ensures_getUntil _ scannerSound)
  | getUntilCh untilChar => exact kept_token sound (ensures_getUntil _ scannerSound)
  | getUntilChr untilSpec => exact kept_token sound (ensures_getUntil _ scannerSound)
  | advanceN n skipWs => exact kept_move sound (ensures_scanAdvanceN scannerSound fits)
  | strcmp str len => exact kept_compared sound (ensures_compare str len scannerSound)
  | stricmp str len => exact kept_compared sound (ensures_compare str len scannerSound)
  | stricmpAlnum str len => exact kept_compared sound (ensures_compare str len scannerSound)
  | saveState slot => exact kept_saveState sound slot
  | restoreState slot => exact kept_restoreState sound slot

end

theorem not_inBounds_token (bad : ¬made.Ensures (Inside buf) fun out => out.1.Within buf) :
    ¬InBounds buf (session.token made) := by
  intro within
  have ensures := (Traced.ensures_map _).mp within
  exact bad ⟨ensures.1, fun out returned => (ensures.2 out returned).1 _ rfl⟩

/-- A call that does not fit leaves the buffer. -/
theorem not_inBounds_run {op : Op} (sound : session.Sound buf) (unfit : ¬op.Fits buf session) :
    ¬InBounds buf (op.run buf session) := by
  have scannerSound := sound.scanner
  cases op with
  | peekN len =>
    intro within
    have ensures := (Traced.ensures_map _).mp within
    apply not_ensures_scanPeekN scannerSound unfit
    exact ⟨ensures.1, fun out returned => (ensures.2 out returned).1 _ rfl⟩
  | getN n => exact not_inBounds_token (not_ensures_scanGetN scannerSound unfit)
  | advanceN n skipWs =>
    exact fun within => not_ensures_scanAdvanceN unfit ((Traced.ensures_map _).mp within)
  | getUnescape spec =>
    have dangling := (Bool.not_eq_false _).mp unfit
    exact not_inBounds_token (not_ensures_scanGetUnescape scannerSound dangling)
  | getQuote beginQuote endQuote =>
    exact not_inBounds_token (not_ensures_scanGetQuotes scannerSound unfit)
  | getQuotes quotes => exact not_inBounds_token (not_ensures_scanGetQuotes scannerSound unfit)
  | _ => exact absurd trivial unfit

/-! ## Sessions -/

theorem kept_start : Kept buf (start buf) := by
  have sound : Sound buf
      { curptr := buf.bufstart, line := 1, startLine := buf.bufstart, memory := buf.bytes } :=
    ⟨⟨Nat.le_refl _, Nat.le_add_right ..⟩, buf.terminated⟩
  have initialised : (scanInit buf).Gives (Inside buf) (Sound buf) := by
    rw [scanInit]
    split_ifs
    · exact gives_scanSkipWhitespace sound
    · exact Traced.gives_pure sound
  apply initialised.ensures.bind
  intro scanner scannerSound
  exact (Traced.gives_pure ⟨returned_none, scannerSound, nofun⟩).ensures

theorem kept_step {outcome : Scan (Option Token × Session)} {op : Op} (kept : Kept buf outcome)
    (fits : Fits buf outcome op) : Kept buf (step buf outcome op) := by
  rw [step]
  split
  · exact kept
  · next out session returned => exact kept_run (kept.2 _ returned).2 (fits out session returned)

theorem Kept.inBounds {outcome : Scan (Option Token × Session)} (kept : Kept buf outcome) :
    InBounds buf outcome :=
  ⟨kept.1, fun out returned => (kept.2 out returned).imp_right fun sound => sound.scanner.cursor⟩

theorem not_inBounds_step {outcome : Scan (Option Token × Session)} {op : Op}
    (kept : Kept buf outcome) (unfit : ¬Fits buf outcome op) :
    ¬InBounds buf (step buf outcome op) := by
  simp only [Fits, not_forall] at unfit
  have ⟨out, session, returned, unfit⟩ := unfit
  have sound := (kept.2 _ returned).2
  rw [step, returned]
  exact not_inBounds_run sound unfit

/-- A session stays in the buffer exactly as long as its calls fit. -/
theorem session_inBounds_iff (buf : Buffer) (ops : List Op) :
    Run.Always (step buf) (InBounds buf) (start buf) ops ↔
      Run.Meets (step buf) (Fits buf) (start buf) ops :=
  Run.always_iff (fun _ _ => kept_step) (fun _ => Kept.inBounds) (fun _ _ => not_inBounds_step)
    kept_start

/-! ## A percent sign at the end -/

/-- The text `%`. -/
def percentSign : Buffer where
  bufstart := 4096
  buflen := 1
  options := 0
  bytes address := if address = 4096 then 37 else 0
  not_null := by decide
  addressable := by decide
  terminated := by decide

/-- The characters from `a` to `z`. -/
def lowercase : UnescapeCis where
  contains byte := 97 ≤ byte && byte ≤ 122
  zero := by decide
  percent := by decide

/-- The percent sign and the NUL are the token. The NUL is written, the byte behind it is read. -/
theorem getUnescape_pastEnd :
    Run.Always (step percentSign) (fun outcome => outcome.result ≠ .error .syntaxErr)
        (start percentSign) [.getUnescape lowercase] ∧
      ¬Run.Always (step percentSign) (InBounds percentSign) (start percentSign)
        [.getUnescape lowercase] ∧
      [.write 4097, .read 4098] <:+
        (step percentSign (start percentSign) (.getUnescape lowercase)).log ∧
      percentSign.bufEnd = 4097 := by
  have log : [.write 4097, .read 4098] <:+
      (step percentSign (start percentSign) (.getUnescape lowercase)).log := by decide +kernel
  refine ⟨⟨nofun, nofun⟩, fun always => ?_, log, rfl⟩
  have inside := always.2.1 (.read 4098) (log.subset (by decide))
  exact absurd inside.2 (by decide)

end Pj.ScanMemory
