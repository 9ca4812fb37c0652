import Pjproject.PjlibUtil.ScanBounds

/-!
# Escapes and quotes within bounds

`pj_scan_get_unescape` stays in the buffer unless the text ends with a percent sign that it comes
to: it keeps that one with the NUL behind it, and goes on past the NUL. `pj_scan_get_quotes` stays
in the buffer unless a NUL is a quote at the end, or it counts the backslashes in front of an end
quote that follows a begin quote at the start.
-/

namespace Pj.ScanMemory
open Function List

variable {buf : Buffer} {memory memory' : Nat → UInt8} {s t first : Nat} {scanner : Scanner}
  {spec : Cis}

/-! ## The text ahead -/

variable {byte : UInt8}

variable (buf) in
/-- The bytes from `s` to the end. -/
def text (memory : Nat → UInt8) (s : Nat) : Str :=
  (List.range' s (buf.bufEnd - s)).map memory

theorem text_cons (inner : s < buf.bufEnd) :
    text buf memory s = memory s :: text buf memory (s + 1) := by
  have count : buf.bufEnd - s = buf.bufEnd - (s + 1) + 1 := by omega
  rw [text, count, range'_succ, map_cons, text]

theorem text_end (behind : buf.bufEnd ≤ s) : text buf memory s = [] := by
  rw [text, Nat.sub_eq_zero_of_le behind]
  rfl

theorem text_congr (same : ∀ address, s ≤ address → memory' address = memory address) :
    text buf memory' s = text buf memory s := by
  apply map_congr_left
  intro address member
  exact same address (mem_range'_1.mp member).1

/-- The text is a token with escapes up to its last byte, a percent sign. -/
def danglingPercent (spec : UInt8 → Bool) : Str → Bool
  | [] => false
  | [byte] => byte = 37
  | [byte, last] => spec byte && last = 37
  | byte :: high :: low :: rest =>
    if byte = 37 then isxdigit high && isxdigit low && danglingPercent spec rest
    else spec byte && danglingPercent spec (high :: low :: rest)

theorem danglingPercent_span (rest : Str) (percent : spec.contains 37 = false)
    (matched : spec.contains byte = true) :
    danglingPercent spec.contains (byte :: rest) = danglingPercent spec.contains rest := by
  have plain : byte ≠ 37 := by
    rintro rfl
    rw [percent] at matched
    exact Bool.false_ne_true matched
  rcases rest with - | ⟨high, - | ⟨low, rest⟩⟩
  · simp [danglingPercent, plain]
  · simp [danglingPercent, matched]
  · simp [danglingPercent, plain, matched]

theorem danglingPercent_stop (rest : Str) (plain : byte ≠ 37) (stop : spec.contains byte = false) :
    danglingPercent spec.contains (byte :: rest) = false := by
  rcases rest with - | ⟨high, - | ⟨low, rest⟩⟩ <;> simp [danglingPercent, plain, stop]

/-- A span of the character set is skipped. -/
theorem danglingPercent_text (percent : spec.contains 37 = false) (high : t ≤ buf.bufEnd)
    (passed : ∀ address, s ≤ address → address < t → spec.contains (memory address) = true)
    (low : s ≤ t) :
    danglingPercent spec.contains (text buf memory s) =
      danglingPercent spec.contains (text buf memory t) := by
  obtain ⟨count, rfl⟩ := Nat.exists_eq_add_of_le low
  clear low
  induction count generalizing s with
  | zero => rfl
  | succ count ih =>
    have rest := ih (s := s + 1) (by omega)
      (fun address after before => passed address (by omega) (by omega))
    rw [text_cons (by omega), danglingPercent_span _ percent (passed s (Nat.le_refl _) (by omega)),
      rest, Nat.add_right_comm]
    rfl

/-! ## Escapes -/

variable (buf first) in
/-- The loop writes behind where it began, and not behind where it reads. -/
structure Cursors.Sound (cursors : Cursors) : Prop where
  start : buf.bufstart ≤ first
  begun : first ≤ cursors.dst
  behind : cursors.dst ≤ cursors.s
  inside : cursors.s ≤ buf.bufEnd
  terminated : cursors.memory buf.bufEnd = 0

variable {cursors : Cursors}

theorem Cursors.Sound.held (sound : cursors.Sound buf first) : buf.Holds cursors.s :=
  ⟨Nat.le_trans sound.start (Nat.le_trans sound.begun sound.behind), sound.inside⟩

/-- The two digits behind a percent sign. -/
theorem gives_hexDigits (nul : memory buf.bufEnd = 0) (held : buf.Holds s)
    (inner : s < buf.bufEnd) :
    (hexDigits buf memory s).Gives (Inside buf) fun digits =>
      (digits.isSome = true ↔
          isxdigit (memory (s + 1)) = true ∧ isxdigit (memory (s + 2)) = true) ∧
        (digits.isSome = true → s + 3 ≤ buf.bufEnd) := by
  have bounds := held
  have last := buf.bufEnd_lt
  have visible {byte : UInt8} (digit : isxdigit byte = true) : byte ≠ 0 := by
    rintro rfl
    exact absurd digit (by decide)
  have heldHigh : buf.Holds (s + 1) := ⟨by omega, inner⟩
  have second (high : isxdigit (memory (s + 1)) = true) : buf.Holds (s + 2) :=
    ⟨by omega, lt_bufEnd nul heldHigh (visible high)⟩
  have third (high : isxdigit (memory (s + 1)) = true) (low : isxdigit (memory (s + 2)) = true) :
      s + 3 ≤ buf.bufEnd :=
    lt_bufEnd nul (second high) (visible low)
  rw [hexDigits]
  split_ifs with room
  · apply (gives_readByte heldHigh).bind
    rintro _ rfl
    split_ifs with high
    · apply (gives_readByte (second high)).bind
      rintro _ rfl
      apply Traced.gives_pure
      split_ifs with low
      · exact ⟨by simp [high, low], fun _ => third high low⟩
      · exact ⟨by simp [low], nofun⟩
    · exact Traced.gives_pure ⟨by simp [high], nofun⟩
  · apply Traced.gives_pure
    refine ⟨⟨nofun, fun ⟨high, low⟩ => absurd ?_ room⟩, nofun⟩
    have close := third high low
    have sum : advanced s 3 = s + 3 := advanced_of_lt (n := 3) (by
      change s + 3 < 2 ^ 32
      omega)
    omega

/-- What is behind the span stays as it is. -/
theorem gives_moveSpan {dst start : Nat} (low : buf.bufstart ≤ dst) (order : dst ≤ start)
    (span : start ≤ s) (high : s ≤ buf.bufEnd) :
    (moveSpan memory dst start s).Gives (Inside buf) fun moved =>
      ∀ address, s ≤ address → moved address = memory address := by
  rw [moveSpan]
  split_ifs
  · apply Traced.gives_access
    · intro made member
      rcases mem_append.mp member with read | write
      · obtain ⟨address, range, rfl⟩ := mem_map.mp read
        have bounds := mem_range'_1.mp range
        exact ⟨by omega, by omega⟩
      · obtain ⟨address, range, rfl⟩ := mem_map.mp write
        have bounds := mem_range'_1.mp range
        exact ⟨by omega, by omega⟩
    · intro address after
      exact if_neg (by omega)
  · exact Traced.gives_pure fun address after => rfl

theorem gives_copySpan (sound : cursors.Sound buf first) :
    (copySpan buf spec cursors).Gives (Inside buf) fun behind =>
      behind.Sound buf first ∧ cursors.s ≤ behind.s ∧
        (∀ address, cursors.s ≤ address → address < behind.s →
          spec.contains (cursors.memory address) = true) ∧
        spec.contains (cursors.memory behind.s) = false ∧
        ∀ address, behind.s ≤ address → behind.memory address = cursors.memory address := by
  have held := sound.held
  have begun := sound.begun
  have behind := sound.behind
  have start := sound.start
  apply (gives_advanceWhile sound.terminated (.inr spec.zero) held).bind
  rintro t ⟨low, high, passed, stop⟩
  have stopped : spec.contains (cursors.memory t) = false := by
    rcases stop with rfl | stop
    · rw [sound.terminated]
      exact spec.zero
    · exact stop
  apply (gives_moveSpan (by omega) (by omega) low high).bind
  intro memory same
  have nul : memory buf.bufEnd = 0 := by
    rw [same _ high]
    exact sound.terminated
  exact Traced.gives_pure
    ⟨⟨start, by simp only; omega, by simp only; omega, high, nul⟩, low, passed, stopped, same⟩

theorem gives_writeByte {dst : Nat} (low : buf.bufstart ≤ dst) (high : dst < buf.bufEnd) :
    (writeByte memory dst byte).Gives (Inside buf) (· = update memory dst byte) := by
  refine Traced.gives_access (fun made member => ?_) rfl
  rw [mem_singleton.mp member]
  exact ⟨low, high⟩

theorem gives_endRound (percent : spec.contains 37 = false) (sound : cursors.Sound buf first) :
    (endRound buf spec cursors).Gives (Inside buf) fun out =>
      out.1.Sound buf first ∧ cursors.s ≤ out.1.s ∧
        (spec.contains (cursors.memory cursors.s) = true → cursors.s < out.1.s) ∧
        (out.2 = true → out.1.memory out.1.s = 37) ∧
        (out.2 && danglingPercent spec.contains (text buf out.1.memory out.1.s)) =
          danglingPercent spec.contains (text buf cursors.memory cursors.s) := by
  apply (gives_copySpan sound).bind
  rintro behind ⟨behindSound, low, passed, stop, same⟩
  apply (gives_readByte behindSound.held).bind
  rintro _ rfl
  apply Traced.gives_pure
  have ahead := danglingPercent_text percent behindSound.inside passed low
  rw [← text_congr same] at ahead
  refine ⟨behindSound, low, fun matched => ?_, fun more => by simpa using more, ?_⟩
  · apply Nat.lt_of_le_of_ne low
    intro here
    rw [← here, matched] at stop
    exact Bool.false_ne_true stop.symm
  · rw [ahead]
    by_cases more : behind.memory behind.s = 37
    · simp [more]
    · -- Neither a character of the set nor a percent sign is ahead.
      have none : danglingPercent spec.contains (text buf behind.memory behind.s) = false := by
        rcases Nat.eq_or_lt_of_le behindSound.inside with end' | inner
        · rw [text_end (Nat.le_of_eq end'.symm)]
          rfl
        · rw [text_cons inner]
          rw [← same _ (Nat.le_refl _)] at stop
          exact danglingPercent_stop _ more stop
      simp [more, none]

/-- A percent sign without two digits, with the byte behind it. -/
theorem gives_copyTwo (sound : cursors.Sound buf first) (inner : cursors.s + 1 < buf.bufEnd) :
    (copyTwo buf cursors).Gives (Inside buf) fun behind =>
      behind.Sound buf first ∧ behind.s = cursors.s + 2 := by
  have held := sound.held
  have begun := sound.begun
  have start := sound.start
  have order := sound.behind
  apply (gives_readByte held).bind
  rintro byte -
  apply (gives_writeByte (by omega) (by omega)).bind
  rintro _ rfl
  apply (gives_readByte ⟨by omega, by omega⟩).bind
  rintro second -
  apply (gives_writeByte (by omega) (by omega)).bind
  rintro _ rfl
  apply Traced.gives_pure
  refine ⟨⟨start, by simp only; omega, by simp only; omega, by simp only; omega, ?_⟩, rfl⟩
  simp only
  rw [update_of_ne (by omega), update_of_ne (by omega)]
  exact sound.terminated

/-- The two bytes are copied in any case. -/
theorem result_copyTwo (held : buf.Holds cursors.s) (next : buf.Holds (cursors.s + 1)) :
    ∃ behind, (copyTwo buf cursors).result = .ok behind ∧ behind.s = cursors.s + 2 := by
  simp only [copyTwo, readByte, writeByte, if_pos held, if_pos next]
  exact ⟨_, rfl, rfl⟩

/-- A round that does not come to a percent sign at the end. Whether one is ahead stays the same. -/
theorem gives_unescapeRound (percent : spec.contains 37 = false) (sound : cursors.Sound buf first)
    (inner : cursors.s < buf.bufEnd)
    (entered : spec.contains (cursors.memory cursors.s) = true ∨ cursors.memory cursors.s = 37)
    (whole : cursors.memory cursors.s = 37 → cursors.s + 1 < buf.bufEnd) :
    (unescapeRound buf spec cursors).Gives (Inside buf) fun out =>
      out.1.Sound buf first ∧ cursors.s < out.1.s ∧
        (out.2 = true → out.1.memory out.1.s = 37) ∧
        (out.2 && danglingPercent spec.contains (text buf out.1.memory out.1.s)) =
          danglingPercent spec.contains (text buf cursors.memory cursors.s) := by
  have nul := sound.terminated
  have held := sound.held
  have begun := sound.begun
  have start := sound.start
  have order := sound.behind
  apply (gives_readByte held).bind
  rintro _ rfl
  split_ifs with escape
  · apply (gives_hexDigits nul held inner).bind
    rintro digits ⟨both, room⟩
    have ahead : text buf cursors.memory cursors.s =
        37 :: cursors.memory (cursors.s + 1) :: text buf cursors.memory (cursors.s + 2) := by
      rw [text_cons inner, text_cons (whole escape), escape]
    cases digits with
    | none =>
      apply (gives_copyTwo sound (whole escape)).bind
      rintro behind ⟨behindSound, moved⟩
      apply Traced.gives_pure
      refine ⟨behindSound, by simp only; omega, nofun, ?_⟩
      rw [Bool.false_and, ahead]
      rcases Nat.lt_or_ge (cursors.s + 2) buf.bufEnd with more | behind
      · rw [text_cons more]
        have few : ¬(isxdigit (cursors.memory (cursors.s + 1)) = true ∧
            isxdigit (cursors.memory (cursors.s + 2)) = true) :=
          fun digits => absurd (both.mpr digits) (by decide)
        rw [danglingPercent, if_pos rfl]
        rw [← Bool.and_eq_true, Bool.not_eq_true] at few
        rw [few, Bool.false_and]
      · rw [text_end behind]
        simp [danglingPercent, percent]
    | some digits =>
      have digit := both.mp rfl
      have close := room rfl
      apply (gives_writeByte (by omega) (by omega)).bind
      intro memory written
      have later : ∀ address, cursors.s + 3 ≤ address →
          memory address = cursors.memory address := by
        intro address after
        rw [written]
        exact update_of_ne (by omega) _ _
      have next : Cursors.Sound buf first
          { s := cursors.s + 3, dst := cursors.dst + 1, memory := memory } :=
        ⟨start, by simp only; omega, by simp only; omega, close, (later _ close).trans nul⟩
      apply (gives_endRound percent next).imp
      rintro ⟨behind, more⟩ ⟨behindSound, low, -, escaped, same⟩
      have progress : cursors.s + 3 ≤ behind.s := low
      have skipped : text buf cursors.memory (cursors.s + 2) =
          cursors.memory (cursors.s + 2) :: text buf cursors.memory (cursors.s + 3) :=
        text_cons (by omega)
      refine ⟨behindSound, by simp only; omega, escaped, ?_⟩
      rw [same, ahead, skipped, danglingPercent, if_pos rfl, digit.1, digit.2, text_congr later]
      rfl
  · apply (gives_endRound percent sound).imp
    rintro ⟨behind, more⟩ ⟨behindSound, low, progress, escaped, same⟩
    exact ⟨behindSound, progress (entered.resolve_right escape), escaped, same⟩

/-- A round at a percent sign at the end goes past the end. -/
theorem result_unescapeRound (spec : Cis) (sound : cursors.Sound buf first)
    (escape : cursors.memory cursors.s = 37) (end' : cursors.s + 1 = buf.bufEnd) :
    ∃ behind, (unescapeRound buf spec cursors).result = .ok (behind, false) ∧
      behind.s = cursors.s + 2 := by
  have held := sound.held
  have ⟨_, digits, read, _, room⟩ := gives_hexDigits sound.terminated held (by omega)
  have none : digits = none := by
    cases digits with
    | none => rfl
    | some digits => exact absurd (room rfl) (by omega)
  have ⟨behind, copied, moved⟩ := result_copyTwo held ⟨by omega, Nat.le_of_eq end'⟩
  refine ⟨behind, ?_, moved⟩
  rw [unescapeRound, Traced.result_bind_of_ok (result_readByte _ held), if_pos escape,
    Traced.result_bind_of_ok read, none, Traced.result_bind_of_ok copied]
  rfl

section
variable {left : Nat} (percent : spec.contains 37 = false) (sound : cursors.Sound buf first)
  (enough : buf.bufEnd < left + cursors.s) (inner : cursors.s < buf.bufEnd)
  (entered : spec.contains (cursors.memory cursors.s) = true ∨ cursors.memory cursors.s = 37)
include percent sound enough inner entered

theorem gives_unescapeLoop
    (whole : danglingPercent spec.contains (text buf cursors.memory cursors.s) = false) :
    (unescapeLoop buf spec left cursors).Gives (Inside buf) (Cursors.Sound buf first) := by
  induction left generalizing cursors with
  | zero => omega
  | succ left ih =>
    have close : cursors.memory cursors.s = 37 → cursors.s + 1 < buf.bufEnd := by
      intro escape
      apply Nat.lt_of_le_of_ne inner
      intro end'
      rw [text_cons inner, text_end (Nat.le_of_eq end'.symm), escape] at whole
      exact absurd whole (by simp [danglingPercent])
    apply (gives_unescapeRound percent sound inner entered close).bind
    rintro ⟨behind, more⟩ ⟨behindSound, progress, escaped, same⟩
    simp only at behindSound progress escaped same ⊢
    split_ifs with again
    · have visible : behind.memory behind.s ≠ 0 := by
        rw [escaped again]
        decide
      rw [again, Bool.true_and, whole] at same
      exact ih behindSound (by omega)
        (lt_bufEnd behindSound.terminated behindSound.held visible) (.inr (escaped again)) same
    · exact Traced.gives_pure behindSound

/-- The loop goes past the end if it comes to a percent sign there. -/
theorem result_unescapeLoop
    (dangling : danglingPercent spec.contains (text buf cursors.memory cursors.s) = true) :
    ∃ behind, (unescapeLoop buf spec left cursors).result = .ok behind ∧
      buf.bufEnd < behind.s := by
  induction left generalizing cursors with
  | zero => omega
  | succ left ih =>
    by_cases bare : cursors.memory cursors.s = 37 ∧ cursors.s + 1 = buf.bufEnd
    · have ⟨behind, returned, moved⟩ := result_unescapeRound spec sound bare.1 bare.2
      refine ⟨behind, ?_, by omega⟩
      rw [unescapeLoop, Traced.result_bind_of_ok returned]
      rfl
    · have close : cursors.memory cursors.s = 37 → cursors.s + 1 < buf.bufEnd :=
        fun escape => Nat.lt_of_le_of_ne inner fun end' => bare ⟨escape, end'⟩
      have ⟨_, ⟨behind, more⟩, returned, behindSound, progress, escaped, same⟩ :=
        gives_unescapeRound percent sound inner entered close
      rw [dangling, Bool.and_eq_true] at same
      have ⟨again, ahead⟩ := same
      have visible : behind.memory behind.s ≠ 0 := by
        rw [escaped again]
        decide
      rw [unescapeLoop, Traced.result_bind_of_ok returned]
      simp only at again progress ⊢
      rw [if_pos again]
      exact ih behindSound (by omega)
        (lt_bufEnd behindSound.terminated behindSound.held visible) (.inr (escaped again)) ahead

end

/-- The loop begins at the cursor. -/
theorem Sound.begins (sound : Sound buf scanner) : Cursors.Sound buf scanner.curptr
    { s := scanner.curptr, dst := scanner.curptr, memory := scanner.memory } where
  start := sound.cursor.1
  begun := Nat.le_refl _
  behind := Nat.le_refl _
  inside := sound.cursor.2
  terminated := sound.terminated

theorem ensures_scanGetUnescape {spec : UnescapeCis} (sound : Sound buf scanner)
    (whole : danglingPercent spec.contains (text buf scanner.memory scanner.curptr) = false) :
    (scanGetUnescape buf spec scanner).Ensures (Inside buf) (Got buf) := by
  have bounds := sound.cursor
  apply (gives_readByte sound.cursor).ensures.bind
  rintro _ rfl
  split_ifs with entered
  · have inner : scanner.curptr < buf.bufEnd := by
      apply lt_bufEnd sound.terminated sound.cursor
      rintro zero
      rw [zero, spec.zero] at entered
      exact absurd entered (by decide)
    apply Traced.Gives.ensures
    apply (gives_unescapeLoop spec.percent sound.begins (by simp only; omega) inner entered
      whole).bind
    intro behind behindSound
    have begun := behindSound.begun
    have order := behindSound.behind
    have high := behindSound.inside
    apply (gives_autoskip ⟨behindSound.held, behindSound.terminated⟩).bind
    intro next nextSound
    exact Traced.gives_pure ⟨⟨sound.cursor.1, by simp only; omega⟩, nextSound⟩
  · exact Traced.ensures_throw

theorem not_ensures_scanGetUnescape {spec : UnescapeCis} {post : Token × Scanner → Prop}
    (sound : Sound buf scanner)
    (dangling : danglingPercent spec.contains (text buf scanner.memory scanner.curptr) = true) :
    ¬(scanGetUnescape buf spec scanner).Ensures (Inside buf) post := by
  have inner : scanner.curptr < buf.bufEnd := by
    apply Nat.lt_of_not_le
    intro behind
    rw [text_end behind] at dangling
    exact Bool.false_ne_true dangling
  have entered : spec.contains (scanner.memory scanner.curptr) = true ∨
      scanner.memory scanner.curptr = 37 := by
    by_contra stop
    have ⟨other, plain⟩ := not_or.mp stop
    rw [text_cons inner, danglingPercent_stop _ plain (by simpa using other)] at dangling
    exact Bool.false_ne_true dangling
  apply (gives_readByte sound.cursor).bind_not
  rintro _ rfl
  rw [if_pos entered]
  have enough : buf.bufEnd < buf.bufEnd + 1 - scanner.curptr + scanner.curptr := by omega
  have ⟨behind, returned, past⟩ :=
    result_unescapeLoop spec.percent sound.begins enough inner entered dangling
  apply Traced.not_ensures_bind returned
  exact Traced.not_ensures_bind_of_not_all (not_all_autoskip (by simp only; omega))

/-! ## Quotes -/

/-- How many bytes in a row are backslashes, from `r` back over `front` bytes at most. -/
def backslashes (memory : Nat → UInt8) : (front r : Nat) → Nat
  | 0, _ => 0
  | front + 1, r => if memory r = 92 then backslashes memory front (r - 1) + 1 else 0

variable (buf) in
/-- The end quote at `s` does not count: a backslash is before it, and before that one an even
number of them. The first byte of the buffer is not counted. -/
def escaped (memory : Nat → UInt8) (s : Nat) : Bool :=
  memory (s - 1) = 92 && backslashes memory (s - 2 - buf.bufstart) (s - 2) % 2 = 0

theorem gives_backslashLoop {front : Nat} (start : s = buf.bufstart + front)
    (high : s ≤ buf.bufEnd) :
    (backslashLoop buf memory front s).Gives (Inside buf) fun r =>
      r + backslashes memory front s = s := by
  induction front generalizing s with
  | zero =>
    rw [backslashLoop, if_pos (by omega)]
    exact Traced.gives_pure rfl
  | succ front ih =>
    rw [backslashLoop, if_neg (by omega)]
    apply (gives_readByte ⟨by omega, high⟩).bind
    rintro _ rfl
    split_ifs with backslash
    · apply (ih (s := s - 1) (by omega) (by omega)).imp
      intro r count
      rw [backslashes, if_pos backslash]
      omega
    · apply Traced.gives_pure
      rw [backslashes, if_neg backslash]
      rfl

/-- Whether an end quote counts. The byte before it is not the first one of the buffer if it is a
backslash. -/
theorem gives_endsQuote (low : buf.bufstart < s) (high : s ≤ buf.bufEnd)
    (room : memory (s - 1) = 92 → buf.bufstart + 2 ≤ s) :
    (endsQuote buf memory s).Gives (Inside buf) (· = !escaped buf memory s) := by
  apply (gives_readByte ⟨by omega, by omega⟩).bind
  rintro _ rfl
  split_ifs with backslash
  · have inner := room backslash
    apply (gives_backslashLoop (s := s - 2) (by omega) (by omega)).bind
    intro r count
    apply Traced.gives_pure
    have between : s - 2 - r = backslashes memory (s - 2 - buf.bufstart) (s - 2) := by omega
    rw [escaped, backslash, between]
    rcases Nat.mod_two_eq_zero_or_one (backslashes memory (s - 2 - buf.bufstart) (s - 2)) with
      even | odd
    · simp [even]
    · simp [odd]
  · apply Traced.gives_pure
    simp [escaped, backslash]

/-- Backslashes are counted from in front of the buffer if the only one is its first byte. -/
theorem not_all_endsQuote (backslash : memory buf.bufstart = 92) (second : s = buf.bufstart + 1) :
    ¬(endsQuote buf memory s).All (Inside buf) := by
  have positive := buf.not_null
  have order : buf.bufstart ≤ buf.bufEnd := Nat.le_add_right ..
  have before : s - 1 = buf.bufstart := by omega
  have none : s - 2 - buf.bufstart = 0 := by omega
  have held : buf.Holds (s - 1) := ⟨by omega, by omega⟩
  rw [endsQuote, Traced.all_bind_of_ok (result_readByte _ held), if_pos (before ▸ backslash)]
  simp only
  rw [none, backslashLoop, if_neg (by omega)]
  exact fun all => not_all_readByte (by omega) (Traced.all_bind.mp (Traced.all_bind.mp all.2).1).1

variable (buf) in
/-- A byte that the search for an end quote does not go past. -/
def Barrier (memory : Nat → UInt8) (endQuote : UInt8) (p : Nat) : Prop :=
  p = buf.bufEnd ∧ endQuote ≠ 0 ∨ memory p = 10 ∧ endQuote ≠ 10 ∨
    memory p = endQuote ∧ escaped buf memory p = false

/-- The inner loop stops at an end quote, at the end of the line or at the end. -/
theorem gives_seekQuote (endQuote : UInt8) (nul : memory buf.bufEnd = 0) (held : buf.Holds s) :
    (advanceWhile buf memory true (fun byte => byte ≠ 10 && byte ≠ endQuote) s).Gives (Inside buf)
      fun t => s ≤ t ∧ t ≤ buf.bufEnd ∧
        (∀ address, s ≤ address → address < t →
          memory address ≠ 10 ∧ memory address ≠ endQuote) ∧
        (t = buf.bufEnd ∨ memory t = 10 ∨ memory t = endQuote) := by
  apply (gives_advanceWhile nul (.inl rfl) held).imp
  rintro t ⟨low, high, passed, stop⟩
  refine ⟨low, high, fun address after before => ?_, stop.imp_right fun stop => ?_⟩
  · simpa using passed address after before
  · simpa [or_iff_not_imp_left] using stop

section
variable (nul : memory buf.bufEnd = 0) (start : buf.bufstart ≤ first) (low : first < s)
include nul start low

/-- The search stops at a barrier at the latest. `first` is where the begin quote is. -/
theorem gives_quoteLoop {endQuote : UInt8} {left p : Nat} (high : s ≤ p) (inside : p ≤ buf.bufEnd)
    (barrier : Barrier buf memory endQuote p) (enough : buf.bufEnd < left + s)
    (room : ∀ t, first < t → memory t = endQuote → memory (t - 1) = 92 → buf.bufstart + 2 ≤ t) :
    (quoteLoop buf memory endQuote left s).Gives (Inside buf) fun t => first < t ∧ t ≤ p := by
  induction left generalizing s with
  | zero => omega
  | succ left ih =>
    apply (gives_seekQuote endQuote nul ⟨by omega, by omega⟩).bind
    rintro t ⟨after, within, passed, -⟩
    have before : t ≤ p := by
      apply Nat.le_of_not_lt
      intro beyond
      have plain := passed p high beyond
      rcases barrier with ⟨end', -⟩ | ⟨newline, -⟩ | ⟨quote, -⟩
      · omega
      · exact plain.1 newline
      · exact plain.2 quote
    apply (gives_readByte ⟨by omega, within⟩).bind
    rintro _ rfl
    split_ifs with quote
    · apply (gives_endsQuote (by omega) within (room t (by omega) quote)).bind
      rintro _ rfl
      split_ifs with ends
      · exact Traced.gives_pure ⟨by omega, before⟩
      · -- The byte at the barrier is no end quote that is escaped.
        have front : t ≠ p := by
          rintro rfl
          rcases barrier with ⟨end', zero⟩ | ⟨newline, other⟩ | ⟨-, counts⟩
          · rw [end', nul] at quote
            exact zero quote.symm
          · exact other (quote.symm.trans newline)
          · exact ends (by rw [counts]; rfl)
        exact ih (by omega) (by omega) (by omega)
    · exact Traced.gives_pure ⟨by omega, before⟩

/-- The search for a NUL that counts comes to the end if there is none before it. -/
theorem quoteLoop_end {left : Nat} (high : s ≤ buf.bufEnd) (enough : buf.bufEnd < left + s)
    (room : ∀ t, first < t → memory t = 0 → memory (t - 1) = 92 → buf.bufstart + 2 ≤ t)
    (none : ∀ p, first < p → p < buf.bufEnd → memory p ≠ 10 ∧
    (memory p = 0 → escaped buf memory p = true)) :
    (quoteLoop buf memory 0 left s).result = .ok buf.bufEnd ∨
      ¬(quoteLoop buf memory 0 left s).All (Inside buf) := by
  induction left generalizing s with
  | zero => omega
  | succ left ih =>
    have held : buf.Holds s := ⟨by omega, high⟩
    have ⟨_, t, advanced, after, within, _, stop⟩ := gives_seekQuote 0 nul held
    have zero : memory t = 0 := by
      rcases Nat.eq_or_lt_of_le within with rfl | inner
      · exact nul
      · have plain := (none t (by omega) inner).1
        rcases stop with end' | newline | zero
        · omega
        · exact absurd newline plain
        · exact zero
    have read := result_readByte memory (show buf.Holds t from ⟨by omega, within⟩)
    obtain ⟨-, _, ends, rfl⟩ := gives_endsQuote (by omega) within (room t (by omega) zero)
    rw [quoteLoop, Traced.result_bind_of_ok advanced, Traced.all_bind_of_ok advanced,
      Traced.result_bind_of_ok read, Traced.all_bind_of_ok read, if_pos zero,
      Traced.result_bind_of_ok ends, Traced.all_bind_of_ok ends]
    by_cases counts : escaped buf memory t = true
    · rw [if_neg (by simp [counts])]
      rcases Nat.eq_or_lt_of_le within with end' | inner
      · -- The NUL at the end is escaped: the search goes on behind it.
        right
        intro all
        have beyond := all.2.2.2
        cases left with
        | zero => exact not_all_readByte (by omega) (Traced.all_bind.mp beyond).1
        | succ left =>
          exact not_all_advanceWhile (by omega) (Traced.all_bind.mp beyond).1
      · apply (ih (by omega) inner (by omega)).imp_right
        exact fun bad all => bad all.2.2.2
    · have end' : t = buf.bufEnd := by
        apply Nat.le_antisymm within
        apply Nat.le_of_not_lt
        intro inner
        exact counts ((none t (by omega) inner).2 zero)
      rw [if_pos (by simpa using counts)]
      exact .inl (by rw [end']; rfl)

end

variable (buf scanner) in
/-- The end quote that belongs to the byte at the cursor is found in the buffer: that byte is not
the NUL at the end; it is not a backslash at the start with the end quote next to it; and if the end
quote is NUL, one that counts or the end of the line comes before the end. -/
structure QuoteFits (endQuote : UInt8) : Prop where
  inner : scanner.curptr ≠ buf.bufEnd
  room : ¬(scanner.curptr = buf.bufstart ∧ scanner.memory buf.bufstart = 92 ∧
    scanner.memory (buf.bufstart + 1) = endQuote)
  stop : endQuote = 0 → ∃ p, scanner.curptr < p ∧ p < buf.bufEnd ∧
    (scanner.memory p = 10 ∨ scanner.memory p = 0 ∧ escaped buf scanner.memory p = false)

variable (buf scanner) in
/-- The quotes of a call fit. -/
def QuotesFit (quotes : List (UInt8 × UInt8)) : Prop :=
  ∀ quote, (quotes.find? fun quote => quote.1 = scanner.memory scanner.curptr) = some quote →
    QuoteFits buf scanner quote.2

/-- An end quote with a backslash before it is two bytes behind the start. -/
theorem room_of_not {endQuote : UInt8} (start : buf.bufstart ≤ scanner.curptr)
    (room : ¬(scanner.curptr = buf.bufstart ∧ scanner.memory buf.bufstart = 92 ∧
      scanner.memory (buf.bufstart + 1) = endQuote))
    (t : Nat) (low : scanner.curptr < t) (quote : scanner.memory t = endQuote)
    (backslash : scanner.memory (t - 1) = 92) : buf.bufstart + 2 ≤ t := by
  by_contra close
  have second : t = buf.bufstart + 1 := by omega
  rw [second] at quote backslash
  exact room ⟨by omega, backslash, quote⟩

theorem QuoteFits.barrier {endQuote : UInt8} (fits : QuoteFits buf scanner endQuote)
    (sound : Sound buf scanner) : ∃ p, scanner.curptr < p ∧ p ≤ buf.bufEnd ∧
      Barrier buf scanner.memory endQuote p ∧ (endQuote = 0 → p < buf.bufEnd) := by
  by_cases zero : endQuote = 0
  · have ⟨p, low, high, stop⟩ := fits.stop zero
    refine ⟨p, low, Nat.le_of_lt high, .inr ?_, fun _ => high⟩
    rw [zero]
    exact stop.imp_left fun newline => ⟨newline, by decide⟩
  · have inner := Nat.lt_of_le_of_ne sound.cursor.2 fits.inner
    exact ⟨buf.bufEnd, inner, Nat.le_refl _, .inl ⟨rfl, zero⟩, fun same => absurd same zero⟩

section
variable {quotes : List (UInt8 × UInt8)} (sound : Sound buf scanner)
include sound

theorem ensures_scanGetQuotes (fits : QuotesFit buf scanner quotes) :
    (scanGetQuotes buf quotes scanner).Ensures (Inside buf) (Got buf) := by
  apply (gives_readByte sound.cursor).ensures.bind
  rintro _ rfl
  cases found : quotes.find? fun quote => quote.1 = scanner.memory scanner.curptr with
  | none => exact Traced.ensures_throw
  | some quote =>
    have quoteFits := fits quote found
    have ⟨p, low, inside, barrier, front⟩ := quoteFits.barrier sound
    have enough : buf.bufEnd < buf.bufEnd - scanner.curptr + (scanner.curptr + 1) := by omega
    have looped := gives_quoteLoop sound.terminated sound.cursor.1 (Nat.lt_succ_self _) low inside
      barrier enough (room_of_not sound.cursor.1 quoteFits.room)
    apply looped.ensures.bind
    rintro t ⟨after, before⟩
    have start := sound.cursor.1
    apply (gives_readByte ⟨by omega, by omega⟩).ensures.bind
    rintro _ rfl
    split_ifs with ends
    · have inner : t < buf.bufEnd := by
        by_cases zero : quote.2 = 0
        · have bound := front zero
          omega
        · exact lt_bufEnd sound.terminated ⟨by omega, by omega⟩ (ends ▸ zero)
      exact (gives_tokenUpTo sound (by omega) inner).ensures
    · exact Traced.ensures_throw

theorem not_ensures_scanGetQuotes {post : Token × Scanner → Prop}
    (unfit : ¬QuotesFit buf scanner quotes) :
    ¬(scanGetQuotes buf quotes scanner).Ensures (Inside buf) post := by
  obtain ⟨quote, found, bad⟩ : ∃ quote,
      (quotes.find? fun quote => quote.1 = scanner.memory scanner.curptr) = some quote ∧
        ¬QuoteFits buf scanner quote.2 := by
    simpa only [QuotesFit, not_forall, exists_prop] using unfit
  have start := sound.cursor.1
  have nul := sound.terminated
  apply (gives_readByte sound.cursor).bind_not
  rintro _ rfl
  rw [found]
  simp only
  by_cases end' : scanner.curptr = buf.bufEnd
  · -- The begin quote is the NUL at the end.
    apply Traced.not_ensures_bind_of_not_all
    rw [end', Nat.sub_self, quoteLoop, Traced.all_bind]
    exact fun all => not_all_readByte (by omega) all.1
  have inner : scanner.curptr < buf.bufEnd := Nat.lt_of_le_of_ne sound.cursor.2 end'
  by_cases room : scanner.curptr = buf.bufstart ∧ scanner.memory buf.bufstart = 92 ∧
      scanner.memory (buf.bufstart + 1) = quote.2
  · -- The backslash before the end quote is the first byte of the buffer.
    have ⟨here, backslash, next⟩ := room
    have ⟨left, count⟩ := Nat.exists_eq_add_of_lt inner
    have more : buf.bufEnd - scanner.curptr = left + 1 := by omega
    apply Traced.not_ensures_bind_of_not_all
    rw [more, quoteLoop, here]
    have second : buf.Holds (buf.bufstart + 1) := ⟨by omega, by omega⟩
    have ⟨_, t, advanced, low, within, passed, _⟩ := gives_seekQuote quote.2 nul second
    have stays : t = buf.bufstart + 1 := by
      apply Nat.le_antisymm _ low
      apply Nat.le_of_not_lt
      intro beyond
      exact (passed _ (Nat.le_refl _) beyond).2 next
    have held : buf.Holds t := ⟨by omega, within⟩
    rw [Traced.all_bind_of_ok advanced, Traced.all_bind_of_ok (result_readByte _ held),
      if_pos (stays ▸ next)]
    exact fun all => not_all_endsQuote backslash stays (Traced.all_bind.mp all.2.2).1
  · -- The end quote is NUL, and the search comes to the one at the end.
    have zero : quote.2 = 0 := by
      by_contra other
      exact bad ⟨end', room, fun zero => absurd zero other⟩
    have none : ∀ p, scanner.curptr < p → p < buf.bufEnd → scanner.memory p ≠ 10 ∧
        (scanner.memory p = 0 → escaped buf scanner.memory p = true) := by
      intro p low high
      constructor
      · intro newline
        exact bad ⟨end', room, fun _ => ⟨p, low, high, .inl newline⟩⟩
      · intro nul
        by_contra counts
        exact bad ⟨end', room, fun _ => ⟨p, low, high, .inr ⟨nul, by simpa using counts⟩⟩⟩
    rw [zero] at room ⊢
    have enough : buf.bufEnd < buf.bufEnd - scanner.curptr + (scanner.curptr + 1) := by omega
    rcases quoteLoop_end nul start (Nat.lt_succ_self _) inner enough (room_of_not start room) none
      with returned | wild
    · apply Traced.not_ensures_bind returned
      apply (gives_readByte ⟨by omega, Nat.le_refl _⟩).bind_not
      rintro _ rfl
      rw [if_pos nul]
      exact fun ensures => not_all_tokenUpTo (Nat.lt_succ_self _) ensures.1
    · exact Traced.not_ensures_bind_of_not_all wild

end

end Pj.ScanMemory
