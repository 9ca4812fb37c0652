import Pjproject.Lib.Run
import Pjproject.PjlibUtil.ScanMemory

/-!
# Bounds of the text scanner

What a session with a scanner reads and writes. The NUL at the end stops every loop of the scanner
but three kinds of steps go past it: an escape that the text ends in the middle of, quotes made of
NULs and backslashes, and numbers of bytes whose sum with a pointer wraps.
-/

namespace Pj.ScanMemory

variable {buf : Buffer} {memory : Nat → UInt8} {s t : Nat} {scanner : Scanner}

variable (buf) in
/-- A read is in the buffer, a write in front of its end. -/
def Inside : Access → Prop
  | .read address => buf.Holds address
  | .write address => buf.bufstart ≤ address ∧ address < buf.bufEnd

/-- A token lies in the buffer. -/
def Token.Within (token : Token) (buf : Buffer) : Prop :=
  buf.bufstart ≤ token.ptr ∧ token.ptr + token.slen ≤ buf.bufEnd

variable (buf) in
/-- The scanner is in its buffer, and the NUL is still there. -/
structure Sound (scanner : Scanner) : Prop where
  cursor : buf.Holds scanner.curptr
  terminated : scanner.memory buf.bufEnd = 0

theorem Sound.moved (sound : Sound buf scanner) (held : buf.Holds s) :
    Sound buf { scanner with curptr := s } where
  cursor := held
  terminated := sound.terminated

theorem Buffer.bufEnd_lt (buf : Buffer) : buf.bufEnd + 1 < 2 ^ 32 := buf.addressable

/-! ## Reading -/

variable {checkEof : Bool} {test : UInt8 → Bool}

theorem lt_bufEnd (nul : memory buf.bufEnd = 0) (held : buf.Holds s) (byte : memory s ≠ 0) :
    s < buf.bufEnd := by
  apply Nat.lt_of_le_of_ne held.2
  intro same
  apply byte
  rw [same]
  exact nul

theorem gives_readByte (held : buf.Holds s) :
    (readByte buf memory s).Gives (Inside buf) (· = memory s) := by
  rw [readByte, if_pos held]
  exact Traced.gives_access (by simpa [Inside] using held) rfl

theorem result_readByte (memory : Nat → UInt8) (held : buf.Holds s) :
    (readByte buf memory s).result = .ok (memory s) := by
  rw [readByte, if_pos held]
  rfl

theorem not_all_readByte (outside : ¬buf.Holds s) : ¬(readByte buf memory s).All (Inside buf) := by
  rw [readByte, if_neg outside]
  intro all
  exact outside (all (.read s) List.mem_cons_self)

section
variable (nul : memory buf.bufEnd = 0) (stops : checkEof = true ∨ test 0 = false)
include nul stops

theorem gives_advanceLoop {left : Nat} (enough : buf.bufEnd < left + s) (held : buf.Holds s) :
    (advanceLoop buf memory checkEof test left s).Gives (Inside buf) fun t =>
      s ≤ t ∧ t ≤ buf.bufEnd ∧ (∀ address, s ≤ address → address < t → test (memory address)) ∧
        (t = buf.bufEnd ∨ test (memory t) = false) := by
  induction left generalizing s with
  | zero => omega
  | succ left ih =>
    have stay : s = buf.bufEnd ∨ test (memory s) = false → s ≤ s ∧ s ≤ buf.bufEnd ∧
        (∀ address, s ≤ address → address < s → test (memory address)) ∧
          (s = buf.bufEnd ∨ test (memory s) = false) :=
      fun stop => ⟨Nat.le_refl _, held.2, fun address low high => absurd high (by omega), stop⟩
    rw [advanceLoop]
    split_ifs with eof
    · exact Traced.gives_pure (stay (.inl eof.2))
    apply (gives_readByte held).bind
    rintro _ rfl
    by_cases more : test (memory s) = true
    · have inner : s ≠ buf.bufEnd := by
        rintro rfl
        rcases stops with checked | stop
        · exact eof ⟨checked, rfl⟩
        · rw [nul, stop] at more
          exact Bool.false_ne_true more
      have bounds := held
      rw [if_pos more]
      apply (ih (by omega) ⟨by omega, by omega⟩).imp
      rintro t ⟨low, high, passed, stop⟩
      refine ⟨by omega, high, fun address after before => ?_, stop⟩
      rcases Nat.eq_or_lt_of_le after with here | later
      · rwa [← here]
      · exact passed address later before
    · rw [if_neg more]
      exact Traced.gives_pure (stay (.inr (by simpa using more)))

/-- A loop over the bytes stops at the end at the latest. -/
theorem gives_advanceWhile (held : buf.Holds s) :
    (advanceWhile buf memory checkEof test s).Gives (Inside buf) fun t =>
      s ≤ t ∧ t ≤ buf.bufEnd ∧ (∀ address, s ≤ address → address < t → test (memory address)) ∧
        (t = buf.bufEnd ∨ test (memory t) = false) :=
  gives_advanceLoop nul stops (by omega) held

end

/-- A loop that starts behind the end reads there. -/
theorem not_all_advanceWhile (behind : buf.bufEnd < s) :
    ¬(advanceWhile buf memory checkEof test s).All (Inside buf) := by
  have none : buf.bufEnd + 1 - s = 0 := by omega
  rw [advanceWhile, none, advanceLoop, if_neg (by omega), Traced.all_bind]
  exact fun all => not_all_readByte (by omega) all.1

theorem gives_eat {byte : UInt8} (nul : memory buf.bufEnd = 0) (visible : byte ≠ 0)
    (held : buf.Holds s) :
    (eat buf memory byte s).Gives (Inside buf) fun t => s ≤ t ∧ t ≤ buf.bufEnd := by
  apply (gives_readByte held).bind
  rintro _ rfl
  apply Traced.gives_pure
  split_ifs with here
  · have inner := lt_bufEnd nul held (here ▸ visible)
    omega
  · exact ⟨Nat.le_refl _, held.2⟩

/-! ## White space -/

variable {skipWs : Bool}

section
variable (nul : scanner.memory buf.bufEnd = 0)
include nul

theorem gives_skipNewlines {left : Nat} (enough : buf.bufEnd < left + s) (held : buf.Holds s) :
    (skipNewlines buf left s scanner).Gives (Inside buf) fun out =>
      buf.Holds out.1 ∧ out.2.memory = scanner.memory := by
  induction left generalizing s scanner with
  | zero => omega
  | succ left ih =>
    have bounds := held
    apply (gives_readByte held).bind
    rintro _ rfl
    have next (visible : scanner.memory s ≠ 0) : buf.Holds (s + 1) := by
      have inner := lt_bufEnd nul held visible
      exact ⟨by omega, inner⟩
    split_ifs with cr lf space
    · apply (gives_eat nul (by decide) (next (by simp [cr]))).bind
      rintro t ⟨low, high⟩
      exact ih nul (by omega) ⟨by omega, high⟩
    · exact ih nul (by omega) (next (by simp [lf]))
    · have visible : scanner.memory s ≠ 0 := by
        intro zero
        rw [zero] at space
        exact absurd space (by decide)
      apply (gives_advanceWhile nul (.inr (by decide)) (next visible)).bind
      rintro t ⟨low, high, -, -⟩
      exact ih nul (by omega) ⟨by omega, high⟩
    · exact Traced.gives_pure ⟨held, rfl⟩

theorem gives_skipLineEnds (held : buf.Holds s) :
    (skipLineEnds buf s scanner).Gives (Inside buf) fun out =>
      buf.Holds out.1 ∧ out.2.memory = scanner.memory := by
  apply (gives_readByte held).bind
  rintro byte -
  split_ifs
  · exact gives_skipNewlines nul (by omega) held
  · exact Traced.gives_pure ⟨held, rfl⟩

theorem gives_skipContinuation (held : buf.Holds s) :
    (skipContinuation buf s scanner).Gives (Inside buf) (Sound buf) := by
  have bounds := held
  apply (gives_eat nul (by decide) held).bind
  rintro behindCr ⟨lowCr, highCr⟩
  apply (gives_eat nul (by decide) ⟨by omega, highCr⟩).bind
  rintro behindLf ⟨lowLf, highLf⟩
  have heldLf : buf.Holds behindLf := ⟨by omega, highLf⟩
  apply (gives_readByte heldLf).bind
  rintro _ rfl
  split_ifs with space
  · have visible : scanner.memory behindLf ≠ 0 := by
      intro zero
      rw [zero] at space
      exact absurd space (by decide)
    have inner := lt_bufEnd nul heldLf visible
    apply (gives_advanceWhile nul (.inr (by decide)) ⟨by omega, inner⟩).bind
    rintro t ⟨low, high, -, -⟩
    exact Traced.gives_pure ⟨⟨by simp only; omega, high⟩, nul⟩
  · exact Traced.gives_pure ⟨held, nul⟩

end

/-- White space is skipped within the buffer. -/
theorem gives_scanSkipWhitespace (sound : Sound buf scanner) :
    (scanSkipWhitespace buf scanner).Gives (Inside buf) (Sound buf) := by
  have bounds := sound.cursor
  apply (gives_advanceWhile sound.terminated (.inr (by decide)) sound.cursor).bind
  rintro s ⟨low, high, -, -⟩
  apply (gives_skipLineEnds sound.terminated ⟨by omega, high⟩).bind
  rintro ⟨s, behind⟩ ⟨held, same⟩
  have nul : behind.memory buf.bufEnd = 0 := by
    rw [same]
    exact sound.terminated
  apply (gives_readByte held).bind
  rintro byte -
  split_ifs
  · exact gives_skipContinuation nul held
  · exact Traced.gives_pure ⟨held, nul⟩

theorem gives_autoskip (sound : Sound buf scanner) :
    (autoskip buf skipWs scanner).Gives (Inside buf) (Sound buf) := by
  apply (gives_readByte sound.cursor).bind
  rintro byte -
  split_ifs
  · exact gives_scanSkipWhitespace sound
  · exact Traced.gives_pure sound

theorem not_all_autoskip (outside : ¬buf.Holds scanner.curptr) :
    ¬(autoskip buf skipWs scanner).All (Inside buf) := by
  rw [autoskip, Traced.all_bind]
  exact fun all => not_all_readByte outside all.1

theorem gives_scanSkipLine (sound : Sound buf scanner) :
    (scanSkipLine buf scanner).Gives (Inside buf) (Sound buf) := by
  have nul := sound.terminated
  have bounds := sound.cursor
  apply (gives_advanceWhile nul (.inr (by decide)) sound.cursor).bind
  rintro t ⟨low, high, -, -⟩
  have held : buf.Holds t := ⟨by omega, high⟩
  apply (gives_readByte held).bind
  rintro _ rfl
  apply Traced.gives_pure
  split_ifs with newline
  · have inner := lt_bufEnd nul held (by simp [newline])
    exact ⟨⟨by simp only; omega, inner⟩, nul⟩
  · exact ⟨⟨Nat.le_add_right .., Nat.le_refl _⟩, nul⟩

theorem ensures_scanGetNewline (sound : Sound buf scanner) :
    (scanGetNewline buf scanner).Ensures (Inside buf) (Sound buf) := by
  have nul := sound.terminated
  have bounds := sound.cursor
  apply (gives_readByte sound.cursor).ensures.bind
  rintro byte -
  split_ifs
  · apply Traced.Gives.ensures
    apply (gives_eat nul (by decide) sound.cursor).bind
    rintro behindCr ⟨lowCr, highCr⟩
    apply (gives_eat nul (by decide) ⟨by omega, highCr⟩).bind
    rintro behindLf ⟨lowLf, highLf⟩
    exact Traced.gives_pure ⟨⟨by simp only; omega, highLf⟩, nul⟩
  · exact Traced.ensures_throw

theorem ensures_scanGetChar (sound : Sound buf scanner) :
    (scanGetChar buf scanner).Ensures (Inside buf) fun out => Sound buf out.2 := by
  have bounds := sound.cursor
  apply (gives_readByte sound.cursor).ensures.bind
  rintro _ rfl
  split_ifs with visible
  · exact Traced.ensures_throw
  · have inner := lt_bufEnd sound.terminated sound.cursor visible
    apply Traced.Gives.ensures
    apply (gives_autoskip (sound.moved ⟨by omega, inner⟩)).bind
    rintro next nextSound
    exact Traced.gives_pure nextSound

/-! ## Tokens -/

variable {fold : UInt8 → UInt8}

variable (buf) in
/-- A token in the buffer, and the scanner behind it. -/
def Got (out : Token × Scanner) : Prop := out.1.Within buf ∧ Sound buf out.2

theorem gives_tokenUpTo (sound : Sound buf scanner) (low : scanner.curptr ≤ s)
    (high : s ≤ buf.bufEnd) : (tokenUpTo buf s scanner).Gives (Inside buf) (Got buf) := by
  have bounds := sound.cursor
  apply (gives_autoskip (sound.moved ⟨by omega, high⟩)).bind
  rintro next nextSound
  apply Traced.gives_pure
  exact ⟨⟨sound.cursor.1, by simp only [Scanner.upTo]; omega⟩, nextSound⟩

theorem not_all_tokenUpTo (behind : buf.bufEnd < s) :
    ¬(tokenUpTo buf s scanner).All (Inside buf) := by
  rw [tokenUpTo, Traced.all_bind]
  exact fun all => not_all_autoskip (by simp only; omega) all.1

/-- The functions that look ahead. -/
theorem ensures_peek (sound : Sound buf scanner) (stops : checkEof = true ∨ test 0 = false) :
    Traced.Ensures (Inside buf)
      (if scanner.curptr ≥ buf.bufEnd then .throw .syntaxErr
      else do
        let s ← advanceWhile buf scanner.memory checkEof test scanner.curptr
        let byte ← readByte buf scanner.memory s
        pure (byte, scanner.upTo s) : Scan (UInt8 × Token))
      fun out => out.2.Within buf := by
  have bounds := sound.cursor
  split_ifs
  · exact Traced.ensures_throw
  · apply Traced.Gives.ensures
    apply (gives_advanceWhile sound.terminated stops sound.cursor).bind
    rintro t ⟨low, high, -, -⟩
    apply (gives_readByte ⟨by omega, high⟩).bind
    rintro byte -
    exact Traced.gives_pure ⟨sound.cursor.1, by simp only [Scanner.upTo]; omega⟩

theorem ensures_scanPeek (spec : Cis) (sound : Sound buf scanner) :
    (scanPeek buf spec scanner).Ensures (Inside buf) fun out => out.2.Within buf :=
  ensures_peek sound (.inr spec.zero)

theorem ensures_scanPeekUntil (spec : Cis) (sound : Sound buf scanner) :
    (scanPeekUntil buf spec scanner).Ensures (Inside buf) fun out => out.2.Within buf :=
  ensures_peek sound (.inl rfl)

theorem ensures_scanGet (spec : Cis) (sound : Sound buf scanner) :
    (scanGet buf spec scanner).Ensures (Inside buf) (Got buf) := by
  have bounds := sound.cursor
  apply (gives_readByte sound.cursor).ensures.bind
  rintro _ rfl
  split_ifs with first
  · have visible : scanner.memory scanner.curptr ≠ 0 := by
      intro zero
      rw [zero, spec.zero] at first
      exact Bool.false_ne_true first
    have inner := lt_bufEnd sound.terminated sound.cursor visible
    apply Traced.Gives.ensures
    apply (gives_advanceWhile sound.terminated (.inr spec.zero) ⟨by omega, inner⟩).bind
    rintro t ⟨low, high, -, -⟩
    exact gives_tokenUpTo sound (by omega) high
  · exact Traced.ensures_throw

theorem ensures_getUntil (stop : UInt8 → Bool) (sound : Sound buf scanner) :
    (getUntil buf stop scanner).Ensures (Inside buf) (Got buf) := by
  rw [getUntil]
  split_ifs
  · exact Traced.ensures_throw
  · apply Traced.Gives.ensures
    apply (gives_advanceWhile sound.terminated (.inl rfl) sound.cursor).bind
    rintro t ⟨low, high, -, -⟩
    exact gives_tokenUpTo sound low high

/-- A comparison stops at the NUL at the latest. -/
theorem gives_strncmp (nul : memory buf.bufEnd = 0) (held : buf.Holds s) (count : Nat) (str : Str) :
    (strncmp buf fold memory count s str).Gives (Inside buf) fun _ => True := by
  induction count generalizing s str with
  | zero => exact Traced.gives_pure trivial
  | succ count ih =>
    apply (gives_readByte held).bind
    rintro _ rfl
    simp only
    split_ifs with differ zero
    · exact Traced.gives_pure trivial
    · exact Traced.gives_pure trivial
    · have inner := lt_bufEnd nul held zero
      exact ih ⟨Nat.le_succ_of_le held.1, inner⟩ str.tail

theorem ensures_compare (str : Str) (len : UInt32) (sound : Sound buf scanner) :
    (compare buf fold str len scanner).Ensures (Inside buf) fun _ => True := by
  rw [compare]
  split_ifs
  · exact Traced.ensures_throw
  · exact (gives_strncmp sound.terminated sound.cursor len.toNat str).ensures

/-! ## Numbers of bytes

The sum of the cursor and a number is taken in 32 bits. The address that it is compared with is
in front of the cursor if the sum wraps. -/

variable {n : UInt32}

theorem advanced_of_lt (fits : s + n.toNat < 2 ^ 32) : advanced s n = s + n.toNat :=
  Nat.mod_eq_of_lt fits

theorem advanced_of_le (held : buf.Holds s) (wraps : 2 ^ 32 ≤ s + n.toNat) :
    advanced s n < s := by
  have bounds := held
  have last := buf.bufEnd_lt
  have size := n.toNat_lt
  rw [advanced, Nat.mod_eq_sub_mod wraps, Nat.mod_eq_of_lt (by omega)]
  omega

section
variable (sound : Sound buf scanner)
include sound

theorem ensures_scanPeekN {len : UInt32} (fits : scanner.curptr + len.toNat < 2 ^ 32) :
    (scanPeekN buf len scanner).Ensures (Inside buf) fun out => out.2.Within buf := by
  have bounds := sound.cursor
  rw [scanPeekN, advanced_of_lt fits]
  split_ifs with behind
  · exact Traced.ensures_throw
  · apply Traced.Gives.ensures
    apply (gives_readByte ⟨by omega, by omega⟩).bind
    rintro byte -
    exact Traced.gives_pure ⟨sound.cursor.1, by simp only; omega⟩

theorem ensures_scanGetN (fits : scanner.curptr + n.toNat < 2 ^ 32) :
    (scanGetN buf n scanner).Ensures (Inside buf) (Got buf) := by
  have bounds := sound.cursor
  rw [scanGetN, advanced_of_lt fits]
  split_ifs with behind
  · exact Traced.ensures_throw
  · apply Traced.Gives.ensures
    apply (gives_autoskip (sound.moved ⟨by omega, by omega⟩)).bind
    rintro next nextSound
    exact Traced.gives_pure ⟨⟨sound.cursor.1, by simp only; omega⟩, nextSound⟩

theorem ensures_scanAdvanceN (fits : buf.bufstart ≤ advanced scanner.curptr n) :
    (scanAdvanceN buf n skipWs scanner).Ensures (Inside buf) (Sound buf) := by
  rw [scanAdvanceN]
  split_ifs with behind
  · exact Traced.ensures_throw
  · exact (gives_autoskip (sound.moved ⟨fits, Nat.not_lt.mp behind⟩)).ensures

/-- A sum that wraps passes the test. -/
theorem not_ensures_scanPeekN {len : UInt32} (wraps : ¬scanner.curptr + len.toNat < 2 ^ 32) :
    ¬(scanPeekN buf len scanner).Ensures (Inside buf) fun out => out.2.Within buf := by
  have last := buf.bufEnd_lt
  have front := advanced_of_le sound.cursor (Nat.not_lt.mp wraps)
  have bounds := sound.cursor
  rw [scanPeekN, if_neg (by omega)]
  by_cases held : buf.Holds (advanced scanner.curptr len)
  · apply (gives_readByte held).bind_not
    rintro byte - ensures
    have within := (ensures.2 _ rfl).2
    simp only at within
    omega
  · exact Traced.not_ensures_bind_of_not_all (not_all_readByte held)

theorem not_ensures_scanGetN (wraps : ¬scanner.curptr + n.toNat < 2 ^ 32) :
    ¬(scanGetN buf n scanner).Ensures (Inside buf) fun out => out.1.Within buf := by
  have last := buf.bufEnd_lt
  have front := advanced_of_le sound.cursor (Nat.not_lt.mp wraps)
  have bounds := sound.cursor
  rw [scanGetN, if_neg (by omega)]
  by_cases held : buf.Holds (advanced scanner.curptr n)
  · apply (gives_autoskip (sound.moved held)).bind_not
    rintro next - ensures
    have within := (ensures.2 _ rfl).2
    simp only at within
    omega
  · exact Traced.not_ensures_bind_of_not_all (not_all_autoskip held)

end

theorem not_ensures_scanAdvanceN {post : Scanner → Prop}
    (front : ¬buf.bufstart ≤ advanced scanner.curptr n) :
    ¬(scanAdvanceN buf n skipWs scanner).Ensures (Inside buf) post := by
  have order : buf.bufstart ≤ buf.bufEnd := Nat.le_add_right ..
  rw [scanAdvanceN, if_neg (by omega)]
  exact fun ensures => not_all_autoskip (by simp only; omega) ensures.1

end Pj.ScanMemory
