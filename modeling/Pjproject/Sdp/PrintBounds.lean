import Pjproject.Sdp.PrintBuffer

/-!
# Bounds of the printers

The checks of the lines `o=`, `t=` and `m=` count too little for some lines, and those are the only
ones that are ever written past the end of the buffer.
-/

namespace Pjmedia.Sdp
open List Pj Traced

/-! ## Lines that are checked well -/

variable {next : Nat → Printer Nat}

/-- No byte is written at or beyond the end. -/
def Written.Inside (stop : Int) (written : Written) : Prop :=
  written.text ≠ [] → written.pos + written.text.length ≤ stop

/-- A printer writes `length` bytes before the end, or fails where less than `slack` bytes more
would be left behind them. -/
structure Careful (run : Printer Nat) (pos : Nat) (stop : Int) (length : Nat) : Prop where
  inside : run.All (Written.Inside stop)
  ends : (run.result = .ok (pos + length) ∧ pos + length ≤ stop) ∨
    (run.result = .error () ∧ stop < pos + length + 24)

variable {pos : Nat} {stop : Int}

theorem Careful.bind {run : Printer Nat} {first second : Nat}
    (careful : Careful run pos stop first)
    (rest : (pos + first : Nat) ≤ stop → Careful (next (pos + first)) (pos + first) stop second) :
    Careful (run >>= next) pos stop (first + second) := by
  rcases careful.ends with ⟨result, room⟩ | ⟨result, full⟩
  · have rest := rest (by omega)
    refine ⟨(all_bind_of_ok result next).mpr ⟨careful.inside, rest.inside⟩, ?_⟩
    rw [result_bind_of_ok result]
    rcases rest.ends with ⟨result', room'⟩ | ⟨result', full'⟩
    · refine Or.inl ⟨?_, by omega⟩
      rw [result', Nat.add_assoc]
    · exact Or.inr ⟨result', by omega⟩
  · refine ⟨all_bind.mpr ⟨careful.inside, fun value ok => ?_⟩, Or.inr ⟨?_, by omega⟩⟩
    · rw [result] at ok
      cases ok
    · exact result_bind_of_error result next

theorem careful_pure (room : pos ≤ stop) : Careful (pure pos) pos stop 0 :=
  ⟨all_pure pos, Or.inl ⟨rfl, by omega⟩⟩

theorem careful_put {line : Str} (room : pos + line.length ≤ stop) :
    Careful (put pos line) pos stop line.length :=
  ⟨forall_mem_singleton.mpr fun _ => room, Or.inl ⟨rfl, room⟩⟩

theorem careful_throw {length : Nat} (full : stop < pos + length + 24) :
    Careful (throw ()) pos stop length :=
  ⟨all_throw (), Or.inr ⟨rfl, full⟩⟩

/-- The length that is left fits in an `int`. -/
theorem i32_left (room : pos ≤ stop) (short : stop < 2 ^ 31) : i32 (stop - pos) = stop - pos := by
  rw [i32_eq, Int.bmod_def]
  split <;> omega

theorem snprintf_inside (text : Str) (room : pos ≤ stop) :
    Written.Inside stop { pos := pos, text := snprintf text (stop - pos).toNat } := by
  unfold Written.Inside snprintf
  dsimp only
  by_cases none : (stop - pos).toNat = 0
  · rw [if_pos none]
    exact fun some => absurd rfl some
  · rw [if_neg none]
    intro _
    rw [length_append, length_take, length_singleton]
    omega

/-- A connection line is cut off where it does not fit. -/
theorem printConnAt_careful (c : SdpConn) (room : pos ≤ stop) (short : stop < 2 ^ 31) :
    Careful (printConnAt c pos (stop - pos)) pos stop (connLine c).length := by
  have left : u32 (i32 (stop - pos)) = (stop - pos).toNat := by
    rw [i32_left room short, u32_eq]
    omega
  have inside : (access [{ pos := pos, text := snprintf (connLine c) (u32 (i32 (stop - pos))) }] () :
      Printer Unit).All (Written.Inside stop) := by
    rw [left]
    exact forall_mem_singleton.mpr (snprintf_inside _ room)
  unfold printConnAt
  constructor
  · rw [all_bind_of_ok (result_access _ _)]
    refine ⟨inside, ?_⟩
    split
    · exact all_throw ()
    · exact all_pure _
  · rw [result_bind_of_ok (result_access _ _), i32_left room short]
    by_cases full : stop - pos ≤ (connLine c).length
    · rw [if_pos full]
      exact Or.inr ⟨rfl, by omega⟩
    · rw [if_neg full]
      exact Or.inl ⟨rfl, by omega⟩

/-- A number has as many digits as a bound that is above it has zeros. -/
theorem utoaDigits_length (fuel : Nat) {val digits : Nat} (bound : val < 10 ^ (digits + 1)) :
    (utoaDigits fuel val).length ≤ digits + 1 := by
  induction fuel generalizing val digits with
  | zero => exact Nat.zero_le _
  | succ fuel ih =>
    apply Nat.succ_le_succ
    by_cases last : val / 10 = 0
    · rw [if_pos last]
      exact Nat.zero_le _
    · rw [if_neg last]
      cases digits with
      | zero =>
        omega
      | succ digits =>
        exact ih (by omega)

theorem pjUtoa_length {val : Nat} (bound : val < 2 ^ 32) : (pjUtoa val).length ≤ 10 := by
  rw [pjUtoa, length_reverse, length_map]
  exact utoaDigits_length 20 (Nat.lt_trans bound (by decide))

theorem pjUtoa_length_pos (val : Nat) : 0 < (pjUtoa val).length :=
  length_pos_of_ne_nil (pjUtoa_ne_nil val)

theorem bandwLine_length (bandw : SdpBandw) :
    (bandwLine bandw).length = bandw.modifier.length + 5 + (pjUtoa bandw.value).length := by
  simp only [bandwLine, ofChars, crlf, length_append, length_map, length_cons,
    length_nil]
  omega

theorem attrLine_length (attr : SdpAttr) :
    (attrLine attr).length =
      attr.name.length + attr.value.length + 4 + if attr.value = [] then 0 else 1 := by
  unfold attrLine
  by_cases empty : attr.value = []
  · rw [if_pos empty, if_pos empty, empty]
    simp only [ofChars, crlf, length_append, length_map, length_cons,
      length_nil]
    omega
  · rw [if_neg empty, if_neg empty]
    simp only [ofChars, crlf, length_append, length_map, length_cons,
      length_nil]
    omega

/-- The check of a bandwidth line counts the digits of a word. -/
theorem printBandwAt_careful {bandw : SdpBandw} (word : bandw.value < 2 ^ 32) (room : pos ≤ stop)
    (short : stop < 2 ^ 31) :
    Careful (printBandwAt bandw pos (stop - pos)) pos stop (bandwLine bandw).length := by
  have length := bandwLine_length bandw
  have most := pjUtoa_length word
  have least := pjUtoa_length_pos bandw.value
  unfold printBandwAt
  rw [i32_left room short]
  split
  · exact careful_throw (by omega)
  · exact careful_put (by omega)

theorem printAttrAt_careful (attr : SdpAttr) (room : pos ≤ stop) (short : stop < 2 ^ 31) :
    Careful (printAttrAt attr pos (stop - pos)) pos stop (attrLine attr).length := by
  have length := attrLine_length attr
  unfold printAttrAt
  rw [i32_left room short]
  split
  · exact careful_throw (by omega)
  · apply careful_put
    split at length <;> omega

/-- A loop over elements that are printed carefully. -/
theorem printEachAt_careful {α : Type} {print : α → Nat → Int → Printer Nat} {text : α → Str}
    {elements : List α}
    (each : ∀ element ∈ elements, ∀ pos : Nat, pos ≤ stop →
      Careful (print element pos (stop - pos)) pos stop (text element).length)
    (room : pos ≤ stop) :
    Careful (printEachAt print stop elements pos) pos stop (elements.flatMap text).length := by
  induction elements generalizing pos with
  | nil => exact careful_pure room
  | cons element rest ih =>
    rw [flatMap_cons, length_append]
    refine (each element mem_cons_self pos room).bind fun room => ?_
    exact ih (fun other member => each other (mem_cons_of_mem _ member)) room

/-! ## The other lines -/

variable {medias : List SdpMedia}

/-- No byte is written at or beyond the end, and a length that is returned is not beyond it. -/
def Contained (stop : Int) (run : Printer Nat) : Prop :=
  run.All (Written.Inside stop) ∧ ∀ length : Nat, run.result = .ok length → length ≤ stop

/-- The check of each `m=` line fails or the line fits, in what the media before leave of `left`
bytes. -/
def LinesFit : List SdpMedia → Int → Prop
  | [], _ => True
  | m :: rest, left =>
    (left < m.media.length + m.transport.length + 12 + 24 ∨ (mediaLine m).length ≤ left) ∧
      LinesFit rest (left - (mediaText m).length)

/-- The checks of the lines `o=`, `t=` and `m=` fail or the lines fit in `len` bytes. -/
def SessionFits (ses : SdpSession) (len : Int) : Prop :=
  let left := len - 5 - (originLine ses.origin).length - (nameLine ses.name).length -
    (ses.conn.elim [] connLine).length - (ses.bandw.flatMap bandwLine).length
  (len < 5 + 2 + ses.origin.user.length + 18 + ses.origin.netType.length +
        ses.origin.addr.length + 2 ∨
      5 + (originLine ses.origin).length ≤ len) ∧
    (left < 24 ∨ (timeLine ses.start ses.stop).length ≤ left) ∧
      LinesFit ses.media
        (left - (timeLine ses.start ses.stop).length - (ses.attr.flatMap attrLine).length)

/-- A bandwidth value is an `unsigned`. -/
def BandwWords (bandw : List SdpBandw) : Prop := ∀ b ∈ bandw, b.value < 2 ^ 32

theorem linesFit_of_full {left : Int} (full : left < 36) :
    LinesFit medias left := by
  induction medias generalizing left with
  | nil => trivial
  | cons m rest ih => exact ⟨Or.inl (by omega), ih (by omega)⟩

theorem contained_throw : Contained stop (throw ()) := ⟨all_throw (), nofun⟩

/-- A line that has not been checked, and what comes behind it. -/
theorem contained_put {line : Str} (some : line ≠ []) :
    Contained stop (put pos line >>= next) ↔
      pos + line.length ≤ stop ∧ Contained stop (next (pos + line.length)) := by
  have result : (put pos line).result = .ok (pos + line.length) := rfl
  have written : (put pos line).All (Written.Inside stop) ↔ pos + line.length ≤ stop :=
    forall_mem_singleton.trans (forall_prop_of_true some)
  unfold Contained
  rw [all_bind_of_ok result, result_bind_of_ok result, written, and_assoc]

/-- What comes behind a careful part, if it is contained where the part fails. -/
theorem Careful.contained {run : Printer Nat} {length : Nat} {fits : Prop}
    (careful : Careful run pos stop length)
    (rest : (pos + length : Nat) ≤ stop → (Contained stop (next (pos + length)) ↔ fits))
    (full : stop < pos + length + 24 → fits) :
    Contained stop (run >>= next) ↔ fits := by
  rcases careful.ends with ⟨result, room⟩ | ⟨result, left⟩
  · rw [← rest (by omega)]
    unfold Contained
    rw [all_bind_of_ok result, result_bind_of_ok result, and_iff_right careful.inside]
  · refine iff_of_true ⟨all_bind.mpr ⟨careful.inside, fun value ok => ?_⟩, fun value ok => ?_⟩
      (full left)
    · rw [result] at ok
      cases ok
    · rw [result_bind_of_error result] at ok
      cases ok

theorem toList_flatMap (conn : Option SdpConn) :
    conn.toList.flatMap connLine = conn.elim [] connLine := by
  cases conn with
  | none => rfl
  | some c => exact flatMap_singleton ..

theorem mediaLine_length (m : SdpMedia) :
    m.media.length + m.transport.length + 7 ≤ (mediaLine m).length := by
  have digits := pjUtoa_length_pos m.port
  simp only [mediaLine, ofChars, crlf, length_append, length_map, length_cons,
    length_nil]
  omega

theorem printConns_careful (conn : Option SdpConn) (room : pos ≤ stop) (short : stop < 2 ^ 31) :
    Careful (printEachAt printConnAt stop conn.toList pos) pos stop
      (conn.elim [] connLine).length := by
  rw [← toList_flatMap]
  exact printEachAt_careful (fun c _ _ room => printConnAt_careful c room short) room

theorem printBandws_careful {bandw : List SdpBandw} (words : BandwWords bandw) (room : pos ≤ stop)
    (short : stop < 2 ^ 31) :
    Careful (printEachAt printBandwAt stop bandw pos) pos stop (bandw.flatMap bandwLine).length :=
  printEachAt_careful (fun b member _ room => printBandwAt_careful (words b member) room short) room

theorem printAttrs_careful (attr : List SdpAttr) (room : pos ≤ stop) (short : stop < 2 ^ 31) :
    Careful (printEachAt printAttrAt stop attr pos) pos stop (attr.flatMap attrLine).length :=
  printEachAt_careful (fun a _ _ room => printAttrAt_careful a room short) room

/-- The lines behind an `m=` line. -/
theorem mediaRest_careful {m : SdpMedia} (words : BandwWords m.bandw) (room : pos ≤ stop)
    (short : stop < 2 ^ 31) :
    Careful
      (printEachAt printConnAt stop m.conn.toList pos >>= fun pos =>
        printEachAt printBandwAt stop m.bandw pos >>= fun pos =>
          printEachAt printAttrAt stop m.attr pos)
      pos stop
      ((m.conn.elim [] connLine).length +
        ((m.bandw.flatMap bandwLine).length + (m.attr.flatMap attrLine).length)) :=
  (printConns_careful m.conn room short).bind fun room =>
    (printBandws_careful words room short).bind fun room => printAttrs_careful m.attr room short

/-- The media are printed inside the buffer exactly if their lines fit. -/
theorem printMedias_contained (words : ∀ m ∈ medias, BandwWords m.bandw) (room : pos ≤ stop)
    (short : stop < 2 ^ 31) :
    Contained stop (printEachAt printMediaDescAt stop medias pos) ↔
      LinesFit medias (stop - pos) := by
  induction medias generalizing pos with
  | nil =>
    refine iff_of_true ⟨all_pure pos, fun length ok => ?_⟩ trivial
    cases ok
    exact room
  | cons m rest ih =>
    have ih := fun pos => @ih pos fun other member => words other (mem_cons_of_mem _ member)
    have line := mediaLine_length m
    have text : (mediaText m).length = (mediaLine m).length + ((m.conn.elim [] connLine).length +
        ((m.bandw.flatMap bandwLine).length + (m.attr.flatMap attrLine).length)) := by
      simp only [mediaText, length_append]
      omega
    have behind : (pos : Int) + (stop - pos) = stop := by omega
    rw [printEachAt, printMediaDescAt, LinesFit, i32_left room short, behind]
    by_cases guarded : stop - pos < m.media.length + m.transport.length + 12 + 24
    · rw [if_pos guarded]
      exact iff_of_true ⟨all_bind.mpr ⟨all_throw (), by intro _ h; cases h⟩, by intro _ h; cases h⟩
        ⟨Or.inl guarded, linesFit_of_full (by omega)⟩
    rw [if_neg guarded, bind_bind, contained_put (by simp [mediaLine, ofChars]),
      or_iff_right guarded]
    by_cases fits : (pos + (mediaLine m).length : Int) ≤ stop
    · rw [and_iff_right fits, and_iff_right (by omega)]
      refine Careful.contained (mediaRest_careful (words m mem_cons_self) (by omega) short)
        (fun room => ?_) fun full => linesFit_of_full (by omega)
      rw [ih _ room]
      exact iff_of_eq (congrArg (LinesFit rest) (by omega))
    · refine iff_of_false (fun all => fits all.1) fun all => ?_
      exact fits (by omega)

/-- The time line, and what is printed behind it. -/
theorem printTime_contained {ses : SdpSession}
    (words : ∀ m ∈ ses.media, BandwWords m.bandw) (room : pos ≤ stop) (short : stop < 2 ^ 31) :
    Contained stop
        (if stop - pos < 24 then throw ()
        else put pos (timeLine ses.start ses.stop) >>= fun pos =>
          printEachAt printAttrAt stop ses.attr pos >>= fun pos =>
            printEachAt printMediaDescAt stop ses.media pos) ↔
      (stop - pos < 24 ∨ (timeLine ses.start ses.stop).length ≤ stop - pos) ∧
        LinesFit ses.media
          (stop - pos - (timeLine ses.start ses.stop).length -
            (ses.attr.flatMap attrLine).length) := by
  by_cases guarded : stop - pos < 24
  · rw [if_pos guarded]
    exact iff_of_true contained_throw ⟨Or.inl guarded, linesFit_of_full (by omega)⟩
  rw [if_neg guarded, contained_put (by simp [timeLine, ofChars]), or_iff_right guarded]
  by_cases fits : (pos + (timeLine ses.start ses.stop).length : Int) ≤ stop
  · rw [and_iff_right fits, and_iff_right (by omega)]
    refine (printAttrs_careful ses.attr (by omega) short).contained (fun room => ?_)
      fun full => linesFit_of_full (by omega)
    rw [printMedias_contained words room short]
    exact iff_of_eq (congrArg (LinesFit ses.media) (by omega))
  · refine iff_of_false (fun all => fits all.1) fun all => ?_
    exact fits (by omega)

theorem originLine_length (origin : SdpOrigin) :
    11 + origin.user.length + origin.netType.length + origin.addr.length ≤
      (originLine origin).length := by
  have id := pjUtoa_length_pos origin.id
  have version := pjUtoa_length_pos origin.version
  simp only [originLine, ofChars, crlf, length_append, length_map, length_cons,
    length_nil]
  omega

theorem nameLine_length (name : Str) : (nameLine name).length = name.length + 4 := by
  simp only [nameLine, ofChars, crlf, length_append, length_map, length_cons,
    length_nil]
  omega

/-- The printer stays inside the buffer exactly if the checks of the lines `o=`, `t=` and `m=`
fail or those lines fit. -/
theorem printSession_contained {ses : SdpSession} (words : BandwWords ses.bandw)
    (mediaWords : ∀ m ∈ ses.media, BandwWords m.bandw) (short : stop < 2 ^ 31) :
    Contained stop (printSessionAt ses stop) ↔ SessionFits ses stop := by
  have originLength := originLine_length ses.origin
  have nameLength := nameLine_length ses.name
  unfold printSessionAt SessionFits
  by_cases guarded : stop < 5 + 2 + ses.origin.user.length + 18 + ses.origin.netType.length +
      ses.origin.addr.length + 2
  · rw [if_pos guarded]
    exact iff_of_true contained_throw
      ⟨Or.inl guarded, Or.inl (by omega), linesFit_of_full (by omega)⟩
  have five : versionLine.length = 5 := rfl
  rw [if_neg guarded, contained_put (by decide), contained_put (by simp [originLine, ofChars]),
    or_iff_right guarded, five]
  by_cases origin : (5 + (originLine ses.origin).length : Int) ≤ stop
  swap
  · exact iff_of_false (fun all => origin (by omega)) fun all => origin all.1
  rw [and_iff_right (by omega), and_iff_right (by omega), and_iff_right origin]
  generalize len : 0 + 5 + (originLine ses.origin).length = written
  by_cases named : stop - written < 8 + ses.name.length
  · rw [if_pos named]
    exact iff_of_true contained_throw ⟨Or.inl (by omega), linesFit_of_full (by omega)⟩
  rw [if_neg named, contained_put (by simp [nameLine, ofChars]), and_iff_right (by omega)]
  refine (printConns_careful ses.conn (by omega) short).contained (fun room => ?_) fun full =>
    ⟨Or.inl (by omega), linesFit_of_full (by omega)⟩
  refine (printBandws_careful words room short).contained (fun room => ?_) fun full =>
    ⟨Or.inl (by omega), linesFit_of_full (by omega)⟩
  refine (printTime_contained mediaWords room short).trans ?_
  have left : stop - 5 - (originLine ses.origin).length - (nameLine ses.name).length -
        (ses.conn.elim [] connLine).length - (ses.bandw.flatMap bandwLine).length =
      stop - (written + (nameLine ses.name).length + (ses.conn.elim [] connLine).length +
        (ses.bandw.flatMap bandwLine).length : Nat) := by omega
  rw [left]

/-- For every size of a buffer, printing stays inside it exactly if the checks of the lines `o=`,
`t=` and `m=` fail or those lines fit. A size that is no `pj_ssize_t` is negative. -/
theorem pjmediaSdpPrint_contained_iff {ses : SdpSession} (words : BandwWords ses.bandw)
    (mediaWords : ∀ m ∈ ses.media, BandwWords m.bandw) (size : UInt32) :
    Contained size.toNat (pjmediaSdpPrintAt ses size) ↔ SessionFits ses (i32 size.toNat) := by
  have bound := size.toNat_lt
  unfold pjmediaSdpPrintAt
  by_cases short : size.toNat < 2 ^ 31
  · rw [i32_natCast short]
    exact printSession_contained words mediaWords (by omega)
  · have negative : i32 size.toNat < 0 := by
      rw [i32_eq, Int.bmod_def]
      split <;> omega
    rw [← printSession_contained words mediaWords (by omega)]
    unfold printSessionAt
    rw [if_pos (by omega)]
    exact iff_of_true contained_throw contained_throw

/-- A session without media, with an ID and a version of ten digits. -/
def longSession : SdpSession :=
  { SdpSession.zero with
    origin :=
      { user := ofChars ['-'], id := 4294967295, version := 4294967295
        netType := ofChars ['I', 'N'], addrType := ofChars ['I', 'P', '4']
        addr := ofChars ['1', '.', '2', '.', '3', '.', '4'] } }

theorem longSession_words : BandwWords longSession.bandw := forall_mem_nil _

theorem longSession_mediaWords : ∀ m ∈ longSession.media, BandwWords m.bandw :=
  forall_mem_nil _

theorem pjmediaSdpPrint_contained_long :
    Contained (100 : UInt32).toNat (pjmediaSdpPrintAt longSession 100) ↔
      SessionFits longSession (i32 (100 : UInt32).toNat) :=
  pjmediaSdpPrint_contained_iff longSession_words longSession_mediaWords 100

/-- The check of the line `o=` leaves room for 37 bytes, and 47 are written. -/
theorem pjmediaSdpPrint_outside :
    ¬Contained (37 : UInt32).toNat (pjmediaSdpPrintAt longSession 37) := by
  intro contained
  have fits := (printSession_contained longSession_words longSession_mediaWords (by decide)).mp
    contained
  exact absurd fits.1 (by decide)

end Pjmedia.Sdp
