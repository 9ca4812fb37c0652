import Pjproject.Lib.Traced
import Pjproject.Pjlib.ByteOrder
import Pjproject.Sdp.Print

/-!
# Printing to a buffer

The printers of `sdp.c` again, with the positions they write to: a printer that fails has written
the lines before. A `pj_ssize_t` and a difference of pointers have 32 bits. The printers leave the
text in the buffer that the description prints as.
-/

namespace Pjmedia.Sdp
open Option Pj Traced

/-- Some bytes that are written from a position of the buffer on. -/
structure Written where
  pos : Nat
  text : Str
deriving DecidableEq, Repr

/-- A printer logs what it writes and returns the position behind it. Failing stands for -1. -/
abbrev Printer := Traced Written Unit

/-- Copies a line that has been checked. -/
def put (pos : Nat) (line : Str) : Printer Nat :=
  access [{ pos := pos, text := line }] (pos + line.length)

/-- What `snprintf` writes of a text to `n` bytes. -/
def snprintf (text : Str) (n : Nat) : Str := if n = 0 then [] else text.take (n - 1) ++ [0]

/-- The calls of `print_connection_info`. -/
def printConnAt (c : SdpConn) (pos : Nat) (len : Int) : Printer Nat := do
  access [{ pos := pos, text := snprintf (connLine c) (u32 (i32 len)) }] ()
  if i32 len ≤ (connLine c).length then throw () else return pos + (connLine c).length

/-- `print_bandw`. -/
def printBandwAt (bandw : SdpBandw) (pos : Nat) (len : Int) : Printer Nat :=
  if i32 len < bandw.modifier.length + 10 + 5 then throw () else put pos (bandwLine bandw)

/-- `print_attr`. -/
def printAttrAt (attr : SdpAttr) (pos : Nat) (len : Int) : Printer Nat :=
  if i32 len < attr.name.length + attr.value.length + 10 then throw () else put pos (attrLine attr)

/-- The loops of the printers over an array, up to the end `stop`. -/
def printEachAt {α : Type} (print : α → Nat → Int → Printer Nat) (stop : Int) :
    List α → Nat → Printer Nat
  | [], pos => return pos
  | element :: rest, pos => do
    let pos ← print element pos (stop - pos)
    printEachAt print stop rest pos

/-- `print_media_desc`. -/
def printMediaDescAt (m : SdpMedia) (pos : Nat) (len : Int) : Printer Nat :=
  let stop := pos + i32 len
  if i32 len < m.media.length + m.transport.length + 12 + 24 then throw ()
  else do
    let pos ← put pos (mediaLine m)
    let pos ← printEachAt printConnAt stop m.conn.toList pos
    let pos ← printEachAt printBandwAt stop m.bandw pos
    printEachAt printAttrAt stop m.attr pos

/-- `print_session`. -/
def printSessionAt (ses : SdpSession) (len : Int) : Printer Nat :=
  if len < 5 + 2 + ses.origin.user.length + 18 + ses.origin.netType.length +
      ses.origin.addr.length + 2 then throw ()
  else do
    let pos ← put 0 versionLine
    let pos ← put pos (originLine ses.origin)
    if len - pos < 8 + ses.name.length then throw ()
    else
      let pos ← put pos (nameLine ses.name)
      let pos ← printEachAt printConnAt len ses.conn.toList pos
      let pos ← printEachAt printBandwAt len ses.bandw pos
      if len - pos < 24 then throw ()
      else
        let pos ← put pos (timeLine ses.start ses.stop)
        let pos ← printEachAt printAttrAt len ses.attr pos
        printEachAt printMediaDescAt len ses.media pos

/-- `pjmedia_sdp_print`. -/
def pjmediaSdpPrintAt (desc : SdpSession) (size : UInt32) : Printer Nat :=
  printSessionAt desc (i32 size.toNat)

/-! ## What is printed -/

/-- The buffer after some writes. -/
def stored (memory : Nat → UInt8) (log : List Written) : Nat → UInt8 :=
  log.foldl (fun memory written i =>
    if written.pos ≤ i then written.text.getD (i - written.pos) (memory i) else memory i) memory

/-- The result of printing a text from a position on. -/
def endsAt (pos : Nat) (text : Option Str) : Except Unit Nat :=
  text.elim (.error ()) fun text => .ok (pos + text.length)

/-- A printer returns where a text ends that it leaves in the buffer from a position on, or fails
where there is none, and writes nothing before the position. -/
structure Prints (run : Printer Nat) (pos : Nat) (text : Option Str) : Prop where
  result : run.result = endsAt pos text
  behind : run.All fun written => pos ≤ written.pos
  holds : ∀ lines ∈ text, ∀ memory, Holds (stored memory run.log) pos lines

variable {run : Printer Nat} {pos : Nat} {text : Option Str} {memory : Nat → UInt8}

/-- Writes behind a position keep what is before it. -/
theorem stored_before {log : List Written} {i : Nat} (behind : ∀ written ∈ log, i < written.pos) :
    stored memory log i = memory i := by
  induction log generalizing memory with
  | nil => rfl
  | cons written rest ih =>
    have ⟨first, later⟩ := List.forall_mem_cons.mp behind
    exact (ih later).trans (if_neg (Nat.not_le.mpr first))

theorem holds_congr {memory' : Nat → UInt8} {line : Str}
    (same : ∀ i < pos + line.length, memory' i = memory i) (held : Holds memory pos line) :
    Holds memory' pos line := by
  induction line generalizing pos with
  | nil => trivial
  | cons byte rest ih =>
    rw [List.length_cons] at same
    exact ⟨(same pos (by omega)).trans held.1, ih (fun i low => same i (by omega)) held.2⟩

/-- A write leaves the start of its text. -/
theorem holds_written {before line behind : Str} :
    Holds (stored memory [⟨pos, before ++ (line ++ behind)⟩]) (pos + before.length) line := by
  induction line generalizing before with
  | nil => trivial
  | cons byte rest ih =>
    have next := @ih (before ++ [byte])
    rw [List.append_assoc, List.length_append, ← Nat.add_assoc] at next
    refine ⟨?_, next⟩
    simp [stored]

theorem prints_throw : Prints (throw ()) pos none :=
  ⟨rfl, all_throw (), nofun⟩

theorem prints_pure : Prints (pure pos) pos (some []) :=
  ⟨rfl, all_pure pos, fun _ same _ => some.inj same ▸ trivial⟩

theorem prints_put (pos : Nat) (line : Str) : Prints (put pos line) pos (some line) := by
  refine ⟨rfl, ?_, ?_⟩
  · exact List.forall_mem_singleton.mpr (Nat.le_refl pos)
  · intro lines same memory
    cases same
    have held := @holds_written pos memory [] line []
    rwa [List.append_nil] at held

/-- A text and what comes behind it. -/
def followed (text : Option Str) (rest : Str → Option Str) : Option Str :=
  text.bind fun line => (rest line).bind fun lines => some (line ++ lines)

/-- What comes behind a part is printed where the part ends. -/
theorem Prints.bind {next : Nat → Printer Nat} {rest : Str → Option Str} (h : Prints run pos text)
    (later : ∀ line, Prints (next (pos + line.length)) (pos + line.length) (rest line)) :
    Prints (run >>= next) pos (followed text rest) := by
  have ⟨result, behind, holds⟩ := h
  cases text with
  | none =>
    refine ⟨result_bind_of_error result next, all_bind.mpr ⟨behind, ?_⟩, nofun⟩
    intro value same
    cases result.symm.trans same
  | some line =>
    have second := later line
    constructor
    · rw [result_bind_of_ok result, second.result, followed, bind_some]
      cases rest line with
      | none => rfl
      | some lines =>
        apply congrArg Except.ok
        rw [List.length_append, Nat.add_assoc]
    · refine (all_bind_of_ok result next).mpr ⟨behind, fun written logged => ?_⟩
      exact Nat.le_trans (Nat.le_add_right _ _) (second.behind written logged)
    · intro lines same memory
      have log : (run >>= next).log = run.log ++ (next (pos + line.length)).log := by
        simp only [Bind.bind, result, endsAt, elim_some]
      rw [followed, bind_some] at same
      have ⟨lines', last, joined⟩ := bind_eq_some_iff.mp same
      cases joined
      rw [log, stored, List.foldl_append]
      refine holds_append.mpr ⟨holds_congr ?_ (holds line rfl memory), second.holds lines' last _⟩
      exact fun i low => stored_before fun written logged => Nat.lt_of_lt_of_le low
        (second.behind written logged)

theorem Prints.unless {short short' : Prop} [Decidable short] [Decidable short']
    (h : Prints run pos text) (same : short ↔ short') :
    Prints (if short then throw () else run) pos (if short' then none else text) := by
  simp only [same]
  split
  · exact prints_throw
  · exact h

theorem unless_bind {short : Prop} [Decidable short] {rest : Str → Option Str} :
    (if short then none else text).bind rest = if short then none else text.bind rest := by
  split <;> rfl

theorem printConnAt_prints (c : SdpConn) (pos : Nat) (len : Int) :
    Prints (printConnAt c pos len) pos (printConn c len) := by
  have behind : pos ≤ pos := Nat.le_refl pos
  unfold printConnAt printConn printConnectionInfo
  split
  · exact ⟨rfl, List.forall_mem_singleton.mpr behind, nofun⟩
  · next room =>
    refine ⟨rfl, List.forall_mem_singleton.mpr behind, ?_⟩
    intro lines same memory
    cases same
    have whole : snprintf (connLine c) (u32 (i32 len)) = connLine c ++ [0] := by
      have enough : (connLine c).length < u32 (i32 len) := by
        rw [u32_eq]
        have small : i32 len < 2 ^ 31 := BitVec.toInt_lt
        omega
      rw [snprintf, if_neg (by omega), List.take_of_length_le (by omega)]
    have held := @holds_written pos memory [] (connLine c) [0]
    rw [List.nil_append, ← whole] at held
    exact held

theorem printBandwAt_prints (bandw : SdpBandw) (pos : Nat) (len : Int) :
    Prints (printBandwAt bandw pos len) pos (printBandw bandw len) :=
  (prints_put pos (bandwLine bandw)).unless .rfl

theorem printAttrAt_prints (attr : SdpAttr) (pos : Nat) (len : Int) :
    Prints (printAttrAt attr pos len) pos (printAttr attr len) :=
  (prints_put pos (attrLine attr)).unless .rfl

/-- A loop of a printer in the space that is left. -/
theorem printEachAt_prints {α : Type} {print : α → Int → Option Str}
    {printAt : α → Nat → Int → Printer Nat}
    (each : ∀ element pos len, Prints (printAt element pos len) pos (print element len))
    (elements : List α) {stop len : Int} (left : stop - pos = len) :
    Prints (printEachAt printAt stop elements pos) pos (printEach print elements len) := by
  cases left
  induction elements generalizing pos with
  | nil => exact prints_pure
  | cons element rest ih =>
    have h := (each element pos (stop - pos)).bind fun line => @ih (pos + line.length)
    simp only [Int.natCast_add, ← Int.sub_sub] at h
    exact h

theorem printConnsAt_prints (conn : Option SdpConn) {stop len : Int} (left : stop - pos = len) :
    Prints (printEachAt printConnAt stop conn.toList pos) pos
      (printOptional printConn conn len) := by
  have h := printEachAt_prints printConnAt_prints conn.toList left
  cases conn with
  | none => exact h
  | some c => simpa [printEach, printOptional] using h

theorem printMediaDescAt_prints (m : SdpMedia) (pos : Nat) (len : Int) :
    Prints (printMediaDescAt m pos len) pos (printMediaDesc m len) := by
  have text : printMediaDesc m len =
      if i32 len < m.media.length + m.transport.length + 12 + 24 then none
      else followed (some (mediaLine m)) fun line =>
        followed (printOptional printConn m.conn (i32 len - line.length)) fun conn =>
        followed (printEach printBandw m.bandw (i32 len - line.length - conn.length)) fun bandw =>
        printEach printAttr m.attr (i32 len - line.length - conn.length - bandw.length) := by
    simp [printMediaDesc, followed, Option.bind_assoc]
  rw [text]
  exact .unless (.bind (prints_put pos (mediaLine m)) fun line =>
    .bind (printConnsAt_prints m.conn (by omega)) fun conn =>
    .bind (printEachAt_prints printBandwAt_prints m.bandw (by omega)) fun bandw =>
    printEachAt_prints printAttrAt_prints m.attr (by omega)) .rfl

/-- `pjmedia_sdp_print` fails where the description does not print in the size as a `pj_ssize_t`, and
else leaves its text at the start of the buffer and returns its length. -/
theorem pjmediaSdpPrintAt_prints (desc : SdpSession) (size : UInt32) :
    Prints (pjmediaSdpPrintAt desc size) 0 (printSession desc (i32 size.toNat)) := by
  unfold pjmediaSdpPrintAt
  generalize i32 size.toNat = len
  have text : printSession desc len =
      if len < 5 + 2 + desc.origin.user.length + 18 + desc.origin.netType.length +
        desc.origin.addr.length + 2 then none
      else followed (some versionLine) fun version =>
        followed (some (originLine desc.origin)) fun origin =>
        let len := len - version.length - origin.length
        if len < 8 + desc.name.length then none
        else followed (some (nameLine desc.name)) fun name =>
          let len := len - name.length
          followed (printOptional printConn desc.conn len) fun conn =>
          followed (printEach printBandw desc.bandw (len - conn.length)) fun bandw =>
          let len := len - conn.length - bandw.length
          if len < 24 then none
          else followed (some (timeLine desc.start desc.stop)) fun time =>
            followed (printEach printAttr desc.attr (len - time.length)) fun attr =>
            printEach printMediaDesc desc.media (len - time.length - attr.length) := by
    simp [printSession, followed, Option.bind_assoc, unless_bind]
  rw [text]
  refine .unless (.bind (prints_put 0 versionLine) fun version =>
    .bind (prints_put _ (originLine desc.origin)) fun origin => ?_) .rfl
  refine .unless (.bind (prints_put _ (nameLine desc.name)) fun name =>
    .bind (printConnsAt_prints desc.conn (by omega)) fun conn =>
    .bind (printEachAt_prints printBandwAt_prints desc.bandw (by omega)) fun bandw => ?_) (by omega)
  exact .unless (.bind (prints_put _ (timeLine desc.start desc.stop)) fun time =>
    .bind (printEachAt_prints printAttrAt_prints desc.attr (by omega)) fun attr =>
    printEachAt_prints printMediaDescAt_prints desc.media (by omega)) (by omega)

end Pjmedia.Sdp
