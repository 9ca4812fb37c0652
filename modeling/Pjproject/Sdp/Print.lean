import Pjproject.Pjlib.Int
import Pjproject.Sdp.Session

/-!
# Printing a session description

The printers of `sdp.c`. Each one takes the length that is left of the buffer, which is an
`int` or is converted to one, and prints a line unless its check of that length fails. A check
that is too small for the line it is for does not show here: the bytes past the end of the
buffer are part of the result.
-/

namespace Pjmedia.Sdp
open Option Pj

/-- What `%.*s` of `snprintf` prints of a string. -/
def cText (str : Str) : Str := str.takeWhile (· ≠ 0)

/-- The end of a line. -/
def crlf : Str := [13, 10]

/-- The connection line. -/
def connLine (c : SdpConn) : Str :=
  ofChars ['c', '='] ++ cText c.netType ++ ofChars [' '] ++ cText c.addrType ++ ofChars [' '] ++
    cText c.addr ++ crlf

/-- `print_connection_info`. -/
def printConnectionInfo (c : SdpConn) (len : Int) : Option Str :=
  if len ≤ (connLine c).length then none else some (connLine c)

/-- The calls of `print_connection_info`, which convert the length that is left to `int`. -/
def printConn (c : SdpConn) (len : Int) : Option Str := printConnectionInfo c (i32 len)

/-- The bandwidth line. -/
def bandwLine (bandw : SdpBandw) : Str :=
  ofChars ['b', '='] ++ bandw.modifier ++ ofChars [':'] ++ pjUtoa bandw.value ++ crlf

/-- `print_bandw`. -/
def printBandw (bandw : SdpBandw) (len : Int) : Option Str :=
  if i32 len < bandw.modifier.length + 10 + 5 then none else some (bandwLine bandw)

/-- The attribute line. -/
def attrLine (attr : SdpAttr) : Str :=
  ofChars ['a', '='] ++ attr.name ++
    (if attr.value = [] then [] else ofChars [':'] ++ attr.value) ++ crlf

/-- `print_attr`. -/
def printAttr (attr : SdpAttr) (len : Int) : Option Str :=
  if i32 len < attr.name.length + attr.value.length + 10 then none else some (attrLine attr)

/-- The loops of the printers over an array: each element gets the length the ones before it
have left. -/
def printEach {α : Type} (print : α → Int → Option Str) : List α → Int → Option Str
  | [], _ => some []
  | element :: rest, len => do
    let line ← print element len
    let lines ← printEach print rest (len - line.length)
    return line ++ lines

/-- The lines a loop prints an optional element as. -/
def printOptional {α : Type} (print : α → Int → Option Str) : Option α → Int → Option Str
  | none, _ => some []
  | some element, len => print element len

/-- The media line. -/
def mediaLine (m : SdpMedia) : Str :=
  ofChars ['m', '='] ++ m.media ++ ofChars [' '] ++ pjUtoa m.port ++
    (if 1 < m.portCount then ofChars ['/'] ++ pjUtoa m.portCount else []) ++ ofChars [' '] ++
    m.transport ++ m.fmt.flatMap (fun fmt => ofChars [' '] ++ fmt) ++ crlf

/-- `print_media_desc`. -/
def printMediaDesc (m : SdpMedia) (len : Int) : Option Str := do
  let len := i32 len
  if len < m.media.length + m.transport.length + 12 + 24 then none
  else
    let line := mediaLine m
    let conn ← printOptional printConn m.conn (len - line.length)
    let bandw ← printEach printBandw m.bandw (len - line.length - conn.length)
    let attr ← printEach printAttr m.attr (len - line.length - conn.length - bandw.length)
    return line ++ conn ++ bandw ++ attr

/-- The version line. -/
def versionLine : Str := ofChars ['v', '=', '0'] ++ crlf

/-- The origin line. -/
def originLine (origin : SdpOrigin) : Str :=
  ofChars ['o', '='] ++ origin.user ++ ofChars [' '] ++ pjUtoa origin.id ++ ofChars [' '] ++
    pjUtoa origin.version ++ ofChars [' '] ++ origin.netType ++ ofChars [' '] ++
    origin.addrType ++ ofChars [' '] ++ origin.addr ++ crlf

/-- The subject line. -/
def nameLine (name : Str) : Str := ofChars ['s', '='] ++ name ++ crlf

/-- The time line. -/
def timeLine (start stop : Nat) : Str :=
  ofChars ['t', '='] ++ pjUtoa start ++ ofChars [' '] ++ pjUtoa stop ++ crlf

/-- `print_session`. -/
def printSession (ses : SdpSession) (len : Int) : Option Str := do
  if len < 5 + 2 + ses.origin.user.length + 18 + ses.origin.netType.length +
      ses.origin.addr.length + 2 then none
  else
    let len := len - versionLine.length - (originLine ses.origin).length
    if len < 8 + ses.name.length then none
    else
      let len := len - (nameLine ses.name).length
      let conn ← printOptional printConn ses.conn len
      let len := len - conn.length
      let bandw ← printEach printBandw ses.bandw len
      let len := len - bandw.length
      if len < 24 then none
      else
        let len := len - (timeLine ses.start ses.stop).length
        let attr ← printEach printAttr ses.attr len
        let media ← printEach printMediaDesc ses.media (len - attr.length)
        return versionLine ++ originLine ses.origin ++ nameLine ses.name ++ conn ++ bandw ++
          timeLine ses.start ses.stop ++ attr ++ media

/-- `pjmedia_sdp_print`: the bytes printed, or none for the result -1. -/
def pjmediaSdpPrint (desc : SdpSession) (size : Nat) : Option Str := printSession desc size

/-! ## The printed text -/

/-- The lines of a media description. -/
def mediaText (m : SdpMedia) : Str :=
  mediaLine m ++ m.conn.elim [] connLine ++ m.bandw.flatMap bandwLine ++ m.attr.flatMap attrLine

/-- The lines of a session description. -/
def sessionText (ses : SdpSession) : Str :=
  versionLine ++ originLine ses.origin ++ nameLine ses.name ++ ses.conn.elim [] connLine ++
    ses.bandw.flatMap bandwLine ++ timeLine ses.start ses.stop ++ ses.attr.flatMap attrLine ++
    ses.media.flatMap mediaText

section
variable {α : Type} {print : α → Int → Option Str} {text : α → Str} {len : Int} {lines : Str}
  (each : ∀ element len line, print element len = some line → line = text element)
include each

/-- What a loop prints, if each element prints as its line. -/
theorem printEach_eq {elements : List α} (h : printEach print elements len = some lines) :
    lines = elements.flatMap text := by
  induction elements generalizing len lines with
  | nil => exact (some.inj h).symm
  | cons element rest ih =>
    simp only [printEach, bind_eq_bind, bind_eq_some_iff, Option.pure_def,
      Option.some.injEq] at h
    obtain ⟨line, hline, later, hlater, rfl⟩ := h
    rw [each _ _ _ hline, ih hlater, List.flatMap_cons]

theorem printOptional_eq {element : Option α} (h : printOptional print element len = some lines) :
    lines = element.elim [] text := by
  cases element with
  | none => exact (some.inj h).symm
  | some element => exact each _ _ _ h

end

theorem printConn_eq (c : SdpConn) (len : Int) (line : Str)
    (h : printConn c len = some line) : line = connLine c := by
  unfold printConn printConnectionInfo at h
  split at h
  · contradiction
  · exact (some.inj h).symm

theorem printBandw_eq (bandw : SdpBandw) (len : Int) (line : Str)
    (h : printBandw bandw len = some line) : line = bandwLine bandw := by
  unfold printBandw at h
  split at h
  · contradiction
  · exact (some.inj h).symm

theorem printAttr_eq (attr : SdpAttr) (len : Int) (line : Str)
    (h : printAttr attr len = some line) : line = attrLine attr := by
  unfold printAttr at h
  split at h
  · contradiction
  · exact (some.inj h).symm

theorem printMediaDesc_eq (m : SdpMedia) (len : Int) (text : Str)
    (h : printMediaDesc m len = some text) : text = mediaText m := by
  simp only [printMediaDesc, ite_none_left_eq_some, bind_eq_bind,
    bind_eq_some_iff, Option.pure_def, Option.some.injEq] at h
  obtain ⟨_, conn, hconn, bandw, hbandw, attr, hattr, rfl⟩ := h
  rw [mediaText, printOptional_eq printConn_eq hconn, printEach_eq printBandw_eq hbandw,
    printEach_eq printAttr_eq hattr]

/-- A print that succeeds prints the lines of the description. -/
theorem pjmediaSdpPrint_eq {ses : SdpSession} {size : Nat} {text : Str}
    (h : pjmediaSdpPrint ses size = some text) : text = sessionText ses := by
  simp only [pjmediaSdpPrint, printSession, ite_none_left_eq_some, bind_eq_bind,
    bind_eq_some_iff, Option.pure_def, Option.some.injEq] at h
  obtain ⟨_, _, conn, hconn, bandw, hbandw, _, attr, hattr, media, hmedia, rfl⟩ := h
  rw [sessionText, printOptional_eq printConn_eq hconn, printEach_eq printBandw_eq hbandw,
    printEach_eq printAttr_eq hattr, printEach_eq printMediaDesc_eq hmedia]

end Pjmedia.Sdp
