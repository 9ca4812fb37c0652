import Pjproject.Dns.Parse

/-!
# Printing DNS packets

The encoder of `dns_server.c`. What is printed is appended to the packet so far, and the number of
bytes that are left is an `int`. A function has no result where the C returns -1.
-/

namespace Pj.Dns

/-- `MAX_PKT`. -/
def maxPkt : Int := 1500

/-- `MAX_LABEL`. -/
def maxLabel : Nat := 32

/-- An entry of `label_tab`: the position of a name and the length of its label, whose bytes are
in the packet behind that position. -/
structure Entry where
  pos : Nat
  slen : Nat
deriving DecidableEq, Repr

/-- The bytes of the label. -/
def Entry.label (entry : Entry) (pkt : Str) : Str := (pkt.drop (entry.pos + 1)).take entry.slen

/-- `write16`. -/
def write16 (val : UInt16) : Str := [UInt8.ofNat (val.toNat / 256), UInt8.ofNat val.toNat]

/-- `write32`. -/
def write32 (val : UInt32) : Str :=
  write16 (UInt16.ofNat (val.toNat / 65536)) ++ write16 (UInt16.ofNat val.toNat)

/-- The labels that the loop of `print_name` takes, after the bytes of the first one so far. -/
def takeLabels (label : Str) : Str → List Str
  | [] => if label = [] then [] else [label]
  | byte :: rest =>
    if byte = 46 then label :: takeLabels [] rest else takeLabels (label ++ [byte]) rest

/-- The labels and the root. -/
def printLabels (size : Int) : List Str → Option Str
  | [] => if size = 0 then none else some [0]
  | label :: rest =>
    if size < label.length + 1 then none
    else (printLabels (size - (label.length + 1)) rest).map fun text =>
      UInt8.ofNat label.length :: label ++ text

/-- `print_name`. -/
def printName (pkt : Str) (size : Int) (name : Str) (tab : List Entry) :
    Option (Str × List Entry) :=
  match tab.find? fun entry => entry.label pkt = name with
  | some entry => some (write16 (UInt16.ofNat entry.pos ||| 0xc000), tab)
  | none => do
    let tab := if tab.length < maxLabel then tab ++ [{ pos := pkt.length, slen := name.length }]
      else tab
    let text ← printLabels size (takeLabels [] name)
    return (text, tab)

/-- The data of a record and its length, in `print_rr`. A record has the member of the union that
belongs to its type. The length is written after the data, here two zeros stand in its place until
then. -/
def printRdata (pkt : Str) (size : Int) (type : UInt16) (rdata : Rdata) (tab : List Entry) :
    Option (Str × List Entry) :=
  match rdata with
  | .addr ipAddr =>
    if type = typeA then
      if size < 6 then none else some (write16 4 ++ ipAddr, tab)
    else if type = typeAaaa then
      if size < 18 then none else some (write16 16 ++ ipAddr, tab)
    else none
  | .name name =>
    if hasName type then
      if size < 4 then none
      else do
        let (text, tab) ← printName (pkt ++ [0, 0]) (size - 2) name tab
        return (write16 (UInt16.ofNat text.length) ++ text, tab)
    else none
  | .srv prio weight port target =>
    if type = typeSrv then
      if size < 10 then none
      else do
        let fields := write16 prio ++ write16 weight ++ write16 port
        let (text, tab) ← printName (pkt ++ [0, 0] ++ fields) (size - 8) target tab
        return (write16 (UInt16.ofNat (text.length + 6)) ++ fields ++ text, tab)
    else none
  | .raw _ => none

/-- `print_rr`. -/
def printRr (pkt : Str) (size : Int) (rr : ParsedRr) (tab : List Entry) :
    Option (Str × List Entry) := do
  let (name, tab) ← printName pkt size rr.name tab
  let size := size - name.length
  if size < 8 then none
  else do
    let fixed := write16 rr.type ++ write16 rr.dnsclass ++ write32 rr.ttl
    let (rdata, tab) ← printRdata (pkt ++ name ++ fixed) (size - 8) rr.type rr.rdata tab
    return (name ++ fixed ++ rdata, tab)

/-- What `print_packet` has: the packet so far, the size that is left and the labels. -/
structure Printer where
  pkt : Str
  size : Int
  tab : List Entry

/-- A question. Its type and class are not taken off the size. -/
def printQuery (query : ParsedQuery) (printer : Printer) : Option Printer := do
  let (name, tab) ← printName printer.pkt printer.size query.name printer.tab
  let size := printer.size - name.length
  if size < 4 then none
  else some { pkt := printer.pkt ++ name ++ write16 query.type ++ write16 query.dnsclass, size, tab }

/-- A record. -/
def printRecord (rr : ParsedRr) (printer : Printer) : Option Printer := do
  let (text, tab) ← printRr printer.pkt printer.size rr printer.tab
  return { pkt := printer.pkt ++ text, size := printer.size - text.length, tab }

/-- A loop of `print_packet`. -/
def printAll {α : Type} (print : α → Printer → Option Printer) :
    List α → Printer → Option Printer
  | [], printer => some printer
  | record :: rest, printer => (print record printer).bind (printAll print rest)

/-- The header. -/
def printHdr (hdr : Hdr) : Str :=
  write16 hdr.id ++ write16 hdr.flags ++ write16 hdr.qdcount ++ write16 hdr.anscount ++
    write16 hdr.nscount ++ write16 hdr.arcount

/-- `print_packet`, with the packet. -/
def printPacket (packet : ParsedPacket) (size : Int) : Option Str :=
  let hdr := packet.hdr
  if size < 12 then none
  else do
    let printer ← printAll printQuery (packet.q.take hdr.qdcount.toNat)
      { pkt := printHdr hdr, size := size - 12, tab := [] }
    let printer ← printAll printRecord (packet.ans.take hdr.anscount.toNat) printer
    let printer ← printAll printRecord (packet.ns.take hdr.nscount.toNat) printer
    let printer ← printAll printRecord (packet.arr.take hdr.arcount.toNat) printer
    return printer.pkt

end Pj.Dns
