import Pjproject.Lib.Traced
import Pjproject.Pjlib.Str

/-!
# Parsing DNS packets

The parser of `dns.c` over the memory from the first byte of a packet on. Pointers are offsets from
there. What is behind the packet is memory too, which the C code may read: the log of a run has the
bytes that it reads, the bytes of names that it writes and the bytes of the packet that it
consumes.
-/

namespace Pj.Dns
open Traced

/-- The errors of the parser. -/
inductive Status
  | inSize
  | inNamePtr
  | inClass
deriving DecidableEq, Repr

/-- What is logged: a byte of the packet is read, a byte is written at an index of a name that is
allocated so long, and a query or record is consumed from one position to another. -/
inductive Access
  | read (position : Nat)
  | write (index allocated : Nat)
  | consume (start stop : Nat)
deriving DecidableEq, Repr

abbrev Parser := Traced Access Status

/-- `PJ_DNS_TYPE_A`, `PJ_DNS_TYPE_NS`, `PJ_DNS_TYPE_CNAME`, `PJ_DNS_TYPE_PTR`,
`PJ_DNS_TYPE_AAAA` and `PJ_DNS_TYPE_SRV`. -/
def typeA : UInt16 := 1
def typeNs : UInt16 := 2
def typeCname : UInt16 := 5
def typePtr : UInt16 := 12
def typeAaaa : UInt16 := 28
def typeSrv : UInt16 := 33

/-- The types with a name as their data. -/
def hasName (type : UInt16) : Bool := type = typeCname || type = typeNs || type = typePtr

/-- The types that are known. -/
def isKnown (type : UInt16) : Bool :=
  type = typeA || type = typeAaaa || hasName type || type = typeSrv

/-- `pj_dns_hdr`. -/
structure Hdr where
  id : UInt16
  flags : UInt16
  qdcount : UInt16
  anscount : UInt16
  nscount : UInt16
  arcount : UInt16
deriving DecidableEq, Repr

/-- `pj_dns_parsed_query`. -/
structure ParsedQuery where
  name : Str
  type : UInt16
  dnsclass : UInt16
deriving DecidableEq, Repr

/-- The union `rdata`, and `data` of an unknown type. -/
inductive Rdata
  | addr (ipAddr : Str)
  | name (name : Str)
  | srv (prio weight port : UInt16) (target : Str)
  | raw (data : Str)
deriving DecidableEq, Repr

/-- `pj_dns_parsed_rr`. -/
structure ParsedRr where
  name : Str
  type : UInt16
  dnsclass : UInt16
  ttl : UInt32
  rdlength : UInt16
  rdata : Rdata
deriving DecidableEq, Repr

/-- `pj_dns_parsed_packet`. -/
structure ParsedPacket where
  hdr : Hdr
  q : List ParsedQuery
  ans : List ParsedRr
  ns : List ParsedRr
  arr : List ParsedRr
deriving DecidableEq, Repr

variable (mem : Nat → UInt8) (size : Nat)

/-! ## Fields -/

/-- A byte. -/
def readByte (p : Nat) : Parser UInt8 := access [.read p] (mem p)

/-- The bytes that `pj_memcpy` copies. -/
def readBytes (p count : Nat) : Parser Str :=
  access ((List.range count).map fun i => .read (p + i))
    ((List.range count).map fun i => mem (p + i))

/-- The number of two bytes in network order. -/
def word16 (p : Nat) : UInt16 := UInt16.ofNat ((mem p).toNat * 256 + (mem (p + 1)).toNat)

/-- The number of four bytes in network order. -/
def word32 (p : Nat) : UInt32 :=
  UInt32.ofNat ((word16 mem p).toNat * 65536 + (word16 mem (p + 2)).toNat)

/-- `pj_memcpy` of two bytes and `pj_ntohs`. -/
def read16 (p : Nat) : Parser UInt16 := access [.read p, .read (p + 1)] (word16 mem p)

/-- `pj_memcpy` of four bytes and `pj_ntohl`. -/
def read32 (p : Nat) : Parser UInt32 :=
  access [.read p, .read (p + 1), .read (p + 2), .read (p + 3)] (word32 mem p)

theorem readByte_result (p : Nat) : (readByte mem p).result = .ok (mem p) := rfl

theorem read16_result (p : Nat) : (read16 mem p).result = .ok (word16 mem p) := rfl

theorem read32_result (p : Nat) : (read32 mem p).result = .ok (word32 mem p) := rfl

theorem readBytes_result (p count : Nat) :
    (readBytes mem p count).result = .ok ((List.range count).map fun i => mem (p + i)) := rfl

/-! ## Names -/

/-- A length byte that begins a pointer. -/
def isPointer (byte : UInt8) : Bool := byte &&& 0xc0 = 0xc0

/-- The 14 bits of a pointer. -/
def offset (p : Nat) : Nat := (word16 mem p ^^^ 0xc000).toNat

/-- The loop of `get_name_len`, with what it calls for a pointer. It returns `parsed_len` and
`name_len`. -/
def labelsLen (jump : Nat → Parser (Nat × Nat)) (p : Nat) : Parser (Nat × Nat) := do
  let byte ← readByte mem p
  if byte = 0 then return (1, 0)
  else if isPointer byte then do
    let _ ← read16 mem p
    if size ≤ offset mem p then throw .inNamePtr
    else do
      let (_, ptrLen) ← jump (offset mem p)
      return (2, ptrLen)
  else if size < byte.toNat then throw .inNamePtr
  else do
    let next ← readByte mem (p + (byte.toNat + 1))
    let labelLen := if next ≠ 0 then byte.toNat + 1 else byte.toNat
    if inside : p + (byte.toNat + 1) < size then do
      let (parsedLen, nameLen) ← labelsLen jump (p + (byte.toNat + 1))
      return (byte.toNat + 1 + parsedLen, labelLen + nameLen)
    else throw .inSize
termination_by size - p

/-- `get_name_len`, with the levels of recursion that are left. -/
def getNameLen : Nat → Nat → Parser (Nat × Nat)
  | 0, _ => throw .inNamePtr
  | levels + 1, start => labelsLen mem size (getNameLen levels) start

/-- Bytes are written to a name. -/
def writeName (allocated slen : Nat) (text : Str) : Parser Unit :=
  access ((List.range text.length).map fun i => .write (slen + i) allocated) ()

theorem writeName_result (allocated slen : Nat) (text : Str) :
    (writeName allocated slen text).result = .ok () := rfl

/-- The loop of `get_name`, with the length of the name so far. It returns what it appends. -/
def labels (jump : Nat → Nat → Parser Str) (allocated slen p : Nat) : Parser Str := do
  let byte ← readByte mem p
  if byte = 0 then return []
  else if isPointer byte then do
    let _ ← read16 mem p
    if size ≤ offset mem p then throw .inNamePtr
    else jump slen (offset mem p)
  else if size < byte.toNat then throw .inNamePtr
  else do
    let label ← readBytes mem (p + 1) byte.toNat
    writeName allocated slen label
    let next ← readByte mem (p + (byte.toNat + 1))
    let dot : Str := if next ≠ 0 then [46] else []
    writeName allocated (slen + byte.toNat) dot
    if inside : p + (byte.toNat + 1) < size then do
      let rest ← labels jump allocated (slen + byte.toNat + dot.length) (p + (byte.toNat + 1))
      return label ++ dot ++ rest
    else throw .inSize
termination_by size - p

/-- `get_name`, with the levels of recursion that are left. -/
def getName (allocated : Nat) : Nat → Nat → Nat → Parser Str
  | 0, _, _ => throw .inNamePtr
  | levels + 1, slen, start => labels mem size (getName allocated levels) allocated slen start

/-- The recursion of a name is limited to a `rec_counter` of ten. -/
def maxLevels : Nat := 11

/-- A name at a position, in a buffer that is allocated longer by some bytes, with the bytes it
takes of the packet. -/
def parseName (extra p : Nat) : Parser (Str × Nat) := do
  let (namePartLen, nameLen) ← getNameLen mem size maxLevels p
  let name ← getName mem size (nameLen + extra) maxLevels 0 p
  return (name, namePartLen)

/-! ## Records -/

/-- `parse_query`. -/
def parseQuery (start : Nat) : Parser (ParsedQuery × Nat) := do
  let (name, namePartLen) ← parseName mem size 4 start
  let p := start + namePartLen
  let type ← read16 mem p
  let dnsclass ← read16 mem (p + 2)
  return ({ name, type, dnsclass }, namePartLen + 4)

/-- The data of a record, in `parse_rr`, and the bytes that are taken for it. -/
def parseRdata (type : UInt16) (rdlength p : Nat) : Parser (Rdata × Nat) :=
  if type = typeA then do
    let ipAddr ← readBytes mem p 4
    return (.addr ipAddr, 4)
  else if type = typeAaaa then do
    let ipAddr ← readBytes mem p 16
    return (.addr ipAddr, 16)
  else if hasName type then do
    let (name, namePartLen) ← parseName mem size 0 p
    return (.name name, namePartLen)
  else if type = typeSrv then do
    let prio ← read16 mem p
    let weight ← read16 mem (p + 2)
    let port ← read16 mem (p + 4)
    let (target, namePartLen) ← parseName mem size 0 (p + 6)
    return (.srv prio weight port target, 6 + namePartLen)
  else do
    let data ← readBytes mem p rdlength
    return (.raw data, rdlength)

/-- `parse_rr`. -/
def parseRr (start : Nat) : Parser (ParsedRr × Nat) := do
  let (name, namePartLen) ← parseName mem size 4 start
  let p := start + namePartLen
  if size < p + 10 then throw .inSize
  else do
    let type ← read16 mem p
    let dnsclass ← read16 mem (p + 2)
    if dnsclass ≠ 1 ∧ isKnown type then throw .inClass
    else do
      let ttl ← read32 mem (p + 4)
      let rdlength ← read16 mem (p + 8)
      if size < p + 10 + rdlength.toNat then throw .inSize
      else do
        let (rdata, len) ← parseRdata mem size type rdlength.toNat (p + 10)
        return ({ name, type, dnsclass, ttl, rdlength, rdata }, namePartLen + 10 + len)

/-- A loop of `pj_dns_parse_packet`, which returns where the next one begins. -/
def parseAll {α : Type} (parse : Nat → Parser (α × Nat)) : Nat → Nat → Parser (List α × Nat)
  | 0, start => return ([], start)
  | count + 1, start => do
    let (record, parsedLen) ← parse start
    access [.consume start (start + parsedLen)] ()
    let (records, stop) ← parseAll parse count (start + parsedLen)
    return (record :: records, stop)

/-- The header. -/
def readHdr : Parser Hdr := do
  let id ← read16 mem 0
  let flags ← read16 mem 2
  let qdcount ← read16 mem 4
  let anscount ← read16 mem 6
  let nscount ← read16 mem 8
  let arcount ← read16 mem 10
  return { id, flags, qdcount, anscount, nscount, arcount }

theorem readHdr_result : (readHdr mem).result = .ok
    { id := word16 mem 0, flags := word16 mem 2, qdcount := word16 mem 4,
      anscount := word16 mem 6, nscount := word16 mem 8, arcount := word16 mem 10 } := rfl

/-- The queries and records of `pj_dns_parse_packet`. -/
def parseSections (hdr : Hdr) : Parser ParsedPacket := do
  let (q, start) ← parseAll (parseQuery mem size) hdr.qdcount.toNat 12
  let (ans, start) ← parseAll (parseRr mem size) hdr.anscount.toNat start
  let (ns, start) ← parseAll (parseRr mem size) hdr.nscount.toNat start
  let (arr, _) ← parseAll (parseRr mem size) hdr.arcount.toNat start
  return { hdr, q, ans, ns, arr }

/-- `pj_dns_parse_packet`. -/
def pjDnsParsePacket : Parser ParsedPacket :=
  if size < 12 then throw .inSize
  else do
    let hdr ← readHdr mem
    parseSections mem size hdr

end Pj.Dns
