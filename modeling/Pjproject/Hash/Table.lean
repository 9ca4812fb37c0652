import Pjproject.Pjlib.Str

/-!
# Hash table

The hash table of pjlib. A chain of entries is the list of its entries, and the pointer to pointer
that the search returns is the position in the chain at which it stopped. Memory for the entries
is always there. `pj_hash_set` and `pj_hash_set_np` differ in where they keep the entry and the
key, and are one function here.
-/

namespace Pj.Hash

/-- A key as it is passed: some bytes with their number, which is not `PJ_HASH_KEY_STRING`, or
the bytes of a string up to its NUL. -/
inductive HashKey
  | sized (bytes : Str) (fits : bytes.length < 2 ^ 32 - 1)
  | string (bytes : Str) (terminated : 0 ∉ bytes)

/-- The bytes that are hashed. -/
def HashKey.bytes : HashKey → Str
  | .sized bytes _ => bytes
  | .string bytes _ => bytes

/-- The length as an `unsigned`. -/
def HashKey.keylen (key : HashKey) : Nat := key.bytes.length % 2 ^ 32

/-- `pj_hash_entry`. -/
structure HashEntry (ν : Type*) where
  /-- The bytes the entry has a copy of or refers to. -/
  key : Str
  hash : UInt32
  keylen : Nat
  value : ν
deriving DecidableEq, Repr

/-- `pj_hash_table_t`. -/
structure HashTable (ν : Type*) where
  table : List (List (HashEntry ν))
  count : UInt32
  rows : UInt32
deriving DecidableEq, Repr

variable {ν : Type*}

/-- `PJ_HASH_MULTIPLIER`. -/
def hashMultiplier : UInt32 := 33

/-- `pj_hash_calc`. -/
def pjHashCalc (hash : UInt32) (key : Str) : UInt32 :=
  key.foldl (fun hash byte => hash * hashMultiplier + byte.toUInt32) hash

/-- The loop of `pj_hash_create`. It goes on forever if no power of two is large enough. -/
def tableSizeFrom (size : UInt32) : Nat → UInt32 → Option UInt32
  | 0, _ => none
  | fuel + 1, tableSize =>
    let tableSize := tableSize <<< 1
    if tableSize < size then tableSizeFrom size fuel tableSize else some tableSize

/-- `pj_hash_create`. -/
def pjHashCreate (ν : Type*) (size : UInt32) : Option (HashTable ν) :=
  (tableSizeFrom size 32 8).map fun tableSize =>
    { table := List.replicate (tableSize - 1 + 1).toNat [], count := 0, rows := tableSize - 1 }

/-- The comparison of `find_entry`. -/
def HashEntry.matches (entry : HashEntry ν) (hash : UInt32) (keylen : Nat) (key : Str) : Bool :=
  entry.hash = hash && entry.keylen = keylen && entry.key = key.take keylen

/-- The row of a hash value. -/
def HashTable.row (ht : HashTable ν) (hash : UInt32) : Nat := (hash &&& ht.rows).toNat

/-- The chain of a row. -/
def HashTable.chain (ht : HashTable ν) (row : Nat) : List (HashEntry ν) := ht.table.getD row []

/-- What `find_entry` leaves: the table, the hash value it reports, and the row and the position
in its chain that the search stopped at. -/
structure Found (ν : Type*) where
  ht : HashTable ν
  hval : UInt32
  row : Nat
  pos : Nat

/-- The entry that is found. -/
def Found.entry (found : Found ν) : Option (HashEntry ν) := (found.ht.chain found.row)[found.pos]?

/-- `find_entry`, case sensitive. A hash value of 0 is none. -/
def findEntry (ht : HashTable ν) (key : HashKey) (val : Option ν) (hval : UInt32) : Found ν :=
  let hash := if hval ≠ 0 then hval else pjHashCalc 0 key.bytes
  let row := ht.row hash
  let chain := ht.chain row
  let pos := chain.findIdx (·.matches hash key.keylen key.bytes)
  match chain[pos]?, val with
  | none, some value =>
    let entry : HashEntry ν :=
      { key := key.bytes.take key.keylen, hash := hash, keylen := key.keylen, value := value }
    let ht := { ht with table := ht.table.set row (chain ++ [entry]), count := ht.count + 1 }
    { ht := ht, hval := hash, row := row, pos := pos }
  | _, _ => { ht := ht, hval := hash, row := row, pos := pos }

/-- `pj_hash_get`: the value and the hash value that it reports. -/
def pjHashGet (ht : HashTable ν) (key : HashKey) (hval : UInt32) : Option ν × UInt32 :=
  let found := findEntry ht key none hval
  (found.entry.map (·.value), found.hval)

/-- `pj_hash_set` and `pj_hash_set_np`. -/
def pjHashSet (ht : HashTable ν) (key : HashKey) (hval : UInt32) (value : Option ν) :
    HashTable ν :=
  let found := findEntry ht key value hval
  match found.entry with
  | none => found.ht
  | some entry =>
    let chain := found.ht.chain found.row
    match value with
    | none =>
      { found.ht with
        table := found.ht.table.set found.row (chain.eraseIdx found.pos)
        count := found.ht.count - 1 }
    | some value =>
      { found.ht with
        table := found.ht.table.set found.row (chain.set found.pos { entry with value := value }) }

/-- `pj_hash_count`. -/
def pjHashCount (ht : HashTable ν) : UInt32 := ht.count

/-- `pj_hash_iterator_t`: the entry, with those behind it in its chain. -/
structure HashIterator (ν : Type*) where
  index : Nat
  entry : HashEntry ν
  next : List (HashEntry ν)
deriving DecidableEq, Repr

/-- The loop of `pj_hash_first` and `pj_hash_next`: the first entry of the rows from `index` on. -/
def firstFrom (index : Nat) : List (List (HashEntry ν)) → Option (HashIterator ν)
  | [] => none
  | [] :: rows => firstFrom (index + 1) rows
  | (entry :: next) :: _ => some { index := index, entry := entry, next := next }

/-- `pj_hash_first`. -/
def pjHashFirst (ht : HashTable ν) : Option (HashIterator ν) :=
  firstFrom 0 (ht.table.take (ht.rows.toNat + 1))

/-- `pj_hash_next`. -/
def pjHashNext (ht : HashTable ν) (it : HashIterator ν) : Option (HashIterator ν) :=
  match it.next with
  | entry :: next => some { it with entry := entry, next := next }
  | [] => firstFrom (it.index + 1) ((ht.table.take (ht.rows.toNat + 1)).drop (it.index + 1))

/-- The entries that an iteration visits, up to its end. -/
inductive Visits (ht : HashTable ν) : Option (HashIterator ν) → List (HashEntry ν) → Prop
  | done : Visits ht none []
  | entry {it : HashIterator ν} {rest : List (HashEntry ν)}
    (later : Visits ht (pjHashNext ht it) rest) : Visits ht (some it) (it.entry :: rest)

end Pj.Hash
