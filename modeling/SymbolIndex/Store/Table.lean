import SymbolIndex.Entry

/-!
# The table of entries

A database holds one table of entries in the order of their keys and at most one record about the
generation that is stored. The key of an entry is the number under which it was inserted, as eight
bytes with the highest in front, so that the order of keys is the order of insertion.

* `sequenceKey`, `putRow`: keys, and rows in the order of their keys;
* `Space`, `Space.pages`: how the room for rows is counted;
* `Generation`, `Record`, `Database`: what a database holds;
* `Database.entries`, `Database.kindCounts`: the entries and their kinds;
* `Database.adopted`: what is left of a database when it is opened.
-/

namespace SymbolIndex

/-! ## Rows -/

/-- The key of a row. -/
abbrev Key := List UInt8

/-- The last `count` bytes of a number, the highest in front. -/
def bytesBigEndian : Nat → Nat → Key
  | 0, _ => []
  | count + 1, n => UInt8.ofNat (n >>> (8 * count)) :: bytesBigEndian count n

/-- The key of the entry that is inserted after `n` others. -/
def sequenceKey (n : Nat) : Key := bytesBigEndian 8 n

/-- Rows by falling key. -/
abbrev Rows := List (Key × Entry)

/-- The rows with one more entry, or another one under its key. -/
def putRow (key : Key) (e : Entry) : Rows → Rows
  | [] => [(key, e)]
  | (k, old) :: rest =>
    if k < key then (key, e) :: (k, old) :: rest
    else if k = key then (key, e) :: rest
    else (k, old) :: putRow key e rest

/-! ## Room -/

/-- How the room in a database is counted. -/
structure Space where
  /-- the room that a row takes -/
  ofRow : Entry → Nat
  /-- every row takes some -/
  ofRow_pos : ∀ e, 0 < ofRow e
  /-- how much there is in a database whose size is given as zero -/
  byDefault : Nat
  /-- sizes have 64 bits -/
  byDefault_lt : byDefault < UInt64.size
  /-- how much the tables take while they are empty -/
  least : Nat

/-- The size of a text, with the length in front of it. -/
def textSize (s : String) : Nat := 8 + s.utf8ByteSize

def locationSize : Location → Nat
  | .line _ => 8
  | .anchor boundary body => 4 + boundary.utf8Size + textSize body

def entrySize (e : Entry) : Nat :=
  textSize e.name + textSize e.kind + textSize e.file + 1 + (e.extra.map textSize).getD 0 +
    1 + (e.location.map locationSize).getD 0 + 16

def pageSize : Nat := 4096

/-- The room that a row takes at most: pages are at least half full, and an entry that is larger
than half a page has pages of its own. -/
def rowCost (e : Entry) : Nat :=
  let size := entrySize e + 16
  if size ≤ pageSize / 2 then 2 * size else (size / pageSize + 1) * pageSize

theorem rowCost_pos (e : Entry) : 0 < rowCost e := by
  unfold rowCost
  simp only
  split
  · omega
  · exact Nat.mul_pos (Nat.succ_pos _) (by decide)

/-- Room that is counted by pages. -/
def Space.pages : Space where
  ofRow := rowCost
  ofRow_pos := rowCost_pos
  byDefault := 256 * pageSize
  byDefault_lt := by decide
  least := 4 * pageSize

/-! ## Databases -/

/-- The version of the layout in which entries are stored. -/
def schemaVersion : UInt32 := 1

/-- What is known about the entries that are stored. -/
structure Generation where
  schemaVersion : UInt32
  /-- how many replacements have led to it -/
  number : Nat
  count : Nat
  deriving DecidableEq, Repr

/-- The record about the stored generation. -/
inductive Record where
  | generation (g : Generation)
  | unreadable
  deriving DecidableEq, Repr

/-- What a database holds. -/
structure Database where
  rows : Rows := []
  record : Option Record := none
  deriving DecidableEq, Repr

namespace Database

/-- The entries in the order of their keys. -/
def entries (d : Database) : List Entry := d.rows.reverse.map (·.2)

/-- The room that the rows take. -/
def cost (space : Space) (d : Database) : Nat :=
  d.rows.foldr (fun row cost => space.ofRow row.2 + cost) 0

def generation (d : Database) : Except Error (Option Generation) :=
  match d.record with
  | none => .ok none
  | some (.generation g) => .ok (some g)
  | some .unreadable => .error .dbRead

/-- The record has the version of the layout that is in use. -/
def isCurrent (d : Database) : Bool :=
  match d.record with
  | some (.generation g) => g.schemaVersion == SymbolIndex.schemaVersion
  | _ => false

/-- What is left of a database when it is opened: entries in another layout, or in one that nobody
knows, are dropped. -/
def adopted (d : Database) : Database := if d.isCurrent then d else {}

/-- The database with another version in its record, if it has one. -/
def withSchemaVersion (d : Database) (version : UInt32) : Database :=
  match d.record with
  | some (.generation g) =>
    { d with record := some (.generation { g with schemaVersion := version }) }
  | _ => d

def withoutRecord (d : Database) : Database := { d with record := none }

/-- The database with a record that cannot be read. -/
def withUnreadableRecord (d : Database) : Database := { d with record := some .unreadable }

/-- How many rows there are beside the entries. -/
def recordCount (d : Database) : Nat := if d.record.isSome then 1 else 0

end Database

/-! ## Kinds -/

/-- The counts with one more of a kind. Kinds are in rising order. -/
def countKind (kind : String) : List (String × Nat) → List (String × Nat)
  | [] => [(kind, 1)]
  | (k, n) :: rest =>
    if kind < k then (kind, 1) :: (k, n) :: rest
    else if kind = k then (k, n + 1) :: rest
    else (k, n) :: countKind kind rest

/-- How many of the entries have each kind. -/
def kindCountsOf (entries : List Entry) : List (String × Nat) :=
  entries.foldl (fun counts e => countKind e.kind counts) []

end SymbolIndex
