import SymbolIndex.Plan.Execute
import SymbolIndex.Store.Table

/-!
# The store

An open database. Its entries are replaced as a whole or not at all.

* `Draft`: a replacement on its way;
* `Store`, `Store.replace`: the store, and new entries in it;
* `Store.query`, `Store.length`, `Store.kindCounts`, `Store.health`: what it holds.
-/

namespace SymbolIndex

/-! ## Replacements -/

/-- The rows of a replacement that is not complete, and the room they take. -/
structure Draft where
  rows : Rows := []
  count : Nat := 0
  cost : Nat

namespace Draft

/-- The draft with one more entry, which has this place in its batch. An entry that lacks something
and one that there is no room for are refused. -/
def add (space : Space) (capacity batch index : Nat) (d : Draft) (e : Entry) :
    Except Error Draft :=
  match e.defect? with
  | some defect => .error (.malformedEntry batch index defect.reason)
  | none =>
    let cost := d.cost + space.ofRow e
    if capacity < cost then .error .dbWrite
    else .ok { rows := putRow (sequenceKey d.count) e d.rows, count := d.count + 1, cost }

/-- The draft with the entries of a batch, the first of which has the place `index` in it. -/
def addEntries (space : Space) (capacity batch : Nat) :
    Nat → Draft → List Entry → Except Error Draft
  | _, d, [] => .ok d
  | index, d, e :: entries => do
    let d ← d.add space capacity batch index e
    addEntries space capacity batch (index + 1) d entries

/-- The draft with the entries of some batches, the first of which has the number `batch`. -/
def addBatches (space : Space) (capacity : Nat) :
    Nat → Draft → List (List Entry) → Except Error Draft
  | _, d, [] => .ok d
  | batch, d, entries :: batches => do
    let d ← d.addEntries space capacity batch 0 entries
    addBatches space capacity (batch + 1) d batches

end Draft

/-! ## Stores -/

/-- An open database. -/
structure Store where
  /-- the path under which it was opened -/
  path : String
  /-- the path of its directory without links -/
  place : String
  database : Database
  /-- how its room is counted -/
  space : Space := .pages
  /-- how much room there is for rows -/
  capacity : Nat
  /-- the number of entries, once somebody has asked for it -/
  knownLength : Option Nat := none

/-- What is told about the state of a store. -/
structure StoreHealth where
  path : String
  entryCount : Nat
  recordCount : Nat
  generation : Option Generation

namespace Store

/-- Put the entries of the batches in the place of all that are there. The rows that are there take
up room until the new ones are complete. -/
def replace (s : Store) (batches : List (List Entry)) : Except Error Generation × Store :=
  match s.database.generation with
  | .error e => (.error e, s)
  | .ok previous =>
    match Draft.addBatches s.space s.capacity 0 { cost := s.database.cost s.space } batches with
    | .error e => (.error e, s)
    | .ok draft =>
      let g : Generation :=
        { schemaVersion
          number := (previous.map (·.number)).getD 0 + 1
          count := draft.count }
      (.ok g,
        { s with
          database := ⟨draft.rows, some (.generation g)⟩
          knownLength := some draft.count })

/-- The entries that a plan accepts. -/
def query (s : Store) (plan : Plan) (limit : Option Nat) (probe : Probe) :
    Except Error (List Entry) :=
  plan.execute (s.database.entries.map .ok) limit probe

/-- The number of entries. It is counted once and then remembered until the next replacement. -/
def length (s : Store) : Nat × Store :=
  match s.knownLength with
  | some n => (n, s)
  | none =>
    let n := s.database.rows.length
    (n, { s with knownLength := some n })

/-- Whether there are no entries, which are counted for it. -/
def isEmpty (s : Store) : Bool × Store :=
  let (n, s) := s.length
  (n == 0, s)

def generation (s : Store) : Except Error (Option Generation) := s.database.generation

/-- How many entries have each kind, by rising kind. -/
def kindCounts (s : Store) : List (String × Nat) := kindCountsOf s.database.entries

/-- The kinds that occur, in rising order. -/
def kinds (s : Store) : List String := s.kindCounts.map (·.1)

def health (s : Store) : Except Error StoreHealth := do
  return {
    path := s.place
    entryCount := s.database.rows.length
    recordCount := s.database.recordCount
    generation := ← s.database.generation }

end Store

end SymbolIndex
