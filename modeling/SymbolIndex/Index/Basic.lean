import SymbolIndex.Layout
import SymbolIndex.Preview
import SymbolIndex.Query.Tokens
import SymbolIndex.Serializer.Owner
import SymbolIndex.Settings.Reader
import SymbolIndex.Store.Disk

/-!
# The index of a project

A store that belongs to an execution serializer. Queries can be interrupted, and dropped while they
wait; everything else runs to its end.

* `StoreAnswer`: what jobs on a store answer;
* `Index`, `openIndex`, `openProject`, `Index.close`: indexes;
* `Index.search`, `Index.query`, `Index.queueSearch`, `Index.queryAsync`: queries;
* `Index.replace` and the functions behind it: the entries and what is known about them;
* `Index.takeNotes`, `Index.deliveredOf`: what callbacks have been told.
-/

namespace SymbolIndex

/-- What a job on a store answers. -/
inductive StoreAnswer where
  /-- the number that stands for a callback -/
  | tag (n : Nat)
  | entries (es : List Entry)
  | count (n : Nat)
  | kinds (ks : List String)
  | kindCounts (counts : List (String × Nat))
  | generation (g : Option Generation)
  | health (h : StoreHealth)

/-- The index of a project. -/
structure Index where
  /-- the directory of the project, without links -/
  root : String
  settings : Settings
  serializer : Serializer Store StoreAnswer

/-- The name of the thread that owns a store. -/
def ownerName : String := "zem-index"

/-- Open the index of the project at a directory. -/
def openIndex (disk : Disk) (dataDirectory root : String) (settings : Settings) :
    Except Error (Index × Disk) := do
  let place ← (disk.files.canonical root).mapError fun _ => .invalidPath root
  let (store, disk) ← disk.openStore (settings.databasePath dataDirectory place) settings.mapSize
  let serializer := Serializer.start { name := ownerName, state := store }
  return ({ root := place, settings, serializer }, disk)

/-- Open the index of a project with its own settings. -/
def openProject (disk : Disk) (dataDirectory root : String) : Except Error (Index × Disk) := do
  openIndex disk dataDirectory root (← Settings.load disk.files root)

/-! ## Jobs on a store -/

def queryScript (plan : Plan) (limit : Option Nat) : Script Store StoreAnswer :=
  [.perform fun interrupted s =>
    ((s.query plan limit (.constant interrupted)).map .entries, s)]

/-- The plan of a query text, in which options mean nothing. -/
def searchPlan (text : String) : Except Error Plan := Plan.compile (Query.parse .search text)

/-- The job of a replacement. -/
def replaceScript (batches : List (List Entry)) : Script Store StoreAnswer :=
  [.perform fun _ s =>
    let (r, s) := s.replace batches
    (r.map fun g => .generation (some g), s)]

/-- The job that counts the entries. -/
def lengthScript : Script Store StoreAnswer :=
  [.perform fun _ s =>
    let (n, s) := s.length
    (.ok (.count n), s)]

/-- The job that only looks at the store. -/
def readScript (f : Store → Except Error StoreAnswer) : Script Store StoreAnswer :=
  [.perform fun _ s => (f s, s)]

/-- The entries that a query has found. One that was interrupted or dropped has found none. -/
def foundEntries : JobResult StoreAnswer → Except Error (List Entry)
  | .ok (some (.entries es)) => .ok es
  | .ok _ => .ok []
  | .error .interrupted => .ok []
  | .error .dropped => .ok []
  | .error e => .error e

namespace Index

/-- How matches are shown. -/
def layout (i : Index) : Layout := Layout.ofName i.settings.format

/-- The index once its owner rests. -/
def settle (i : Index) : Index := { i with serializer := i.serializer.settle }

/-- Close the index once everything that has been accepted is done. -/
def close (i : Index) (disk : Disk) : Disk :=
  disk.closeStore i.serializer.stop.2.settle.state

/-- Ask for the result of a job and wait for it as long as the owner gets on. The result is there by
then, unless a callback waits for something: then the caller gives up, like one that only waits for
a limited time. -/
def ask (i : Index) (kind : JobKind) (script : Script Store StoreAnswer) :
    JobResult StoreAnswer × Index :=
  match i.serializer.call kind script with
  | (.error e, s) => (.error e, { i with serializer := s })
  | (.ok seq, s) =>
    let s := s.settle
    let r : JobResult StoreAnswer :=
      match s.replyTo seq with
      | some (.result r) => r
      | _ => .error .timeout
    (r, { i with serializer := s })

/-- Ask for something about the store. -/
def read {α : Type} (i : Index) (script : Script Store StoreAnswer) (f : StoreAnswer → Option α) :
    Except Error α × Index :=
  let (r, i) := i.ask .uninterruptible script
  match r with
  | .error e => (.error e, i)
  | .ok answer => ((answer.bind f).elim (.error .dropped) .ok, i)

/-! ## Queries -/

/-- The entries that a plan accepts. -/
def run (i : Index) (plan : Plan) (limit : Option Nat) : Except Error (List Entry) × Index :=
  let (r, i) := i.ask .cancellable (queryScript plan limit)
  (foundEntries r, i)

/-- The entries that some clauses ask for. -/
def query (i : Index) (clauses : List Query.Clause) (limit : Option Nat) :
    Except Error (List Entry) × Index :=
  match Plan.compile clauses with
  | .error e => (.error e, i)
  | .ok plan => i.run plan limit

/-- The entries that a text asks for. -/
def search (i : Index) (text : String) (limit : Option Nat) : Except Error (List Entry) × Index :=
  i.query (Query.parse .search text) limit

/-- Queue a search on behalf of another thread. The number is the one to wait for. -/
def queueSearch (i : Index) (text : String) (limit : Option Nat) : Except Error Nat × Index :=
  match searchPlan text with
  | .error e => (.error e, i)
  | .ok plan =>
    let (r, s) := i.serializer.call .cancellable (queryScript plan limit)
    (r, { i with serializer := s })

/-- Queue a search whose result a callback is told, which goes on with a script. -/
def queryAsync (i : Index) (text : String) (limit : Option Nat) (tag : Nat)
    (script : Script Store StoreAnswer) : Except Error Nat × Index :=
  match searchPlan text with
  | .error e => (.error e, i)
  | .ok plan =>
    let (seq, s) :=
      i.serializer.submitWith .cancellable (queryScript plan limit) { tag := .tag tag, script }
    (seq.elim (.error .notStarted) .ok, { i with serializer := s })

/-- Interrupt the query that is being run. -/
def interrupt (i : Index) : Index := { i with serializer := i.serializer.interrupt }

/-- Interrupt the query that is being run and drop those that wait. -/
def interruptPending (i : Index) : Index := { i with serializer := i.serializer.interruptPending }

/-- Stop the owner once everything that has been accepted is done. -/
def stop (i : Index) : Index := { i with serializer := i.serializer.stop.2.settle }

/-! ## Entries -/

/-- Put other entries in the place of those that are there. -/
def replace (i : Index) (batches : List (List Entry)) : Except Error Generation × Index :=
  i.read (replaceScript batches) fun
    | .generation g => g
    | _ => none

/-- The number of entries. -/
def length (i : Index) : Except Error Nat × Index :=
  i.read lengthScript fun
    | .count n => some n
    | _ => none

def isEmpty (i : Index) : Except Error Bool × Index :=
  let (n, i) := i.length
  (n.map (· == 0), i)

def kinds (i : Index) : Except Error (List String) × Index :=
  i.read (readScript fun s => .ok (.kinds s.kinds)) fun
    | .kinds ks => some ks
    | _ => none

/-- How many entries have each kind. -/
def kindCounts (i : Index) : Except Error (List (String × Nat)) × Index :=
  i.read (readScript fun s => .ok (.kindCounts s.kindCounts)) fun
    | .kindCounts counts => some counts
    | _ => none

def generation (i : Index) : Except Error (Option Generation) × Index :=
  i.read (readScript fun s => s.generation.map .generation) fun
    | .generation g => some g
    | _ => none

def health (i : Index) : Except Error StoreHealth × Index :=
  i.read (readScript fun s => s.health.map .health) fun
    | .health h => some h
    | _ => none

def preview (i : Index) (files : FileTree) (e : Entry) : String :=
  SymbolIndex.preview files i.root e

/-- Entries as candidates of a completion menu. -/
def completions (i : Index) (files : FileTree) (es : List Entry) : List Completion :=
  SymbolIndex.completions files i.root es

/-! ## Notes -/

/-- What has been noted since the last time, and the index without it. -/
def takeNotes (i : Index) : List (Note StoreAnswer) × Index :=
  (i.serializer.log, { i with serializer := { i.serializer with log := [] } })

/-- What callbacks have been told, by the tag of the callback. -/
def deliveredOf (notes : List (Note StoreAnswer)) : List (Nat × Except Error (List Entry)) :=
  notes.filterMap fun
    | .callback (.tag n) r => some (n, foundEntries r)
    | _ => none

/-- How the index is shown. -/
def shown (i : Index) : String :=
  "Index \x7B root: " ++ Text.quoted i.root ++ ", serializer: " ++ Text.quoted i.serializer.name ++
    ", .. \x7D"

end Index

end SymbolIndex
