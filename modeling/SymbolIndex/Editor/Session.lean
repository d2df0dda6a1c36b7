import SymbolIndex.Editor.Fetches
import SymbolIndex.Index.Rebuild

/-!
# Editor sessions

A session has the indexes of some projects open, each once, and remembers the latest fetch of every
project. Projects are known by their directories without links.

* `Session`: sessions;
* `Session.find`, `Session.withIndex`: the open index of a project, and using it;
* `Session.openIndex`, `Session.closeIndex`, `Session.cleanup`: opening and closing indexes;
* `Session.fetch`, `Session.poll`: fetches;
* `Session.update`, `Session.healths`: rebuilding, and the state of all stores;
* `Session.settle`: the session once the owners of its indexes rest.
-/

namespace SymbolIndex.Editor

/-- An editor session. -/
structure Session where
  disk : Disk
  /-- where the data of the user lies -/
  dataDirectory : String
  /-- the open indexes, by the directories of their projects -/
  indexes : List (String × Index) := []
  fetches : Fetches := {}
  nextTicket : Nat := 1
  /-- how many seconds a rebuild takes, as it is shown; the clock is not looked at here -/
  seconds : String := "T"

namespace Session

/-! ## Open indexes -/

/-- The directory by which a project is known. -/
def rootOf (s : Session) (path : String) : Except Error String :=
  (s.disk.files.canonical path).mapError fun _ => .invalidPath path

/-- The open index of a project, with its directory. -/
def find (s : Session) (path : String) : Except Error (String × Index) := do
  let root ← s.rootOf path
  match s.indexes.lookup root with
  | some i => return (root, i)
  | none => .error (.indexNotOpen root)

/-- The session in which an index is open under a directory, and in which its callbacks have been
told what they were to be told. -/
def put (s : Session) (root : String) (i : Index) : Session :=
  let (notes, i) := i.takeNotes
  { s with
    indexes := (root, i) :: s.indexes.filter (·.1 != root)
    fetches := (Index.deliveredOf notes).foldl
      (fun fetches (ticket, r) => fetches.complete root ticket r) s.fetches }

/-- Use the open index of a project. -/
def withIndex {α : Type} (s : Session) (path : String) (f : Index → Except Error α × Index) :
    Except Error α × Session :=
  match s.find path with
  | .error e => (.error e, s)
  | .ok (root, i) =>
    let (r, i) := f i
    (r, s.put root i)

/-- The session once the owners of its indexes rest. -/
def settle (s : Session) : Session :=
  s.indexes.foldl (fun s (root, i) => s.put root i.settle) s

/-! ## Opening and closing -/

/-- Open the index of a project with its own settings. It may be open already. -/
def openIndex (s : Session) (path : String) : Except Error Bool × Session :=
  match s.rootOf path with
  | .error e => (.error e, s)
  | .ok root =>
    match s.indexes.lookup root with
    | some _ => (.ok false, s)
    | none =>
      match openProject s.disk s.dataDirectory root with
      | .error e => (.error e, s)
      | .ok (i, disk) => (.ok true, { s with disk, indexes := (root, i) :: s.indexes })

/-- The session without an index, which has done all that it had accepted. -/
def shut (s : Session) (root : String) (i : Index) : Session :=
  let i := i.stop
  let s := s.put root i
  { s with disk := i.close s.disk, indexes := s.indexes.filter (·.1 != root) }

/-- Close the index of a project. It may not be open. -/
def closeIndex (s : Session) (path : String) : Except Error Bool × Session :=
  match s.rootOf path with
  | .error e => (.error e, s)
  | .ok root =>
    match s.indexes.lookup root with
    | none => (.ok false, s)
    | some i => (.ok true, { s with fetches := s.fetches.forget root }.shut root i)

/-- Close all indexes. -/
def cleanup (s : Session) : Session := s.indexes.foldl (fun s (root, i) => s.shut root i) s

/-! ## Queries -/

/-- The entries that a text asks for. -/
def search (s : Session) (path text : String) (limit : Option Nat) :
    Except Error (Layout × List Entry) × Session :=
  s.withIndex path fun i =>
    let (r, j) := i.search text limit
    (r.map (i.layout, ·), j)

/-- Queue a query and hand out the ticket for its result. Whatever is queued or run for this project
is interrupted: nobody waits for it any more. -/
def fetch (s : Session) (path text : String) (limit : Option Nat) : Except Error Nat × Session :=
  match s.find path with
  | .error e => (.error e, s)
  | .ok (root, i) =>
    let ticket := s.nextTicket
    let limit := limit.getD i.settings.resultCount
    let (r, i) := i.interruptPending.queryAsync text (some limit) ticket []
    let s := { s with nextTicket := ticket + 1, fetches := s.fetches.begin root ticket }
    (r.map fun _ => ticket, s.put root i)

/-- Ask for the result of a fetch. -/
def poll (s : Session) (path : String) (ticket : Nat) : Except Error (Layout × Poll) × Session :=
  match s.find path with
  | .error e => (.error e, s)
  | .ok (root, i) =>
    let (p, fetches) := s.fetches.poll root ticket
    (.ok (i.layout, p), { s with fetches })

/-- Interrupt the query that is being run. -/
def interrupt (s : Session) (path : String) : Except Error Unit × Session :=
  s.withIndex path fun i => (.ok (), i.interrupt)

/-! ## Entries -/

/-- Rebuild the index of a project. -/
def update (s : Session) (path : String) : Except Error RebuildSummary × Session :=
  match s.find path with
  | .error e => (.error e, s)
  | .ok (root, i) =>
    let (r, i, files) := i.rebuild s.disk.files
    (r, { s with disk := { s.disk with files } }.put root i)

/-- What the owners of all open indexes have counted, and the state of their stores, in the order
of their directories. -/
def healths (s : Session) :
    List (String × JobCounts × Except Error StoreHealth) × Session :=
  let indexes := s.indexes.mergeSort fun a b => a.1 ≤ b.1
  let asked := indexes.map fun (root, i) => (root, i.serializer.counts, i.health)
  (asked.map fun (root, counts, r, _) => (root, counts, r),
    asked.foldl (fun s (root, _, _, i) => s.put root i) s)

end Session

end SymbolIndex.Editor
