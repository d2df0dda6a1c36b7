import SymbolIndex.FileTree.Basic
import SymbolIndex.Store.Basic

/-!
# The disk

The files and the databases among them. A database is a directory with two files in it and can only
be open once at a time.

* `Disk`: files and databases;
* `Disk.openStore`, `Disk.closeStore`: opening and closing databases.
-/

namespace SymbolIndex

/-- Files, and the databases in some of their directories. -/
structure Disk where
  files : FileTree
  /-- what the databases hold, by the paths of their directories without links -/
  databases : List (String × Database) := []
  /-- the ones that are open -/
  opened : List String := []
  /-- how their room is counted -/
  space : Space := .pages

namespace Disk

/-- The database in a directory, which holds nothing unless it has been written. A file that is
there in its place is none. -/
def databaseAt (d : Disk) (place : String) : Except Error Database :=
  match d.files.read (place ++ "/data.mdb") with
  | .error .notFound => .ok {}
  | .error _ => .error .envOpen
  | .ok content =>
    match d.databases.lookup place with
    | some database => .ok database
    | none => if content.size = 0 then .ok {} else .error .envOpen

/-- The files of a database, in its directory. -/
def databaseFiles : List String := ["/data.mdb", "/lock.mdb"]

/-- The files with those of a database in a directory, as far as they can be written. -/
def withDatabaseFiles (files : FileTree) (place : String) : FileTree :=
  databaseFiles.foldl (fun files name =>
    (files.write (place ++ name) ⟨(List.replicate pageSize 0).toArray⟩).toOption.getD files) files

/-- Open the database in a directory, which is made if it is not there. The size of a database is a
number of pages. -/
def openStore (d : Disk) (path : String) (size : Nat) : Except Error (Store × Disk) := do
  let files ← (d.files.makeDirectories path).mapError .createDir
  let place ← (files.canonical path).mapError fun _ => .envOpen
  if size % pageSize ≠ 0 ∨ d.opened.contains place = true then throw .envOpen
  let database ← { d with files }.databaseAt place
  let files := withDatabaseFiles files place
  if ¬ databaseFiles.all (fun name => files.isFile (place ++ name)) then throw .envOpen
  let capacity := if size = 0 then d.space.byDefault else size
  if capacity < d.space.least then throw .dbCreate
  let store : Store :=
    { path, place, database := database.adopted, space := d.space, capacity }
  return (store, { d with files, opened := place :: d.opened })

/-- Close a store. What it holds stays on the disk. -/
def closeStore (d : Disk) (s : Store) : Disk :=
  { d with
    databases := (s.place, s.database) :: d.databases.filter (·.1 != s.place)
    opened := d.opened.filter (· != s.place) }

/-- Change what a database holds that is not open. -/
def alter (d : Disk) (place : String) (f : Database → Database) : Disk :=
  { d with
    databases := d.databases.map fun (p, database) =>
      (p, if p = place then f database else database) }

end Disk

end SymbolIndex
