import SymbolIndex.Editor.Value
import SymbolIndex.Index.Rebuild

/-!
# Entries as tables

The tables in which the editor gets entries, completions and summaries. It hands entries back in the
same form, or in tables that were written by hand.

* `entryTable`, `entryOf`: entries as tables, and back;
* `completionTable`, `summaryTable`, `healthTable`: what else the editor gets.
-/

namespace SymbolIndex.Editor

/-- The table of an entry, with the line that shows it. -/
def entryTable (layout : Layout) (e : Entry) : Value :=
  let line := (e.location.bind Location.line?).map fun n => ("line", Value.ofInt n.toNat)
  .table (
    [("name", .text e.name), ("kind", .text e.kind), ("file", .text e.file),
      ("extra", .text e.extraText), ("location", .text e.locationText)] ++ line.toList ++
    [("priority", .ofInt e.priority.toInt), ("subpriority", .ofInt e.subpriority.toInt),
      ("text", .text (layout.render e))])

def entryTables (layout : Layout) (entries : List Entry) : Value :=
  .list (entries.map (entryTable layout))

/-- A value that is there, or a failed conversion. -/
def converted {α : Type} (a : Option α) : Except Failure α :=
  match a with
  | some a => .ok a
  | none => .error .conversion

def Failure.ofError (e : Error) : Failure := .runtime e.message

def entryOf (v : Value) : Except Failure Entry := do
  let optionalText (key : String) := converted ((v.field key).optional? Value.text?)
  let requiredText (key : String) := converted (v.field key).text?
  let word (key : String) := converted ((v.field key).optional? Value.word?)
  let extra ← optionalText "extra"
  let location ← optionalText "location"
  let name ← requiredText "name"
  let kind ← requiredText "kind"
  let file ← requiredText "file"
  let priority ← word "priority"
  let subpriority ← word "subpriority"
  (Entry.ofRaw name kind file extra location (priority.getD 0) (subpriority.getD 0)).mapError
    Failure.ofError

def completionTable (c : Completion) : Value :=
  .table [("word", .text c.word), ("menu", .text c.menu), ("info", .text c.info)]

/-- The table of how many entries have a kind. -/
def kindCountTable (kind : String) (count : Nat) : Value :=
  .table [("kind", .text kind), ("count", .ofInt count)]

/-- The line that shows how many entries have a kind. -/
def kindCountLine (kind : String) (count : Nat) : String :=
  String.ofList (' ' :: Text.padRight 20 kind.toList ++
    ' ' :: Text.padLeft 5 (toString count).toList)

/-- The lines that show what a rebuild has found in so many seconds. -/
def summaryLines (seconds : String) (s : RebuildSummary) : List String :=
  ("Found " ++ toString s.count ++ " elements in " ++ seconds ++ " seconds") ::
    s.kindCounts.map (fun (kind, count) => kindCountLine kind count) ++
    s.failures.map fun f => "Source " ++ f.source ++ " failed: " ++ f.message

/-- The table of what a rebuild has found in so many seconds. -/
def summaryTable (seconds : String) (s : RebuildSummary) : Value :=
  .table [("count", .ofInt s.count), ("generation", .ofInt s.generation),
    ("lines", .list ((summaryLines seconds s).map .text)),
    ("failures", .list (s.failures.map fun f =>
      .table [("source", .text f.source), ("error", .text f.message)]))]

/-- The fields of the table of an index that say how its store is. -/
def healthFields : Except Error StoreHealth → List (String × Value)
  | .error e => [("db_healthcheck_error", .text e.message)]
  | .ok h =>
    let generation := h.generation.map fun g => ("generation", Value.ofInt g.number)
    [("db_healthcheck", .table (
      [("path", .text h.path), ("entries", .ofInt h.entryCount), ("meta", .ofInt h.recordCount)] ++
      generation.toList))]

/-- The table of an index, with what its owner has counted and the state of its store. -/
def healthTable (root : String) (counts : JobCounts) (health : Except Error StoreHealth) : Value :=
  .table ([("root", .text root), ("jobs_completed", .ofInt counts.completed),
    ("jobs_failed", .ofInt counts.failed), ("jobs_dropped", .ofInt counts.dropped)] ++
    healthFields health)

end SymbolIndex.Editor
