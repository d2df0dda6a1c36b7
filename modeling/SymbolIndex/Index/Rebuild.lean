import SymbolIndex.Index.Basic
import SymbolIndex.Sources.Scanner

/-!
# Rebuilding an index

The entries of a project come from its sources. A source that cannot be used, or that fails, is
reported and contributes nothing; all others make up the next generation.

* `SourceFailure`, `RebuildSummary`: what a rebuild tells;
* `scanAll`: what some scanners find;
* `Index.rebuildWith`, `Index.rebuild`: rebuilding from scanners, and from the sources of the
  settings.
-/

namespace SymbolIndex

/-- A source that contributed nothing. -/
structure SourceFailure where
  source : String
  message : String
  deriving DecidableEq, Repr

/-- What a rebuild tells. -/
structure RebuildSummary where
  generation : Nat
  count : Nat
  /-- how many entries of the new generation have each kind, by rising kind -/
  kindCounts : List (String × Nat)
  failures : List SourceFailure
  deriving DecidableEq, Repr

/-- What the scanners find in the project at `root`, one after the other. -/
def scanAll (root : String) (files : FileTree) :
    List Scanner → List (String × Except Error (List Entry)) × FileTree
  | [] => ([], files)
  | scanner :: scanners =>
    let r := scanner.scan files root
    let (found, files) := scanAll root r.files scanners
    ((scanner.name, r.outcome) :: found, files)

/-- The batches of the scanners that have not failed. -/
def batchesOf (scanned : List (String × Except Error (List Entry))) : List (List Entry) :=
  scanned.filterMap fun (_, r) => r.toOption

/-- The failures of the other scanners. -/
def failuresOf (scanned : List (String × Except Error (List Entry))) : List SourceFailure :=
  scanned.filterMap fun (source, r) =>
    match r with
    | .ok _ => none
    | .error e => some ⟨source, e.message⟩

namespace Index

/-- Put what the scanners have found in the place of the entries that are there. -/
def replaceScanned (i : Index) (scanned : List (String × Except Error (List Entry))) :
    Except Error RebuildSummary × Index :=
  let batches := batchesOf scanned
  let (r, i) := i.replace batches
  (r.map fun g =>
    { generation := g.number
      count := g.count
      kindCounts := kindCountsOf batches.flatten
      failures := failuresOf scanned }, i)

/-- Rebuild from some scanners. Only the files may have changed if that fails. -/
def rebuildWith (i : Index) (files : FileTree) (scanners : List Scanner) :
    Except Error RebuildSummary × Index × FileTree :=
  let (scanned, files) := scanAll i.root files scanners
  let (r, i) := i.replaceScanned scanned
  (r, i, files)

/-- The scanners of some sources, and the failures of those that have none. -/
def scannersOf (sources : List Source) : List Scanner × List SourceFailure :=
  (sources.filterMap fun source => source.scanner.toOption,
    sources.filterMap fun source =>
      match source.scanner with
      | .ok _ => none
      | .error e => some ⟨source.name, e.message⟩)

/-- Rebuild from the sources of the settings. Sources that cannot be used come first among the
failures. -/
def rebuild (i : Index) (files : FileTree) : Except Error RebuildSummary × Index × FileTree :=
  let (scanners, unusable) := scannersOf i.settings.sources
  let (r, i, files) := i.rebuildWith files scanners
  (r.map fun summary => { summary with failures := unusable ++ summary.failures }, i, files)

end Index

end SymbolIndex
