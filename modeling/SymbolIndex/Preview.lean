import SymbolIndex.Entry
import SymbolIndex.FileTree.Basic
import SymbolIndex.Text.Lossy

/-!
# Previews

What a completion menu shows beside an entry: the lines that it points at, or, where there are none,
its kind, its location and its extra text.

* `previewLines`: the lines of a text that a location points at;
* `preview`: the preview of an entry;
* `Completion`, `completions`: entries as candidates of a completion menu.
-/

namespace SymbolIndex

/-- How many lines a preview shows at most. -/
def previewLength : Nat := 5

/-- A line without the carriage returns and line feeds at its end. -/
def bareLine (line : List Char) : List Char :=
  (line.reverse.dropWhile fun c => c == '\n' || c == '\r').reverse

/-- The lines from the first one on that the pattern fits. -/
def fromFitting (p : LinePattern) (lines : List (List Char)) : List (List Char) :=
  lines.dropWhile fun line => !p.fits (bareLine line)

/-- What a location shows of a text: the lines from the place on, or for an anchor that fits no line
the text it looks for. -/
def previewLines (location : Option Location) (text : List Char) : List Char :=
  let lines := Text.linesInclusive text
  match location with
  | none => (lines.take previewLength).flatten
  | some (.line number) =>
    if number = 0 then [] else ((lines.drop (number.toNat - 1)).take previewLength).flatten
  | some (.anchor boundary body) =>
    let p := Location.patternFrom boundary true body.toList
    match fromFitting p lines with
    | [] => p.text
    | found => (found.take previewLength).flatten

/-- What is shown where there are no lines to show. -/
def previewFallback (e : Entry) : String :=
  e.kind ++ "\n" ++ e.locationText ++ "\n" ++ e.extraText

/-- What is shown beside an entry whose file has this content. -/
def previewOf (e : Entry) (content : ByteArray) : String :=
  match previewLines e.location (Text.decodeLossy content) with
  | [] => previewFallback e
  | text => String.ofList text

/-- What is shown beside an entry of the project at `root`. -/
def preview (files : FileTree) (root : String) (e : Entry) : String :=
  match files.read (Path.resolve root e.file) with
  | .error _ => previewFallback e
  | .ok content => previewOf e content

/-- One candidate of a completion menu. -/
structure Completion where
  word : String
  menu : String
  info : String
  deriving DecidableEq, Repr

/-- The entries as candidates of a completion menu. -/
def completions (files : FileTree) (root : String) (entries : List Entry) : List Completion :=
  entries.map fun e => ⟨e.name, e.file, preview files root e⟩

end SymbolIndex
