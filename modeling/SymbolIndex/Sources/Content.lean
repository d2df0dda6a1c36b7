import SymbolIndex.Entry
import SymbolIndex.FileTree.Walk
import SymbolIndex.Settings.Basic

/-!
# Entries from files

What the sources that look at every file of a project make of one file: an entry for the file
itself, for each of its lines that is worth one, or for each of its words.

* `FilesSource.entryOf?`: the entry of a file;
* `LinesSource.entriesOf`: the entries of the lines of a text;
* `WordsSource.entriesOf`: the entries of the words of a text;
* `readText`: the text of a file that is not too large;
* `eachFile`: the entries of all files, in the order of the walk.
-/

namespace SymbolIndex

/-- The entry of a file of the project at `root`, named by the last name of its path. -/
def FilesSource.entryOf? (settings : FilesSource) (root path : String) : Option Entry :=
  (Path.fileName? path.toList).map fun name =>
    { name := String.ofList name
      kind := settings.kind
      file := Path.entryPath path root
      priority := settings.priority
      subpriority := settings.subpriority }

/-- The number of the line at this position, from 0 on. -/
def lineNumber (position : Nat) : UInt32 := UInt32.ofNat position + 1

/-- The entries of the lines of a text that `keep` accepts once the blanks around them are gone. -/
def LinesSource.entriesOf (settings : LinesSource) (keep : List Char → Bool) (file : String)
    (text : List Char) : List Entry :=
  (Text.lines text).zipIdx.filterMap fun (line, position) =>
    let line := Text.trim line
    if keep line then
      some
        { name := String.ofList line
          kind := settings.kind
          file
          location := some (.line (lineNumber position))
          priority := settings.priority
          subpriority := settings.subpriority }
    else none

/-- The entries of the words that `find` gives for the lines of a text. The line of a word is its
extra text. -/
def WordsSource.entriesOf (settings : WordsSource) (find : List Char → List (List Char))
    (file : String) (text : List Char) : List Entry :=
  (Text.lines text).zipIdx.flatMap fun (line, position) =>
    let line := Text.trim line
    (find line).map fun word =>
      Entry.withExtra
        { name := String.ofList word
          kind := settings.kind
          file
          location := some (.line (lineNumber position))
          priority := settings.priority
          subpriority := settings.subpriority }
        (String.ofList line)

/-- The text of a file, unless it is larger than the limit or cannot be read. -/
def readText (files : FileTree) (path : String) (sizeLimit : Nat) : Option (List Char) :=
  match files.read path with
  | .ok content => if content.size ≤ sizeLimit then some (Text.decodeLossy content) else none
  | .error _ => none

/-- What `entriesOf` makes of the texts of some files of the project at `root`; files without a text
have no entries. -/
def eachFile (files : FileTree) (root : String) (sizeLimit : Nat)
    (entriesOf : String → List Char → List Entry) (paths : List String) : List Entry :=
  paths.flatMap fun path =>
    match readText files path sizeLimit with
    | some text => entriesOf (Path.entryPath path root) text
    | none => []

end SymbolIndex
