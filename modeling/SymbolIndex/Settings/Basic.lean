import SymbolIndex.Digest.Blake3
import SymbolIndex.Error
import SymbolIndex.Path
import SymbolIndex.Tags.Kinds

/-!
# Settings

What a project says about its index: where the database lies, how results are shown, and which
sources its entries come from.

* `FilesSource`, `LinesSource`, `WordsSource`, `TagsSource`, `Source`: the sources;
* `Settings`: all settings, with their defaults;
* `projectKey`: a name for a project that is a plain file name;
* `Settings.databasePath`: where the database lies.
-/

namespace SymbolIndex

/-- The ignore files that sources honour unless they say otherwise. -/
def defaultExcludeFiles : List String := [".gitignore", ".p4ignore"]

/-- What the sources that read files leave out unless they say otherwise; they skip every hidden
file, not only hidden directories. -/
def defaultContentExclude : List String := ["*~", ".*", "*.pyc", "*.o", "*._*", "*.class"]

/-- A source with one entry for every file. -/
structure FilesSource where
  kind : String := "File"
  priority : Int64 := 99
  subpriority : Int64 := 50
  exclude : List String := ["*~", ".*/", "*.pyc", "*.o", "*._*", "*.class", "!*.map"]
  excludeFiles : List String := defaultExcludeFiles
  deriving DecidableEq, Repr

/-- A source with one entry for every line that a pattern fits, in files up to a size. -/
structure LinesSource where
  kind : String := "UseLine"
  priority : Int64 := 49
  subpriority : Int64 := 50
  exclude : List String := defaultContentExclude
  excludeFiles : List String := defaultExcludeFiles
  sizeLimit : Nat := 1024 * 1024
  filter : String := "[a-zA-Z_0-9]"
  deriving DecidableEq, Repr

/-- A source with one entry for every match of a pattern, in files up to a size. -/
structure WordsSource where
  kind : String := "UseWord"
  priority : Int64 := 48
  subpriority : Int64 := 40
  exclude : List String := defaultContentExclude
  excludeFiles : List String := defaultExcludeFiles
  sizeLimit : Nat := 100 * 1024
  pattern : String := "[a-zA-Z_][a-zA-Z_0-9]+"
  deriving DecidableEq, Repr

/-- A source with one entry for every symbol of a tags file. -/
structure TagsSource where
  /-- the tags file, or a `!` and the command that prints the tags -/
  file : Option String := none
  /-- a command to run before the tags file is read -/
  command : Option String := none
  priority : Int64 := 99
  kindMap : Tags.KindMap := []
  deriving DecidableEq, Repr

/-- Where entries come from. -/
inductive Source where
  | files (settings : FilesSource)
  | lines (settings : LinesSource)
  | words (settings : WordsSource)
  | tags (settings : TagsSource)
  deriving DecidableEq, Repr

def Source.name : Source → String
  | files _ => "files"
  | lines _ => "lines"
  | words _ => "words"
  | tags _ => "tags"

/-- How many results are shown unless the settings say otherwise. -/
def defaultResultCount : Nat := 20

/-- How large a database may grow unless the settings say otherwise, in bytes. -/
def defaultMapSize : Nat := 1024 * 1024 * 1024

/-- All settings of a project. -/
structure Settings where
  /-- the directory of the database -/
  database : Option String := none
  /-- keep the database with the user's data and not in the project -/
  storeInDataDir : Bool := false
  resultCount : Nat := defaultResultCount
  mapSize : Nat := defaultMapSize
  format : String := "columns"
  sources : List Source := [.files {}, .tags {}]
  deriving DecidableEq, Repr

/-- The name of the file with the settings of a project. -/
def settingsFile : String := ".zem.toml"

/-- The name of a database directory inside of its project. -/
def databaseDirectory : String := ".zem"

/-- A name for a project that only depends on its path. -/
def projectKey (path : String) : String := Blake3.hex path.toUTF8.data.toList

/-- Where the database of the project at `root` lies, given the directory of the user's data. -/
def Settings.databasePath (s : Settings) (dataDirectory root : String) : String :=
  match s.database with
  | some path => Path.resolve root path
  | none =>
    if s.storeInDataDir then Path.resolve (Path.resolve dataDirectory "zem") (projectKey root)
    else Path.resolve root databaseDirectory

end SymbolIndex
