import SymbolIndex.Pattern.Reader
import SymbolIndex.Pattern.Search
import SymbolIndex.Shell.Run
import SymbolIndex.Sources.Content
import SymbolIndex.Tags.Line

/-!
# Scanners

A scanner goes through a project and either has a batch of entries or fails. It may run a command
that changes files.

* `Scanner`: scanners;
* `runCommand`, `TagsSource.scan`: commands, and the entries of tags files;
* `Source.scanner`: the scanner of a source, unless its settings are at odds.
-/

namespace SymbolIndex

/-- What a scanner has found, and the files after it. -/
structure ScanResult where
  outcome : Except Error (List Entry)
  files : FileTree

/-- Something that finds entries. -/
structure Scanner where
  name : String
  /-- look through the project at a root -/
  scan : FileTree → String → ScanResult

/-! ## Tags -/

/-- What a command has printed and the files after it, or its failure. -/
def runCommand (files : FileTree) (root command : String) : Except Error (List Char) × FileTree :=
  let failed (e : OsError) :=
    Except.error (Tags.failure ("cannot run \x60" ++ command ++ "\x60: " ++ e.text))
  match files.locate root with
  | .error e => (failed e, files)
  | .ok (names, .directory _) =>
    let report := Shell.run files (FileTree.pathOf names) command
    match report.ending with
    | .status 0 => (.ok (Text.decodeLossy ⟨report.output.toArray⟩), report.files)
    | ending =>
      let complaints := Text.trim (Text.decodeLossy ⟨report.complaints.toArray⟩)
      (.error (Tags.failure ("\x60" ++ command ++ "\x60 exited with " ++ ending.text ++ ": " ++
        String.ofList complaints)), report.files)
  | .ok _ => (failed .notADirectory, files)

/-- The command that produces tags where there is no tags file. -/
def defaultTagsCommand : String := "!ctags -o - --recurse --sort=no"

/-- Where tags are read from: the file of the settings, or one of the usual files, or a command. -/
def TagsSource.origin (settings : TagsSource) (files : FileTree) (root : String) : String :=
  match settings.file with
  | some file => file
  | none =>
    (["tags", ".tags"].find? fun name => files.isFile (Path.resolve root name)).getD
      defaultTagsCommand

/-- The text of the tags file, or what the command behind a `!` prints. -/
def readTags (files : FileTree) (root origin : String) : Except Error (List Char) × FileTree :=
  match origin.toList with
  | '!' :: command => runCommand files root (String.ofList command)
  | _ =>
    match files.read (Path.resolve root origin) with
    | .ok content => (.ok (Text.decodeLossy content), files)
    | .error e => (.error (Tags.failure ("cannot read " ++ origin ++ ": " ++ e.text)), files)

/-- The entries of the tags of a project. A command of the settings is run before anything is
read. -/
def TagsSource.scan (settings : TagsSource) (files : FileTree) (root : String) : ScanResult :=
  let prepared : Except Error Unit × FileTree :=
    match settings.command with
    | none => (.ok (), files)
    | some command =>
      let (printed, files) := runCommand files root command
      (printed.map fun _ => (), files)
  match prepared with
  | (.error e, files) => ⟨.error e, files⟩
  | (.ok (), files) =>
    let (text, files) := readTags files root (settings.origin files root)
    ⟨text.bind (Tags.parse settings.kindMap settings.priority), files⟩

/-! ## Sources -/

def FilesSource.scanner (settings : FilesSource) : Scanner where
  name := "files"
  scan files root :=
    ⟨(walkFiles files root settings.exclude settings.excludeFiles).map
      (·.filterMap (settings.entryOf? root)), files⟩

/-- The scanner of a source of lines, given the lines to keep. -/
def LinesSource.scanner (settings : LinesSource) (keep : List Char → Bool) : Scanner where
  name := "lines"
  scan files root :=
    ⟨(walkFiles files root settings.exclude settings.excludeFiles).map
      (eachFile files root settings.sizeLimit (settings.entriesOf keep)), files⟩

/-- The scanner of a source of words, given the words of a line. -/
def WordsSource.scanner (settings : WordsSource) (find : List Char → List (List Char)) :
    Scanner where
  name := "words"
  scan files root :=
    ⟨(walkFiles files root settings.exclude settings.excludeFiles).map
      (eachFile files root settings.sizeLimit (settings.entriesOf find)), files⟩

/-- The scanner of a source of tags, unless there are two commands for them. -/
def TagsSource.scanner (settings : TagsSource) : Except Error Scanner :=
  match settings.command, settings.file with
  | some command, some file =>
    if file.toList.head? = some '!' then
      .error (Tags.failure ("both command \x60" ++ command ++ "\x60 and command file \x60" ++ file ++
        "\x60 are set"))
    else .ok ⟨"tags", settings.scan⟩
  | _, _ => .ok ⟨"tags", settings.scan⟩

def patternOf (text : String) : Except Error Pattern :=
  match Pattern.parse text with
  | some p => .ok p
  | none => .error .regex

/-- The scanner of a source, unless its settings are at odds. -/
def Source.scanner : Source → Except Error Scanner
  | files settings => .ok settings.scanner
  | lines settings => do
    let p ← patternOf settings.filter
    return settings.scanner p.isFound
  | words settings => do
    let p ← patternOf settings.pattern
    return settings.scanner p.findAll
  | tags settings => settings.scanner

end SymbolIndex
