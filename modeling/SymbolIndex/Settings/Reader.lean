import SymbolIndex.FileTree.Basic
import SymbolIndex.Settings.Basic
import SymbolIndex.Text.Lossy
import SymbolIndex.Toml.Document

/-!
# Reading settings

Settings are a TOML document. A setting that is not there keeps its default, one that nobody knows
is passed over, and one of the wrong type makes the whole document invalid.

* `Members`: the settings of a group, given by name or by position;
* `Source.ofToml?`, `Settings.ofToml?`: sources and settings from the values of a document;
* `Settings.parse`: settings from the text of a document;
* `Settings.load`: the settings of the project at a directory.
-/

namespace SymbolIndex

open Toml (Value)

/-! ## Values of a type -/

def stringOf? : Value → Option String
  | .string s => some s
  | _ => none

def boolOf? : Value → Option Bool
  | .boolean b => some b
  | _ => none

def wordOf? : Value → Option Int64
  | .integer n => some (Int64.ofInt n)
  | _ => none

/-- A number that is not negative. -/
def countOf? : Value → Option Nat
  | .integer n => if 0 ≤ n then some n.toNat else none
  | _ => none

def stringsOf? : Value → Option (List String)
  | .array items => items.mapM stringOf?
  | _ => none

def kindRuleOf? : Value → Option Tags.KindRule
  | .array [kind, subpriority] => do return ⟨← stringOf? kind, ← wordOf? subpriority⟩
  | _ => none

/-- Values of one type under keys. -/
def mapOf? {α : Type} (f : Value → Option α) : Value → Option (List (String × α))
  | .table fields => fields.mapM fun (key, v) => (f v).map (key, ·)
  | _ => none

/-- The kinds of letters by extension. -/
def kindMapOf? : Value → Option Tags.KindMap := mapOf? (mapOf? kindRuleOf?)

/-! ## Groups of settings -/

/-- The settings of a group: by name, or by position. -/
inductive Members where
  | named (fields : List (String × Value))
  | listed (items : List Value)

namespace Members

/-- The setting of this name, which stands at this position. -/
def find? (m : Members) (position : Nat) (name : String) : Option Value :=
  match m with
  | named fields => fields.lookup name
  | listed items => items[position]?

/-- The setting of this name and position, or its default; none if it is of the wrong type. -/
def get? {α : Type} (m : Members) (position : Nat) (name : String) (f : Value → Option α)
    (fallback : α) : Option α :=
  match m.find? position name with
  | none => some fallback
  | some v => f v

/-- There are no more settings by position than the group has. -/
def fits (m : Members) (count : Nat) : Bool :=
  match m with
  | named _ => true
  | listed items => items.length ≤ count

end Members

def FilesSource.ofMembers? (m : Members) : Option FilesSource := do
  let d : FilesSource := {}
  guard (m.fits 5)
  return {
    kind := ← m.get? 0 "kind" stringOf? d.kind
    priority := ← m.get? 1 "priority" wordOf? d.priority
    subpriority := ← m.get? 2 "subpriority" wordOf? d.subpriority
    exclude := ← m.get? 3 "exclude" stringsOf? d.exclude
    excludeFiles := ← m.get? 4 "exclude_files" stringsOf? d.excludeFiles }

def LinesSource.ofMembers? (m : Members) : Option LinesSource := do
  let d : LinesSource := {}
  guard (m.fits 7)
  return {
    kind := ← m.get? 0 "kind" stringOf? d.kind
    priority := ← m.get? 1 "priority" wordOf? d.priority
    subpriority := ← m.get? 2 "subpriority" wordOf? d.subpriority
    exclude := ← m.get? 3 "exclude" stringsOf? d.exclude
    excludeFiles := ← m.get? 4 "exclude_files" stringsOf? d.excludeFiles
    sizeLimit := ← m.get? 5 "size_limit" countOf? d.sizeLimit
    filter := ← m.get? 6 "filter" stringOf? d.filter }

def WordsSource.ofMembers? (m : Members) : Option WordsSource := do
  let d : WordsSource := {}
  guard (m.fits 7)
  return {
    kind := ← m.get? 0 "kind" stringOf? d.kind
    priority := ← m.get? 1 "priority" wordOf? d.priority
    subpriority := ← m.get? 2 "subpriority" wordOf? d.subpriority
    exclude := ← m.get? 3 "exclude" stringsOf? d.exclude
    excludeFiles := ← m.get? 4 "exclude_files" stringsOf? d.excludeFiles
    sizeLimit := ← m.get? 5 "size_limit" countOf? d.sizeLimit
    pattern := ← m.get? 6 "pattern" stringOf? d.pattern }

def TagsSource.ofMembers? (m : Members) : Option TagsSource := do
  let d : TagsSource := {}
  guard (m.fits 4)
  return {
    file := ← m.get? 0 "file" (fun v => (stringOf? v).map some) d.file
    command := ← m.get? 1 "command" (fun v => (stringOf? v).map some) d.command
    priority := ← m.get? 2 "priority" wordOf? d.priority
    kindMap := ← m.get? 3 "kind_map" kindMapOf? d.kindMap }

/-- A source of the sort that its type names. -/
def Source.ofMembers? (type : String) (m : Members) : Option Source :=
  if type = "files" then (FilesSource.ofMembers? m).map .files
  else if type = "lines" then (LinesSource.ofMembers? m).map .lines
  else if type = "words" then (WordsSource.ofMembers? m).map .words
  else if type = "tags" then (TagsSource.ofMembers? m).map .tags
  else none

/-- A source: a table with its type in it, or a list that begins with the type. -/
def Source.ofToml? : Value → Option Source
  | .table fields => do
    let type ← stringOf? (← fields.lookup "type")
    ofMembers? type (.named (fields.filter (·.1 != "type")))
  | .array (type :: items) => do ofMembers? (← stringOf? type) (.listed items)
  | _ => none

def sourcesOf? : Value → Option (List Source)
  | .array items => items.mapM Source.ofToml?
  | _ => none

def Settings.ofToml? : Value → Option Settings
  | .table fields => do
    let m := Members.named fields
    let d : Settings := {}
    return {
      database := ← m.get? 0 "database" (fun v => (stringOf? v).map some) d.database
      storeInDataDir := ← m.get? 1 "store_in_data_dir" boolOf? d.storeInDataDir
      resultCount := ← m.get? 2 "result_count" countOf? d.resultCount
      mapSize := ← m.get? 3 "map_size" countOf? d.mapSize
      format := ← m.get? 4 "format" stringOf? d.format
      sources := ← m.get? 5 "sources" sourcesOf? d.sources }
  | _ => none

def Settings.parse (text : String) : Except Error Settings :=
  match (Toml.parse text).bind ofToml? with
  | some s => .ok s
  | none => .error .config

/-- The settings of the project at `root`; without a file of settings, the defaults. -/
def Settings.load (files : FileTree) (root : String) : Except Error Settings :=
  let path := Path.resolve root settingsFile
  if files.isFile path then
    match files.read path with
    | .error e => .error (.io e)
    | .ok bytes =>
      match Text.decodeStrict bytes with
      | none => .error (.io .invalidText)
      | some text => parse text
  else .ok {}

end SymbolIndex
