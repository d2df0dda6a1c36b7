import SymbolIndex.Entry
import SymbolIndex.Tags.Kinds
import SymbolIndex.Text.Blank

/-!
# Reading tags

A tags file holds one symbol a line: name, file and location, and behind `;"` the fields, all
separated by tabs. Lines that begin with `!` say something about the file itself.

* `splitLast`: the text around the last occurrence of a separator;
* `fileExtension`: what tells the language of a file;
* `Fields`, `readFields`: the kind letter and the extra texts of a line;
* `parseLine`: the entry of one line, if it has one;
* `parse`: the entries of a text, which fails with its first line that cannot be read.
-/

namespace SymbolIndex.Tags

/-- The text before the last occurrence of `sep` and the text after it. -/
def splitLast (sep : List Char) : List Char → Option (List Char × List Char)
  | [] => none
  | c :: rest =>
    match splitLast sep rest with
    | some (before, after) => some (c :: before, after)
    | none =>
      if sep.isPrefixOf (c :: rest) then some ([], (c :: rest).drop sep.length) else none

/-- The text up to the first tab and the text behind it; without a tab, nothing is behind it. -/
def column (s : List Char) : List Char × List Char := (Text.splitOnce '\t' s).getD (s, [])

/-- The location of a line and its fields. The location itself may hold tabs, so the last mark that
ends a location counts. -/
def locationAndFields (s : List Char) : List Char × List Char :=
  match splitLast [';', '"', '\t'] s with
  | some parts => parts
  | none => (if [';', '"'].isSuffixOf s then s.dropLast.dropLast else s, [])

/-- A file name with forward slashes, and without the mark of the directory it starts from. -/
def normalFile (file : List Char) : List Char :=
  match file.map fun c => if c = '\\' then '/' else c with
  | '.' :: '/' :: rest => rest
  | file => file

/-- The text behind the last dot, or else behind the last slash. -/
def fileExtension (file : List Char) : List Char :=
  let ending := (Text.splitAt (· == '.') file).getLastD file
  (Text.splitAt (· == '/') ending).getLastD ending

/-- What the fields of a line say. -/
structure Fields where
  letter : List Char := []
  extra : List (List Char) := []

/-- Take one more field into account: a field without a colon, or one with the key `kind`, is the
kind letter, and any other that has a value is extra text. -/
def Fields.add (fields : Fields) (field : List Char) : Fields :=
  match Text.splitOnce ':' field with
  | none => { fields with letter := field }
  | some (key, value) =>
    if key = "kind".toList then { fields with letter := value }
    else if value = [] then fields
    else { fields with extra := fields.extra ++ [field] }

/-- What the tab-separated fields say; empty ones say nothing. -/
def readFields (s : List Char) : Fields :=
  ((Text.splitAt (· == '\t') s).filter (!·.isEmpty)).foldl Fields.add {}

/-- The texts with one space between two of them. -/
def spaced (parts : List (List Char)) : List Char := [' '].intercalate parts

/-- The entry of one line. A line about the file itself, a blank one, and one that lacks the name or
the file have none. -/
def parseLine (map : KindMap) (priority : Int64) (line : List Char) :
    Except Error (Option Entry) :=
  if line.head? = some '!' then .ok none
  else
    let (name, rest) := column (Text.trim line)
    let (file, rest) := column rest
    let (location, fields) := locationAndFields rest
    let file := normalFile file
    if name = [] ∨ file = [] then .ok none
    else do
      let location ← Location.parse (String.ofList location)
      let fields := readFields fields
      let rule := resolveKind map (String.ofList (fileExtension file)) (String.ofList fields.letter)
      return some
        { name := String.ofList name
          kind := rule.kind
          file := String.ofList file
          extra := if fields.extra = [] then none else some (String.ofList (spaced fields.extra))
          location
          priority
          subpriority := rule.subpriority }

def failure (message : String) : Error := .scanner "tags" message

/-- The failure of the line of this number, from 0 on. -/
def lineFailure (index : Nat) (e : Error) : Error :=
  failure ("line " ++ toString (index + 1) ++ ": " ++ e.message)

/-- Read the lines from number `index` on, behind the entries in `found`, which are in reverse
order. -/
def parseLines (map : KindMap) (priority : Int64) (index : Nat) (found : List Entry) :
    List (List Char) → Except Error (List Entry)
  | [] => .ok found.reverse
  | line :: lines =>
    match parseLine map priority line with
    | .error e => .error (lineFailure index e)
    | .ok none => parseLines map priority (index + 1) found lines
    | .ok (some entry) => parseLines map priority (index + 1) (entry :: found) lines

/-- The entries of a text, in the order of its lines. -/
def parse (map : KindMap) (priority : Int64) (text : List Char) : Except Error (List Entry) :=
  parseLines map priority 0 [] (Text.lines text)

end SymbolIndex.Tags
