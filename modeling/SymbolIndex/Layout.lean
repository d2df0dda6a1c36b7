import SymbolIndex.Entry

/-!
# Entries as text

How the editor shows an entry as a line of a result list, and the command with which it opens one.

* `Layout`, `Layout.render`: the forms of a result line;
* `openCommand`: the command that opens an entry at its location.
-/

namespace SymbolIndex

/-- How an entry is shown as one line of a result list. -/
inductive Layout where
  /-- name, kind, end of the file's path, location and extra text in fixed columns -/
  | columns
  /-- name, file and location -/
  | compact
  /-- the name alone -/
  | name
  deriving DecidableEq, Repr

namespace Layout

def text : Layout → String
  | columns => "columns"
  | compact => "compact"
  | name => "name"

/-- The layout of a name; any other name means columns. -/
def ofName (text : String) : Layout :=
  if text = "compact" then compact else if text = "name" then name else columns

/-- The last `width` characters of a text. -/
def tail (width : Nat) (s : List Char) : List Char := s.drop (s.length - width)

/-- The columns of an entry, one blank apart but for the location, which follows the file. -/
def columnsLine (e : Entry) : List Char :=
  let location := e.locationText.toList
  let location := if location.isEmpty then [] else ':' :: location.take 20
  Text.padRight 35 e.name.toList ++ ' ' :: Text.padRight 15 e.kind.toList ++
    ' ' :: Text.padLeft 30 (tail 50 e.file.toList) ++ Text.padRight 20 location ++
    ' ' :: e.extraText.toList

/-- The line that shows an entry. -/
def render : Layout → Entry → String
  | columns, e => String.ofList (columnsLine e)
  | compact, e =>
    if e.locationText = "" then e.name ++ "  " ++ e.file
    else e.name ++ "  " ++ e.file ++ ":" ++ e.locationText
  | name, e => e.name

end Layout

/-- Put the text `text` in the place of every `c`. -/
def substitute (c : Char) (text : List Char) (s : List Char) : List Char :=
  s.flatMap fun d => if d = c then text else [d]

/-- The search for the body of an anchor as an argument of the open command: a search in which only
`^`, `$`, `/` and backslashes mean something, with the argument's own escapes around it. -/
def searchArgument (body : List Char) : List Char :=
  substitute ' ' ['\\', ' '] <| substitute '/' ['\\', '/'] <| substitute '\\' ['\\', '\\'] <|
    substitute '\t' ['\\', 't'] ('\\' :: 'M' :: body)

/-- The part of the open command that goes to the location. -/
def jump : Option Location → List Char
  | none => []
  | some (.line number) => '+' :: (toString number.toNat).toList
  | some (.anchor _ body) => '+' :: '/' :: searchArgument body.toList ++ ['/']

/-- The command that opens an entry at its location, such as `edit +12 src/main.c`. -/
def openCommand (command : String) (e : Entry) : String :=
  let jump := jump e.location
  if jump.isEmpty then command ++ " " ++ e.file
  else command ++ " " ++ String.ofList jump ++ " " ++ e.file

end SymbolIndex
