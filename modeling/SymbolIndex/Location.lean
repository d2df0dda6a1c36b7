import SymbolIndex.Error
import SymbolIndex.Text.Ascii
import SymbolIndex.Text.Blank

/-!
# Locations

Where inside its file an entry points: at a line number, or at the first line that an anchor fits.
An anchor is written between two equal boundary characters, such as `/^int main()$/`, and keeps its
body as it was written.

* `Location`, `Location.parse`, `Location.render`: locations and their text;
* `LinePattern`, `LinePattern.fits`: what an anchor says about a line;
* `Location.pattern?`: an anchor with its escapes undone.
-/

namespace SymbolIndex

/-- A place inside a file. -/
inductive Location where
  /-- the line of this number, from 1 on -/
  | line (number : UInt32)
  /-- the line that the body, written between two boundaries, fits -/
  | anchor (boundary : Char) (body : String)
  deriving DecidableEq, Repr

/-- What an anchor asks of a line: that it contains a text, and where. -/
structure LinePattern where
  text : List Char
  atStart : Bool
  atEnd : Bool
  deriving DecidableEq, Repr

def LinePattern.fits (p : LinePattern) (line : List Char) : Bool :=
  match p.atStart, p.atEnd with
  | true, true => line == p.text
  | true, false => p.text.isPrefixOf line
  | false, true => p.text.isSuffixOf line
  | false, false => Text.occurs p.text line

namespace Location

/-- The characters that may stand around an anchor. -/
def isBoundary (c : Char) : Bool :=
  Text.isPunctuation c && c != '\\' && c != '^' && c != '$'

/-- How many backslashes a text ends with. -/
def trailingBackslashes (s : List Char) : Nat := (s.reverse.takeWhile (· == '\\')).length

/-- Read the text of a location: nothing is no location, digits are a line number, and the rest is
an anchor, whose closing boundary must not be escaped. -/
def parse (raw : String) : Except Error (Option Location) :=
  match raw.toList with
  | [] => .ok none
  | first :: rest =>
    if (first :: rest).all Text.isDigit then
      let number := Text.decimal (first :: rest)
      if number < UInt32.size then .ok (some (.line (UInt32.ofNat number)))
      else .error (.invalidLocation raw)
    else
      match rest.getLast? with
      | none => .error (.invalidLocation raw)
      | some last =>
        let body := rest.dropLast
        if first = last ∧ isBoundary first = true ∧ trailingBackslashes body % 2 = 0 then
          .ok (some (.anchor first (String.ofList body)))
        else .error (.invalidLocation raw)

def render : Location → String
  | line number => toString number.toNat
  | anchor boundary body => String.ofList (boundary :: (body.toList ++ [boundary]))

def line? : Location → Option UInt32
  | line number => some number
  | anchor .. => none

/-- The characters that a backslash in an anchor takes the meaning from. -/
def isEscapable (boundary c : Char) : Bool := c == boundary || c == '^' || c == '$' || c == '\\'

/-- Undo the escapes of a body from some point on. An unescaped `^` that the body begins with and an
unescaped `$` that it ends with say where the text stands; any other backslash is kept. -/
def patternFrom (boundary : Char) (first : Bool) : List Char → LinePattern
  | [] => ⟨[], false, false⟩
  | '\\' :: next :: rest =>
    if isEscapable boundary next then
      let p := patternFrom boundary false rest
      { p with text := next :: p.text }
    else
      let p := patternFrom boundary false (next :: rest)
      { p with text := '\\' :: p.text }
  | c :: rest =>
    let p := patternFrom boundary false rest
    if c = '^' ∧ first = true then { p with atStart := true }
    else if c = '$' ∧ rest = [] then { p with atEnd := true }
    else { p with text := c :: p.text }

/-- What the location asks of a line, if it is an anchor. -/
def pattern? : Location → Option LinePattern
  | line _ => none
  | anchor boundary body => some (patternFrom boundary true body.toList)

end Location

end SymbolIndex
