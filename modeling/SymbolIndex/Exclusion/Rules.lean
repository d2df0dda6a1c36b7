import SymbolIndex.Exclusion.Glob
import SymbolIndex.Exclusion.Matcher
import SymbolIndex.Text.Lossy

/-!
# Rules for leaving files out

A rule is a line with a glob: a path that it fits is left out or, behind a `!`, kept after all. Of
several rules the last one that fits counts. A glob without a slash in it fits names in any
directory, one with a slash paths from the directory of the rules on, and one with a slash at its
end only directories.

* `Rule`, `Rule.ofLine`: rules and their text;
* `verdict`: what a list of rules says about a path;
* `rulesOfFile`: rules from a file, where invalid ones are passed over;
* `globMatcher`: all of that together.
-/

namespace SymbolIndex

/-- One line of rules. -/
structure Rule where
  /-- paths that it fits are kept -/
  keeps : Bool
  /-- it says nothing about files -/
  directoriesOnly : Bool
  pattern : Pattern

namespace Rule

/-- The rule fits a path, given as bytes. -/
def fits (r : Rule) (path : List Char) (isDirectory : Bool) : Bool :=
  (isDirectory || !r.directoriesOnly) && r.pattern.fits path

/-- What the rule says about the paths that it fits. -/
def verdict (r : Rule) : Verdict := if r.keeps then .kept else .excluded

/-- A line without the blanks at its end, unless the last of them is escaped. -/
def trimLine (line : List Char) : List Char :=
  if ['\\', ' '].isSuffixOf line then line else Text.trimEnd line

/-- The text of a glob as it is matched: in any directory, unless it is `anchored`; and `**` at its
end only stands for what is inside of a directory. -/
def globText (anchored : Bool) (s : List Char) : List Char :=
  let s :=
    if anchored || s.contains '/' || s == "**".toList then s
    else "**/".toList ++ s
  if "/**".toList.isSuffixOf s then s ++ "/*".toList else s

/-- The text without a slash that it ends with, which may be escaped, and whether there is one. -/
def splitEndSlash (s : List Char) : Bool × List Char :=
  match s.reverse with
  | '/' :: '\\' :: rest => (true, rest.reverse)
  | '/' :: rest => (true, rest.reverse)
  | _ => (false, s)

def ofGlob (keeps anchored : Bool) (s : List Char) : RuleLine Rule :=
  let (directoriesOnly, s) := splitEndSlash s
  match Glob.parse (globText anchored s) with
  | some glob => .rule { keeps, directoriesOnly, pattern := glob.pattern }
  | none => .invalid

/-- What a line says. A line that begins with `#` is a comment; behind a backslash `#` and `!` stand
for themselves. -/
def ofLine (line : List Char) : RuleLine Rule :=
  if line.head? = some '#' then .blank
  else
    match trimLine line with
    | [] => .blank
    | '\\' :: '!' :: rest => ofGlob false false ('!' :: rest)
    | '\\' :: '#' :: rest => ofGlob false false ('#' :: rest)
    | '!' :: '/' :: rest => ofGlob true true rest
    | '!' :: rest => ofGlob true false rest
    | '/' :: rest => ofGlob false true rest
    | s => ofGlob false false s

end Rule

/-- What the rules say about a path below their directory: the last rule that fits counts. -/
def verdict (rules : List Rule) (path : List Char) (isDirectory : Bool) : Verdict :=
  match rules.reverse.find? fun r => r.fits path isDirectory with
  | some r => r.verdict
  | none => .open

def rulesOfLines (lines : List (List Char)) : List Rule :=
  lines.filterMap fun line =>
    match Rule.ofLine line with
    | .rule r => some r
    | _ => none

/-- The bytes between line feeds. -/
def byteLines (content : ByteArray) : List ByteArray :=
  let pieces := Text.splitAt (· == '\n') (content.data.toList.map fun b => Char.ofNat b.toNat)
  pieces.map fun piece => ⟨(piece.map fun c => c.toNat.toUInt8).toArray⟩

/-- The lines that can be read, up to the first that is not UTF-8. -/
def readableLines : List ByteArray → List (List Char)
  | [] => []
  | bytes :: rest =>
    match Text.decodeStrict bytes with
    | some line => line.toList :: readableLines rest
    | none => []

/-- The lines without a mark of their byte order. -/
def withoutMark : List (List Char) → List (List Char)
  | ('\uFEFF' :: line) :: lines => line :: lines
  | lines => lines

def rulesOfFile (content : ByteArray) : List Rule :=
  rulesOfLines (withoutMark (readableLines (byteLines content)))

/-- Rules with globs, on names that make paths of bytes. -/
def globMatcher {N : Type} (path : List N → List Char) : Matcher N Rule where
  line text := Rule.ofLine text.toList
  file := rulesOfFile
  verdict rules names isDirectory := verdict rules (path names) isDirectory

end SymbolIndex
