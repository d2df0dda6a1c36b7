import SymbolIndex.Pattern.Property

/-!
# Reading patterns

The text of a regular expression: alternatives between `|`, groups in parentheses, classes in square
brackets, repetitions behind what they repeat, escapes behind a backslash, and flags such as `(?i)`
that hold to the end of their group.

* `Flags`, `readFlags`: what the flags of a group change;
* `readEscape`: what stands behind a backslash;
* `readBounds`: the bounds of a counted repetition;
* `readClass`: a class in square brackets;
* `readFrom`, `Pattern.parse`: patterns.
-/

namespace SymbolIndex.Pattern

/-! ## Flags -/

/-- What the flags of a group say. -/
structure Flags where
  /-- letters stand for both of their cases -/
  anyCase : Bool := false
  /-- `^` and `$` look for the ends of lines and not for those of the text -/
  manyLines : Bool := false
  /-- a dot stands for line feeds as well -/
  dotAll : Bool := false
  /-- repetitions are greedy only where they are marked -/
  swapGreed : Bool := false
  /-- carriage returns end lines as well -/
  crlf : Bool := false
  /-- classes and case go beyond ASCII -/
  unicode : Bool := true
  /-- blanks and comments in the pattern mean nothing -/
  spaced : Bool := false

/-- The flags with one of them set or cleared. -/
def Flags.set? (f : Flags) (on : Bool) : Char → Option Flags
  | 'i' => some { f with anyCase := on }
  | 'm' => some { f with manyLines := on }
  | 's' => some { f with dotAll := on }
  | 'U' => some { f with swapGreed := on }
  | 'R' => some { f with crlf := on }
  | 'u' => some { f with unicode := on }
  | 'x' => some { f with spaced := on }
  | _ => none

/-- Apply letters of flags; those behind a `-` are cleared. No letter, and no `-`, stands twice, and
a letter follows the `-`. -/
def Flags.withLetters? (f : Flags) (on : Bool) (seen : List Char) : List Char → Option Flags
  | [] => if seen.head? = some '-' then none else some f
  | c :: rest =>
    if seen.contains c then none
    else if c = '-' then f.withLetters? false (c :: seen) rest
    else (f.set? on c).bind fun f => f.withLetters? on (c :: seen) rest

/-- The flags of a group and the character that ends them, which is a colon or a parenthesis. -/
def readFlags (f : Flags) (s : List Char) : Option (Flags × Char × List Char) :=
  let ends (c : Char) := c == ':' || c == ')'
  match s.dropWhile (!ends ·) with
  | [] => none
  | last :: rest =>
    let letters := s.takeWhile (!ends ·)
    if letters = [] ∧ last = ')' then none
    else (f.withLetters? true [] letters).map fun f => (f, last, rest)

/-- The text behind blanks and comments. -/
def skipSpaced (comment : Bool) : List Char → List Char
  | [] => []
  | c :: rest =>
    if comment then skipSpaced (c != '\n') rest
    else if Text.isBlank c then skipSpaced false rest
    else if c = '#' then skipSpaced true rest
    else c :: rest

/-- The text behind what means nothing under the flags. -/
def Flags.skip (f : Flags) (s : List Char) : List Char := if f.spaced then skipSpaced false s else s

/-! ## Classes by name -/

def Flags.digit (f : Flags) : CharClass := if f.unicode then .digit else .range '0' '9'

def Flags.blank (f : Flags) : CharClass :=
  if f.unicode then .blank else .ofRanges [('\t', '\r'), (' ', ' ')]

/-- The ASCII characters that make words. -/
def asciiWord : CharClass := .ofRanges [('a', 'z'), ('A', 'Z'), ('0', '9'), ('_', '_')]

/-- The characters that make words under the flags. -/
def Flags.wordChar (f : Flags) : CharClass := if f.unicode then .wordChar else asciiWord

/-- The class with both cases of its characters, if the flags ask for it. -/
def Flags.folded (f : Flags) (cls : CharClass) : CharClass :=
  if f.anyCase then
    if f.unicode then .anyCase cls
    else .union cls (.inter (.anyCase (.inter cls .ascii)) .ascii)
  else cls

/-- The class of one character under the flags. -/
def Flags.one (f : Flags) (c : Char) : CharClass := f.folded (.one c)

/-- The ASCII class of a name between colons. -/
def asciiClass? (name : String) : Option CharClass :=
  let lower := ('a', 'z')
  let upper := ('A', 'Z')
  let digits := ('0', '9')
  match name with
  | "alnum" => some (.ofRanges [lower, upper, digits])
  | "alpha" => some (.ofRanges [lower, upper])
  | "ascii" => some .ascii
  | "blank" => some (.ofRanges [('\t', '\t'), (' ', ' ')])
  | "cntrl" => some (.ofRanges [('\x00', '\x1F'), ('\x7F', '\x7F')])
  | "digit" => some (.ofRanges [digits])
  | "graph" => some (.range '!' '~')
  | "lower" => some (.ofRanges [lower])
  | "print" => some (.range ' ' '~')
  | "punct" => some (.ofRanges [('!', '/'), (':', '@'), ('[', '`'), ('\x7B', '~')])
  | "space" => some (.ofRanges [('\t', '\r'), (' ', ' ')])
  | "upper" => some (.ofRanges [upper])
  | "word" => some asciiWord
  | "xdigit" => some (.ofRanges [digits, ('A', 'F'), ('a', 'f')])
  | _ => none

/-! ## Escapes -/

/-- What an escape stands for. -/
inductive Escape where
  | literal (c : Char)
  | named (cls : CharClass)
  | look (l : Look)

/-- The value of a hexadecimal digit. -/
def hexDigit? (c : Char) : Option Nat :=
  if c.isDigit then some (c.toNat - '0'.toNat)
  else if 'a' ≤ c ∧ c ≤ 'f' then some (c.toNat - 'a'.toNat + 10)
  else if 'A' ≤ c ∧ c ≤ 'F' then some (c.toNat - 'A'.toNat + 10)
  else none

/-- The value of hexadecimal digits. -/
def hexValue? (s : List Char) : Option Nat :=
  s.foldlM (fun value c => (hexDigit? c).map (16 * value + ·)) 0

/-- The character of a code point. -/
def charOf? (n : Nat) : Option Char := if n.isValidChar then some (Char.ofNat n) else none

/-- The value of the next `count` hexadecimal digits. -/
def readHexDigits (f : Flags) (value : Nat) : Nat → List Char → Option (Nat × List Char)
  | 0, s => some (value, s)
  | count + 1, s =>
    match f.skip s with
    | [] => none
    | c :: rest => (hexDigit? c).bind fun d => readHexDigits f (16 * value + d) count rest

/-- The character of a code point, either in braces or with a fixed number of digits. Without
Unicode, two digits are a byte, and only the ASCII ones are characters. -/
def readHex (f : Flags) (count : Nat) (s : List Char) : Option (Char × List Char) :=
  match f.skip s with
  | '\x7B' :: rest =>
    match Text.splitOnce '\x7D' rest with
    | none => none
    | some (digits, rest) => do
      let digits := if f.spaced then digits.filter (!Text.isBlank ·) else digits
      guard (digits ≠ [])
      return (← charOf? (← hexValue? digits), rest)
  | s => do
    let (value, rest) ← readHexDigits f 0 count s
    guard (f.unicode ∨ count ≠ 2 ∨ value < 0x80)
    return (← charOf? value, rest)

/-- The characters that may stand in the name of a special end of a word. -/
def isEdgeName (c : Char) : Bool := c.isAlpha || c == '-'

/-- The condition on a place behind `\b`. A name in braces gives it a special meaning; other braces
are not part of it. -/
def readWordEdge (f : Flags) (s : List Char) : Option (Look × List Char) :=
  let plain := some (Look.wordEdge f.wordChar, s)
  match s with
  | '\x7B' :: rest =>
    match f.skip rest with
    | [] => none
    | first :: rest =>
      if isEdgeName first then
        match Text.splitOnce '\x7D' (first :: rest) with
        | none => none
        | some (name, rest) =>
          match String.ofList (if f.spaced then name.filter (!Text.isBlank ·) else name) with
          | "start" => some (.wordStart f.wordChar, rest)
          | "end" => some (.wordEnd f.wordChar, rest)
          | "start-half" => some (.wordStartHalf f.wordChar, rest)
          | "end-half" => some (.wordEndHalf f.wordChar, rest)
          | _ => none
      else plain
  | _ => plain

/-- The class of a property, which is one letter or stands in braces. It is turned around if
`negated` is set. -/
def readProperty (f : Flags) (negated : Bool) (s : List Char) : Option (CharClass × List Char) := do
  guard f.unicode
  let (cls, turned, rest) ← match f.skip s with
    | '\x7B' :: rest => do
      let (name, rest) ← Text.splitOnce '\x7D' rest
      let (cls, turned) ← bracedClass? (if f.spaced then name.filter (!Text.isBlank ·) else name)
      pure (cls, turned, rest)
    | c :: rest => do pure (← namedClass? [c], false, rest)
    | [] => none
  let cls := f.folded cls
  return (if negated = turned then cls else .negated cls, rest)

/-- What stands behind a backslash. Letters and digits without a meaning may not, and `<` and `>`
are ends of words; any other ASCII character stands for itself. -/
def readEscape (f : Flags) : List Char → Option (Escape × List Char)
  | [] => none
  | c :: rest =>
    let literal (c : Char) := some (Escape.literal c, rest)
    let named (cls : CharClass) := some (Escape.named cls, rest)
    let look (l : Look) := some (Escape.look l, rest)
    match c with
    | 'x' => (readHex f 2 rest).map fun (c, rest) => (.literal c, rest)
    | 'u' => (readHex f 4 rest).map fun (c, rest) => (.literal c, rest)
    | 'U' => (readHex f 8 rest).map fun (c, rest) => (.literal c, rest)
    | 'd' => named f.digit
    | 'D' => named (.negated f.digit)
    | 's' => named f.blank
    | 'S' => named (.negated f.blank)
    | 'w' => named f.wordChar
    | 'W' => named (.negated f.wordChar)
    | 'p' => (readProperty f false rest).map fun (cls, rest) => (.named cls, rest)
    | 'P' => (readProperty f true rest).map fun (cls, rest) => (.named cls, rest)
    | 'a' => literal '\x07'
    | 'f' => literal '\x0C'
    | 't' => literal '\t'
    | 'n' => literal '\n'
    | 'r' => literal '\r'
    | 'v' => literal '\x0B'
    | 'A' => look .textStart
    | 'z' => look .textEnd
    | 'b' => (readWordEdge f rest).map fun (l, rest) => (.look l, rest)
    | 'B' => look (.noWordEdge f.wordChar)
    | '<' => look (.wordStart f.wordChar)
    | '>' => look (.wordEnd f.wordChar)
    | c => if c.toNat < 0x80 ∧ c.isAlphanum = false then literal c else none

/-! ## Repetitions -/

/-- A count, which may have blanks around it. -/
def count? (s : List Char) : Option Nat :=
  let digits := Text.trim s
  if digits ≠ [] ∧ digits.all Char.isDigit then
    let n := digits.foldl (fun n c => 10 * n + (c.toNat - '0'.toNat)) 0
    if n < UInt32.size then some n else none
  else none

/-- The bounds of a counted repetition, from what stands between its braces. -/
def readBounds (f : Flags) (s : List Char) : Option (Nat × Option Nat) := do
  let s := if f.spaced then s.filter (!Text.isBlank ·) else s
  match Text.splitOnce ',' s with
  | none =>
    let n ← count? s
    return (n, some n)
  | some (least, []) => return (← count? least, none)
  | some (least, most) =>
    let least ← count? least
    let most ← count? most
    guard (least ≤ most)
    return (least, some most)

/-! ## Classes -/

/-- How two parts of a class are put together. -/
inductive ClassOperator where
  | inter | diff | symmDiff

/-- The class of two parts. Under flags that ask for it, both cases count in both of them. -/
def ClassOperator.apply (f : Flags) (op : ClassOperator) (a b : CharClass) : CharClass :=
  let a := f.folded a
  let b := f.folded b
  match op with
  | inter => .inter a b
  | diff => .diff a b
  | symmDiff => .union (.diff a b) (.diff b a)

/-- An open part of a class. -/
inductive ClassFrame where
  /-- a bracket inside of a class that has these characters so far -/
  | bracket (outer : CharClass) (negated : Bool)
  /-- an operator behind its first part -/
  | operator (op : ClassOperator) (left : CharClass)

/-- Close the operator that is still open, if there is one. -/
def closeOperator (f : Flags) (frames : List ClassFrame) (items : CharClass) :
    List ClassFrame × CharClass :=
  match frames with
  | .operator op left :: frames => (frames, op.apply f left items)
  | frames => (frames, items)

/-- Open a bracket inside of `outer`: a `^` negates it, and hyphens and a bracket that it begins
with stand for themselves. -/
def openBracket (f : Flags) (frames : List ClassFrame) (outer : CharClass) (s : List Char) :
    List ClassFrame × CharClass × List Char :=
  let s := f.skip s
  let (negated, s) := match s with
    | '^' :: rest => (true, f.skip rest)
    | s => (false, s)
  let frames := .bracket outer negated :: frames
  match s with
  | '-' :: rest => (frames, .one '-', f.skip (rest.dropWhile (· == '-')))
  | ']' :: rest => (frames, .one ']', f.skip rest)
  | s => (frames, .nothing, s)

/-- A class with a name between colons, such as `[:alpha:]`. -/
def readAsciiClass (f : Flags) (s : List Char) : Option (CharClass × List Char) :=
  match s with
  | '[' :: ':' :: rest =>
    let (negated, rest) := match rest with
      | '^' :: rest => (true, rest)
      | rest => (false, rest)
    match Text.splitOnce ':' rest with
    | some (name, ']' :: rest) =>
      (asciiClass? (String.ofList name)).map fun cls =>
        let cls := f.folded cls
        (if negated then .negated cls else cls, rest)
    | _ => none
  | _ => none

/-- One character or named class in a class. -/
def readClassItem (f : Flags) : List Char → Option (Escape × List Char)
  | [] => none
  | '\\' :: rest => readEscape f rest
  | c :: rest => some (.literal c, rest)

def itemClass? : Escape → Option CharClass
  | .literal c => some (.one c)
  | .named cls => some cls
  | .look _ => none

/-- A character, a range of characters or a named class in a class. -/
def readClassRange (f : Flags) (s : List Char) : Option (CharClass × List Char) := do
  let (first, rest) ← readClassItem f s
  match f.skip rest with
  | [] => none
  | '-' :: more =>
    match f.skip more with
    | [] => none
    | next :: more =>
      if next = ']' ∨ next = '-' then return (← itemClass? first, f.skip rest)
      match first, ← readClassItem f (next :: more) with
      | .literal least, (.literal most, rest) =>
        guard (least ≤ most)
        return (.range least most, rest)
      | _, _ => none
  | rest => return (← itemClass? first, rest)

def bracketClass (f : Flags) (negated : Bool) (items : CharClass) : CharClass :=
  let cls := f.folded items
  if negated then .negated cls else cls

/-- Read a class behind its opening bracket, inside of the open `frames`; `items` are the characters
since the last of them. -/
def readClass (f : Flags) (frames : List ClassFrame) (items : CharClass) (s : List Char) :
    Option (CharClass × List Char) :=
  let goOn (frames : List ClassFrame) (items : CharClass) (rest : List Char) :=
    if rest.length < s.length then readClass f frames items rest else none
  let operator (op : ClassOperator) (rest : List Char) :=
    let (frames, left) := closeOperator f frames items
    goOn (.operator op left :: frames) .nothing rest
  match f.skip s with
  | [] => none
  | '[' :: rest =>
    match readAsciiClass f ('[' :: rest) with
    | some (cls, rest) => goOn frames (.union items cls) rest
    | none =>
      let (frames, items, rest) := openBracket f frames items rest
      goOn frames items rest
  | ']' :: rest =>
    match closeOperator f frames items with
    | (.bracket outer negated :: frames, items) =>
      let cls := bracketClass f negated items
      if frames.isEmpty then some (cls, rest) else goOn frames (.union outer cls) rest
    | _ => none
  | '&' :: '&' :: rest => operator .inter rest
  | '-' :: '-' :: rest => operator .diff rest
  | '~' :: '~' :: rest => operator .symmDiff rest
  | s =>
    match readClassRange f s with
    | none => none
    | some (cls, rest) => goOn frames (.union items cls) rest
termination_by s.length

/-- A class without Unicode must not go beyond ASCII. -/
def isAllowed (f : Flags) (cls : CharClass) : Bool :=
  f.unicode || (List.range 0x80).all fun n => !cls.contains (Char.ofNat (0x80 + n))

/-! ## Patterns -/

/-- One group that is open. -/
structure Group where
  flags : Flags
  /-- the alternatives that are complete, in reverse order -/
  alternatives : List Pattern := []
  /-- the parts of the last alternative, in reverse order; flags in between are no part that can be
  repeated -/
  parts : List (Option Pattern) := []

namespace Group

def lastAlternative (g : Group) : Pattern := sequence (g.parts.reverse.filterMap id)

def pattern (g : Group) : Pattern := choice (g.lastAlternative :: g.alternatives).reverse

def push (g : Group) (p : Pattern) : Group := { g with parts := some p :: g.parts }

/-- The group with its last part repeated, if there is one. -/
def repeatLast? (g : Group) (least : Nat) (most : Option Nat) (lazy : Bool) : Option Group :=
  match g.parts with
  | some p :: parts =>
    some { g with parts := some (.repeat least most (lazy == g.flags.swapGreed) p) :: parts }
  | _ => none

end Group

/-- The text behind a question mark that makes a repetition lazy, and whether there is one. -/
def readLazy : List Char → Bool × List Char
  | '?' :: rest => (true, rest)
  | s => (false, s)

/-- A group that looks ahead or behind, which patterns do not have. -/
def isLookAround (s : List Char) : Bool :=
  ["?=", "?!", "?<=", "?<!"].any fun mark => mark.toList.isPrefixOf s

/-- The name of a group up to its closing bracket. -/
def readGroupName (s : List Char) : Option (List Char × List Char) := do
  let (name, rest) ← Text.splitOnce '>' s
  let isLetter (c : Char) := Text.isWordChar c && !Text.isDecimalDigit c
  match name with
  | [] => none
  | first :: others =>
    guard (isLetter first)
    guard (others.all fun c => Text.isWordChar c || c == '.' || c == '[' || c == ']')
    return (name, rest)

def dotClass (f : Flags) : CharClass :=
  if f.dotAll then .negated .nothing
  else if f.crlf then .negated (.ofRanges [('\n', '\n'), ('\r', '\r')])
  else .negated (.one '\n')

/-- How deep groups may lie inside of each other. -/
def maxDepth : Nat := 250

/-- Read a pattern from some place on, inside of the open groups `outer` and `g`. No two groups have
the same name. -/
def readFrom (outer : List Group) (g : Group) (names : List (List Char)) (s : List Char) :
    Option Pattern :=
  let goOn (outer : List Group) (g : Group) (names : List (List Char)) (rest : List Char) :=
    if rest.length < s.length then readFrom outer g names rest else none
  let openGroup (flags : Flags) (names : List (List Char)) (rest : List Char) :=
    if outer.length < maxDepth then goOn (g :: outer) { flags } names rest else none
  let openNamed (rest : List Char) :=
    match readGroupName rest with
    | none => none
    | some (name, rest) =>
      if names.contains name then none else openGroup g.flags (name :: names) rest
  let repeated (least : Nat) (most : Option Nat) (rest : List Char) :=
    let (lazy, rest) := readLazy rest
    match g.repeatLast? least most lazy with
    | none => none
    | some g => goOn outer g names rest
  let item (p : Pattern) (rest : List Char) := goOn outer (g.push p) names rest
  let classItem (cls : CharClass) (rest : List Char) :=
    if isAllowed g.flags cls then item (.char cls) rest else none
  match g.flags.skip s with
  | [] => if outer.isEmpty then some g.pattern else none
  | '(' :: rest =>
    let rest := g.flags.skip rest
    if isLookAround rest then none
    else
      match rest with
      | '?' :: 'P' :: '<' :: rest => openNamed rest
      | '?' :: '<' :: rest => openNamed rest
      | '?' :: rest =>
        match readFlags g.flags rest with
        | none => none
        | some (flags, ':', rest) => openGroup flags names rest
        | some (flags, _, rest) =>
          goOn outer { g with flags := flags, parts := none :: g.parts } names rest
      | rest => openGroup g.flags names rest
  | ')' :: rest =>
    match outer with
    | [] => none
    | above :: outer => goOn outer (above.push g.pattern) names rest
  | '|' :: rest =>
    goOn outer { g with alternatives := g.lastAlternative :: g.alternatives, parts := [] } names rest
  | '[' :: rest =>
    let (frames, items, rest) := openBracket g.flags [] .nothing rest
    match readClass g.flags frames items rest with
    | none => none
    | some (cls, rest) => classItem cls rest
  | '?' :: rest => repeated 0 (some 1) rest
  | '*' :: rest => repeated 0 none rest
  | '+' :: rest => repeated 1 none rest
  | '\x7B' :: rest =>
    match Text.splitOnce '\x7D' rest with
    | none => none
    | some (bounds, rest) =>
      match readBounds g.flags bounds with
      | none => none
      | some (least, most) => repeated least most (g.flags.skip rest)
  | '\\' :: rest =>
    match readEscape g.flags rest with
    | none => none
    | some (.literal c, rest) => item (.char (g.flags.one c)) rest
    | some (.named cls, rest) => classItem cls rest
    | some (.look l, rest) => item (.look l) rest
  | '.' :: rest => if g.flags.unicode then item (.char (dotClass g.flags)) rest else none
  | '^' :: rest =>
    item (.look (if g.flags.manyLines then .lineStart g.flags.crlf else .textStart)) rest
  | '$' :: rest =>
    item (.look (if g.flags.manyLines then .lineEnd g.flags.crlf else .textEnd)) rest
  | c :: rest => item (.char (g.flags.one c)) rest
termination_by s.length

/-- How many characters a pattern may count when all its repetitions are written out. -/
def maxSize : Nat := 327680

/-- The pattern of a text, if it is one. -/
def parse (text : String) : Option Pattern :=
  (readFrom [] { flags := {} } [] text.toList).filter fun p => p.size < maxSize

end SymbolIndex.Pattern
