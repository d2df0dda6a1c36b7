import SymbolIndex.Pattern.Search

/-!
# Globs

Patterns for paths: `?` is one byte of a name, `*` any number of them, `**` between slashes any
number of directories, brackets hold a class and braces alternatives. A glob fits a path byte by
byte, so `?` fits half of a character that takes two.

* `Glob`, `Glob.Token`: globs;
* `Glob.parse`: the glob of a text, if it is one;
* `Glob.pattern`, `Glob.fits`: the paths that a glob fits.
-/

namespace SymbolIndex

namespace Glob

/-- One piece of a glob. -/
inductive Token where
  | literal (c : Char)
  /-- `?` -/
  | any
  /-- `*` -/
  | many
  /-- `**` at the beginning, with the slash behind it -/
  | leading
  /-- `**` at the end, with the slash before it -/
  | trailing
  /-- `**` in between, with the slashes around it -/
  | between
  | cls (negated : Bool) (ranges : List (Char × Char))
  | choice (alternatives : List (List Token))

end Glob

/-- A pattern for paths. -/
abbrev Glob := List Glob.Token

namespace Glob

/-! ## Reading -/

/-- The alternatives that are open: those of one pair of braces, each in reverse order, the last one
in front. -/
abbrev Branches := List (List Token)

/-- Where the reading stands: the tokens outside of any braces, in reverse order, and the open
braces, the innermost in front. -/
structure Reading where
  outside : List Token := []
  braces : List Branches := []

namespace Reading

/-- The tokens of the branch that is being read, in reverse order. -/
def current (r : Reading) : List Token :=
  match r.braces with
  | (branch :: _) :: _ => branch
  | _ => r.outside

/-- The reading with other tokens in the branch that is being read. -/
def withCurrent (r : Reading) (tokens : List Token) : Reading :=
  match r.braces with
  | (_ :: branches) :: braces => { r with braces := (tokens :: branches) :: braces }
  | _ => { r with outside := tokens }

def push (r : Reading) (token : Token) : Reading := r.withCurrent (token :: r.current)

/-- The reading inside of new braces. -/
def openBraces (r : Reading) : Reading := { r with braces := [[]] :: r.braces }

/-- The reading in the next alternative; outside of braces a comma is a comma. -/
def comma (r : Reading) : Reading :=
  match r.braces with
  | branches :: braces => { r with braces := ([] :: branches) :: braces }
  | [] => r.push (.literal ',')

/-- The reading behind the innermost braces, if there are any. -/
def closeBraces? (r : Reading) : Option Reading :=
  match r.braces with
  | branches :: braces =>
    some ({ r with braces }.push (.choice (branches.reverse.map List.reverse)))
  | [] => none

/-- The glob that has been read, if no braces are open. -/
def glob? (r : Reading) : Option Glob := if r.braces.isEmpty then some r.outside.reverse else none

end Reading

/-- A step in the reading of a class: its ranges so far, in reverse order, and whether a hyphen that
may make a range stands behind the last of them. -/
structure ClassReading where
  ranges : List (Char × Char) := []
  hyphen : Bool := false

/-- The class with one more character, unless that makes an empty range. -/
def ClassReading.add? (r : ClassReading) (c : Char) : Option ClassReading :=
  match r.hyphen, r.ranges with
  | true, (least, _) :: ranges => if c < least then none else some ⟨(least, c) :: ranges, false⟩
  | _, ranges =>
    if c = '-' ∧ ranges ≠ [] then some ⟨ranges, true⟩ else some ⟨(c, c) :: ranges, false⟩

/-- The ranges of a class and the text behind it. A bracket right at its beginning stands for
itself. -/
inductive ClassEnd where
  | closed (ranges : List (Char × Char)) (rest : List Char)
  | unclosed
  | invalid

/-- Read a class up to its closing bracket. -/
def readClassFrom (r : ClassReading) : List Char → ClassEnd
  | [] => .unclosed
  | c :: rest =>
    if c = ']' ∧ r.ranges ≠ [] then
      .closed (if r.hyphen then ('-', '-') :: r.ranges else r.ranges).reverse rest
    else
      match r.add? c with
      | none => .invalid
      | some r => readClassFrom r rest

/-- What stands between two stars and what comes next. -/
inductive StarEnd where
  /-- the stars end the branch -/
  | branchEnd
  /-- a slash follows -/
  | slash (rest : List Char)
  | other

/-- What follows two stars. -/
def starEnd (inBraces : Bool) : List Char → StarEnd
  | [] => .branchEnd
  | '/' :: rest => .slash rest
  | c :: _ => if inBraces ∧ (c = ',' ∨ c = '\x7D') then .branchEnd else .other

/-- Read two stars behind the character `before`; the result has the text that is left. Between
slashes they stand for directories, anywhere else for two single stars. -/
def readStars (r : Reading) (before : Option Char) (rest : List Char) : Reading × List Char :=
  let inBraces := !r.braces.isEmpty
  let plain := ((r.push .many).push .many, rest)
  match r.current with
  | [] =>
    match rest with
    | [] => (r.push .leading, [])
    | '/' :: rest => (r.push .leading, rest)
    | _ => plain
  | last :: tokens =>
    if before = some '/' ∨ (inBraces ∧ (before = some ',' ∨ before = some '\x7B')) then
      let replaced (token : Token) :=
        match last with
        | .leading => r.withCurrent (.leading :: tokens)
        | .trailing => r.withCurrent (.trailing :: tokens)
        | _ => r.withCurrent (token :: tokens)
      match starEnd inBraces rest with
      | .branchEnd => (replaced .trailing, rest)
      | .slash rest => (replaced .between, rest)
      | .other => plain
    else plain

/-- The text behind the mark that negates a class, and whether there is one. -/
def readNegation : List Char → Bool × List Char
  | '!' :: rest => (true, rest)
  | '^' :: rest => (true, rest)
  | s => (false, s)

/-- Read a glob from some place on, behind the character `before`. A bracket that is never closed
stands for itself. -/
def readFrom (r : Reading) (before : Option Char) (s : List Char) : Option Glob :=
  let goOn (r : Reading) (before : Char) (rest : List Char) :=
    if rest.length < s.length then readFrom r (some before) rest else none
  match s with
  | [] => r.glob?
  | '?' :: rest => goOn (r.push .any) '?' rest
  | '*' :: '*' :: rest =>
    let (r, left) := readStars r before rest
    goOn r (if left.length < rest.length then '/' else '*') left
  | '*' :: rest => goOn (r.push .many) '*' rest
  | '[' :: rest =>
    let (negated, inner) := readNegation rest
    match readClassFrom {} inner with
    | .closed ranges rest => goOn (r.push (.cls negated ranges)) ']' rest
    | .unclosed => goOn (r.push (.literal '[')) '[' rest
    | .invalid => none
  | '\x7B' :: rest => goOn r.openBraces '\x7B' rest
  | '\x7D' :: rest =>
    match r.closeBraces? with
    | none => none
    | some r => goOn r '\x7D' rest
  | ',' :: rest => goOn r.comma ',' rest
  | '\\' :: c :: rest => goOn (r.push (.literal c)) c rest
  | ['\\'] => none
  | c :: rest => goOn (r.push (.literal c)) c rest
termination_by s.length

/-- The glob of a text. Braces have to match, a range must not be empty, and a backslash needs a
character behind it. -/
def parse (text : List Char) : Option Glob := readFrom {} none text

/-! ## Fitting -/

/-- The bytes of a text, each as a character. -/
def byteChars (s : List Char) : List Char :=
  (String.ofList s).toUTF8.data.toList.map fun b => Char.ofNat b.toNat

def anyByte : CharClass := .negated .nothing

def anything : Pattern := .repeat 0 none true (.char anyByte)

/-- Any byte but a slash. -/
def nameByte : CharClass := .negated (.one '/')

def slash : Pattern := .char (.one '/')

/-- The bytes of a range of characters: where they take more than one byte, the range lies between
the last byte of the first and the first byte of the last, and the other bytes count one by one. -/
def rangeBytes (range : Char × Char) : List (Char × Char) :=
  let single (c : Char) := (c, c)
  let first := byteChars [range.1]
  let last := byteChars [range.2]
  if range.1 = range.2 then first.map single
  else
    first.dropLast.map single ++ (first.getLastD range.1, last.headD range.2) ::
      last.tail.map single

def classBytes (negated : Bool) (ranges : List (Char × Char)) : CharClass :=
  let cls := CharClass.ofRanges (ranges.flatMap rangeBytes)
  if negated then .negated cls else cls

mutual

/-- The pattern of one token. Alternatives that are empty do not count. -/
def tokenPattern : Token → Pattern
  | .literal c => Pattern.sequence ((byteChars [c]).map fun b => .char (.one b))
  | .any => .char nameByte
  | .many => .repeat 0 none true (.char nameByte)
  | .leading => .alt (.repeat 0 (some 1) true slash) (anything.followedBy slash)
  | .trailing => slash.followedBy anything
  | .between => .alt slash (slash.followedBy (anything.followedBy slash))
  | .cls negated ranges => .char (classBytes negated ranges)
  | .choice alternatives => Pattern.choice (alternativePatterns alternatives)

/-- The patterns of the alternatives that are not empty. -/
def alternativePatterns : List (List Token) → List Pattern
  | [] => []
  | tokens :: rest =>
    if tokens.isEmpty then alternativePatterns rest
    else tokensPattern tokens :: alternativePatterns rest

def tokensPattern : List Token → Pattern
  | [] => .empty
  | token :: tokens => (tokenPattern token).followedBy (tokensPattern tokens)

end

/-- The pattern of a glob, on paths as bytes. -/
def pattern (g : Glob) : Pattern :=
  match g with
  | [.leading] => anything
  | tokens => tokensPattern tokens

end Glob

end SymbolIndex
