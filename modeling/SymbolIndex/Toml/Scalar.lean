import SymbolIndex.Toml.Value
import SymbolIndex.Text.Ascii

/-!
# Texts, numbers and dates in TOML

Readers for the values that hold no other values. A reader takes characters off the front of the
text and leaves the rest; it fails where the text is not well-formed.

* `Reader`: what takes characters off a text;
* `basicString`, `literalString`, `multilineBasic`, `multilineLiteral`: the four sorts of texts;
* `integer`, `float`, `dateTime`: numbers and dates;
* `scalar`: any of them, told apart by how they begin.
-/

namespace SymbolIndex.Toml

/-- What takes characters off the front of a text, or fails. -/
abbrev Reader := StateT (List Char) Option

namespace Reader

/-- Take one given character. -/
def char (c : Char) : Reader Unit := fun
  | d :: rest => if d = c then some ((), rest) else none
  | [] => none

/-- Take a given text. -/
def text (s : List Char) : Reader Unit := fun input =>
  if s.isPrefixOf input then some ((), input.drop s.length) else none

/-- Take one character of a class. -/
def one (p : Char → Bool) : Reader Char := fun
  | d :: rest => if p d then some (d, rest) else none
  | [] => none

/-- Take the characters of a class. -/
def many (p : Char → Bool) : Reader (List Char) := fun input =>
  some (input.takeWhile p, input.dropWhile p)

/-- Take `n` characters of a class. -/
def exactly (n : Nat) (p : Char → Bool) : Reader (List Char) := fun input =>
  let taken := input.take n
  if taken.length = n ∧ taken.all p = true then some (taken, input.drop n) else none

/-- The next character, which stays. -/
def peek : Reader (Option Char) := fun input => some (input.head?, input)

/-- The characters that are left, which stay. -/
def rest : Reader (List Char) := fun input => some (input, input)

/-- Try a reader; where it fails, nothing is taken. -/
def optional {α : Type} (r : Reader α) : Reader (Option α) := fun input =>
  match r input with
  | some (a, rest) => some (some a, rest)
  | none => some (none, input)

/-- Go on only if something holds. -/
def require (b : Bool) : Reader Unit := fun input => if b then some ((), input) else none

end Reader

/-- A blank inside of a line. -/
def isSpace (c : Char) : Bool := c == ' ' || c == '\t'

def isHexDigit (c : Char) : Bool :=
  c.isDigit || ('a' ≤ c && c ≤ 'f') || ('A' ≤ c && c ≤ 'F')

/-- The value of a digit in any base up to sixteen. -/
def digitValue (c : Char) : Nat :=
  if c.isDigit then c.toNat - '0'.toNat
  else if 'a' ≤ c then c.toNat - 'a'.toNat + 10
  else c.toNat - 'A'.toNat + 10

def ofDigits (base : Nat) (digits : List Char) : Nat :=
  digits.foldl (fun n c => base * n + digitValue c) 0

/-! ## Texts -/

/-- A character that may stand in a text or a comment as it is, apart from the ones that end it. -/
def isPlain (c : Char) : Bool := c == '\t' || (0x20 ≤ c.toNat && c.toNat != 0x7F)

/-- The character of a code point. -/
def charOf (n : Nat) : Option Char := if n.isValidChar then some (Char.ofNat n) else none

/-- What stands behind a backslash: the character it means, and how many characters that takes. -/
def escape : List Char → Option (Char × Nat)
  | 'b' :: _ => some ('\x08', 1)
  | 't' :: _ => some ('\t', 1)
  | 'n' :: _ => some ('\n', 1)
  | 'f' :: _ => some ('\x0c', 1)
  | 'r' :: _ => some ('\r', 1)
  | '"' :: _ => some ('"', 1)
  | '\\' :: _ => some ('\\', 1)
  | 'u' :: rest => unicode 4 rest
  | 'U' :: rest => unicode 8 rest
  | _ => none
where
  /-- A code point of so many digits. -/
  unicode (n : Nat) (rest : List Char) : Option (Char × Nat) :=
    let digits := rest.take n
    if digits.length = n ∧ digits.all isHexDigit = true then
      (charOf (ofDigits 16 digits)).map (·, n + 1)
    else none

/-- The rest of a text in double quotes. -/
def basicBody : List Char → Option (List Char × List Char)
  | [] => none
  | '"' :: rest => some ([], rest)
  | '\\' :: rest =>
    match escape rest with
    | none => none
    | some (c, used) => (basicBody (rest.drop used)).map fun (s, r) => (c :: s, r)
  | c :: rest => if isPlain c then (basicBody rest).map fun (s, r) => (c :: s, r) else none
termination_by s => s.length
decreasing_by all_goals simp only [List.length_drop, List.length_cons]; omega

/-- The rest of a text in single quotes. -/
def literalBody : List Char → Option (List Char × List Char)
  | [] => none
  | '\'' :: rest => some ([], rest)
  | c :: rest => if isPlain c then (literalBody rest).map fun (s, r) => (c :: s, r) else none

/-- A text in double quotes. -/
def basicString : Reader (List Char) := do
  Reader.char '"'
  fun input => basicBody input

/-- A text in single quotes. -/
def literalString : Reader (List Char) := do
  Reader.char '\''
  fun input => literalBody input

/-- The text without the line end it begins with. -/
def dropLineEnd : List Char → List Char
  | '\r' :: '\n' :: rest => rest
  | '\n' :: rest => rest
  | s => s

/-- What an escaped line end leaves: the text from the next character on that is no blank. There has
to be a line end before it. -/
def dropFolded (s : List Char) : Option (List Char) :=
  let s := s.dropWhile isSpace
  if (dropLineEnd s).length < s.length then
    some (s.dropWhile fun c => isSpace c || c == '\n' || c == '\r')
  else none

/-- The rest of a text in three quotes of a sort. Up to two quotes may stand before the three that
end it. A line end reads as a line feed. -/
def multilineBody (quote : Char) (escapes : Bool) : Nat → List Char →
    Option (List Char × List Char)
  | 0, _ => none
  | fuel + 1, s =>
    let quotes := (s.takeWhile (· == quote)).length
    if 3 ≤ quotes then
      if quotes ≤ 5 then some (List.replicate (quotes - 3) quote, s.drop quotes)
      else some ([quote, quote], s.drop 5)
    else
      let go (c : Char) (rest : List Char) :=
        (multilineBody quote escapes fuel rest).map fun (s, r) => (c :: s, r)
      match s with
      | [] => none
      | '\r' :: '\n' :: rest => go '\n' rest
      | '\n' :: rest => go '\n' rest
      | c :: rest =>
        if c = '\\' ∧ escapes = true then
          match escape rest, dropFolded rest with
          | some (d, used), _ => go d (rest.drop used)
          | none, some rest => multilineBody quote escapes fuel rest
          | none, none => none
        else if isPlain c then go c rest
        else none

/-- A text in three quotes of a sort; a line end right behind the quotes does not count. -/
def multiline (quote : Char) (escapes : Bool) : Reader (List Char) := do
  Reader.text [quote, quote, quote]
  fun input => multilineBody quote escapes (input.length + 1) (dropLineEnd input)

/-- A text in three double quotes. -/
def multilineBasic : Reader (List Char) := multiline '"' true

/-- A text in three single quotes. -/
def multilineLiteral : Reader (List Char) := multiline '\'' false

/-! ## Numbers -/

/-- Digits of a class, with underscores between digits: the digits. -/
def grouped (p : Char → Bool) : Reader (List Char) := fun input =>
  let taken := input.takeWhile fun c => p c || c == '_'
  let groups := splitGroups taken
  if groups.all (!·.isEmpty) then some (groups.flatten, input.drop taken.length) else none
where
  /-- The groups between underscores. -/
  splitGroups (s : List Char) : List (List Char) :=
    s.foldr (fun c groups =>
      if c = '_' then [] :: groups
      else match groups with
        | [] => [[c]]
        | g :: gs => (c :: g) :: gs) [[]]

def sign : Reader (Option Char) := Reader.optional (Reader.one fun c => c == '+' || c == '-')

/-- Decimal digits that do not begin with a zero, unless they are one zero. -/
def decimalDigits : Reader (List Char) := do
  if (← Reader.peek) = some '0' then
    Reader.char '0'
    return ['0']
  else grouped Text.isDigit

/-- A number in one of the bases that a letter names. -/
def based : Reader Int := do
  Reader.char '0'
  let base ← Reader.one fun c => c == 'x' || c == 'o' || c == 'b'
  let digits ←
    if base = 'x' then grouped isHexDigit
    else if base = 'o' then grouped fun c => '0' ≤ c && c ≤ '7'
    else grouped fun c => c == '0' || c == '1'
  return ofDigits (if base = 'x' then 16 else if base = 'o' then 8 else 2) digits

/-- The number fits into a signed word of 64 bits. -/
def isWord (n : Int) : Bool := Int64.minValue.toInt ≤ n && n ≤ Int64.maxValue.toInt

/-- A whole number. -/
def integer : Reader Int := do
  let n ← match ← Reader.optional based with
    | some n => pure n
    | none => do
      let s ← sign
      let n : Int := ofDigits 10 (← decimalDigits)
      pure (if s = some '-' then -n else n)
  Reader.require (isWord n)
  return n

def exponent : Reader Int := do
  let _ ← Reader.one fun c => c == 'e' || c == 'E'
  let s ← sign
  let n : Int := ofDigits 10 (← grouped Text.isDigit)
  return if s = some '-' then -n else n

/-- The least whole number that counts as infinite, as it lies halfway between the largest finite
number and the next power of two. -/
def infinite : Nat := (1 <<< 1024) - (1 <<< 970)

/-- So many times a power of ten is an infinite number. -/
def isInfinite (n : Nat) (power : Int) : Bool :=
  let length : Int := (toString n).length
  if n = 0 ∨ length + power < 300 then false
  else if 310 < length + power then true
  else if 0 ≤ power then infinite ≤ n * Nat.pow 10 power.toNat
  else infinite * Nat.pow 10 (-power).toNat ≤ n

/-- A number with a fraction, an exponent or both, or one that is no finite number. A positive
number that is too large to be finite is refused. -/
def float : Reader Unit := do
  let s ← sign
  match ← Reader.optional (Reader.text "inf".toList), ← Reader.optional (Reader.text "nan".toList) with
  | some _, _ => pure ()
  | _, some _ => pure ()
  | none, none => do
    let whole ← decimalDigits
    let (fraction, power) ← match ← Reader.optional exponent with
      | some power => pure (([] : List Char), power)
      | none => do
        Reader.char '.'
        let fraction ← grouped Text.isDigit
        let power ← Reader.optional exponent
        pure (fraction, power.getD 0)
    Reader.require
      (s = some '-' || !isInfinite (ofDigits 10 (whole ++ fraction)) (power - fraction.length))

/-! ## Dates and times -/

/-- A number of `n` digits between two bounds. -/
def bounded (n low high : Nat) : Reader Nat := do
  let value := ofDigits 10 (← Reader.exactly n Text.isDigit)
  Reader.require (low ≤ value && value ≤ high)
  return value

def daysOf (year month : Nat) : Nat :=
  if month = 2 then
    if year % 4 = 0 ∧ (year % 100 ≠ 0 ∨ year % 400 = 0) then 29 else 28
  else if month = 4 ∨ month = 6 ∨ month = 9 ∨ month = 11 then 30
  else 31

def date : Reader Unit := do
  let year ← bounded 4 0 9999
  Reader.char '-'
  let month ← bounded 2 1 12
  Reader.char '-'
  let _ ← bounded 2 1 (daysOf year month)

def time : Reader Unit := do
  let _ ← bounded 2 0 23
  Reader.char ':'
  let _ ← bounded 2 0 59
  Reader.char ':'
  let _ ← bounded 2 0 60
  if (← Reader.peek) = some '.' then
    Reader.char '.'
    let digits ← Reader.many Text.isDigit
    Reader.require (!digits.isEmpty)

/-- How far a time is from the one at Greenwich. -/
def offset : Reader Unit := do
  let c ← Reader.one fun c => c == 'Z' || c == 'z' || c == '+' || c == '-'
  if c = '+' ∨ c = '-' then
    let _ ← bounded 2 0 23
    Reader.char ':'
    let _ ← bounded 2 0 59

/-- A day, a time, or both. -/
def dateTime : Reader Unit := do
  match ← Reader.optional time with
  | some _ => pure ()
  | none => do
    date
    let _ ← Reader.optional do
      let _ ← Reader.one fun c => c == 'T' || c == 't' || c == ' '
      time
      let _ ← Reader.optional offset

/-! ## Values without values in them -/

/-- The first reader that does not fail. -/
def firstOf {α : Type} (readers : List (Reader α)) : Reader α := fun input =>
  readers.findSome? fun r => r input

/-- A text, a number, a date or a truth value. -/
def scalar : Reader Value := do
  match ← Reader.peek with
  | none => failure
  | some c =>
    if c = '"' then
      return .string (String.ofList (← firstOf [multilineBasic, basicString]))
    else if c = '\'' then
      return .string (String.ofList (← firstOf [multilineLiteral, literalString]))
    else if c = 't' then do
      Reader.text "true".toList
      return .boolean true
    else if c = 'f' then do
      Reader.text "false".toList
      return .boolean false
    else
      firstOf [do dateTime; return .dateTime, do float; return .float,
        do return .integer (← integer)]

end SymbolIndex.Toml
