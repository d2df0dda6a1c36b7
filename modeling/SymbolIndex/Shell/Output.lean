import SymbolIndex.Text.Blank

/-!
# Escapes and formats

The texts that `echo` and `printf` write.

* `Unescaped`, `unescape`: a text with its backslash escapes undone;
* `Directive`, `Formatted`: what a format does with its arguments;
* `formatted`: the text of a format and its arguments.
-/

namespace SymbolIndex.Shell

def bytesOfText (s : List Char) : List UInt8 := (String.ofList s).toUTF8.data.toList

/-! ## Escapes -/

/-- A text whose escapes are undone, and whether it ends all output. -/
structure Unescaped where
  bytes : List UInt8
  stops : Bool := false

def escapedByte? : Char → Option UInt8
  | 'a' => some 7
  | 'b' => some 8
  | 'e' => some 27
  | 'f' => some 12
  | 'n' => some 10
  | 'r' => some 13
  | 't' => some 9
  | 'v' => some 11
  | '\\' => some 92
  | _ => none

/-- The digits of an octal number of at most three digits. -/
def octalDigits (s : List Char) : List Char :=
  (s.take 3).takeWhile fun c => '0' ≤ c && c ≤ '7'

def octalByte (digits : List Char) : UInt8 :=
  (digits.foldl (fun n c => 8 * n + (c.toNat - '0'.toNat)) 0).toUInt8

/-- Undo the escapes of a text behind its first `skip` characters. If `zero` is set, a zero in front
of an octal number does not count as one of its digits. -/
def unescapeFrom (zero : Bool) (skip : Nat) : List Char → Unescaped
  | [] => ⟨[], false⟩
  | c :: rest =>
    match skip with
    | skip + 1 => unescapeFrom zero skip rest
    | 0 =>
      let go (bytes : List UInt8) (skip : Nat) : Unescaped :=
        let u := unescapeFrom zero skip rest
        { u with bytes := bytes ++ u.bytes }
      match c, rest with
      | '\\', 'c' :: _ => ⟨[], true⟩
      | '\\', d :: more =>
        match escapedByte? d with
        | some b => go [b] 1
        | none =>
          if zero ∧ d = '0' then
            let digits := octalDigits more
            go [octalByte digits] (1 + digits.length)
          else
            match octalDigits rest with
            | [] => go [92] 0
            | digits => go [octalByte digits] digits.length
      | c, _ => go (bytesOfText [c]) 0

/-- The text with its escapes undone. -/
def unescape (zero : Bool) (s : List Char) : Unescaped := unescapeFrom zero 0 s

/-! ## Formats -/

/-- How an argument is written. -/
structure Directive where
  text : List Char
  flags : List Char
  width : Nat
  places : Option Nat
  letter : Char

/-- A part of a format. -/
inductive FormatPart where
  | text (s : List Char)
  | argument (d : Directive)
  | bad (complaint : String)

/-- The number that a text begins with, and how many digits it has. -/
def leadingNumber (s : List Char) : Option Nat × Nat :=
  let digits := s.takeWhile Char.isDigit
  ((String.ofList digits).toNat?, digits.length)

/-- The directive behind a percent sign and how many characters it takes, or what is wrong with
it. -/
def directive (s : List Char) : Except String (Directive × Nat) :=
  let flags := s.takeWhile "-+ #0".toList.contains
  let rest := s.drop flags.length
  let (width, used) := leadingNumber rest
  let rest := rest.drop used
  let (places, rest) :=
    match rest with
    | '.' :: more => (some ((leadingNumber more).1.getD 0), more.drop (leadingNumber more).2)
    | rest => (none, rest)
  let length := s.length - rest.length + 1
  match rest with
  | [] => .error "missing format character"
  | letter :: _ =>
    let text := '%' :: s.take length
    if "sbcdiuxXo".toList.contains letter then
      .ok (⟨text, flags, width.getD 0, places, letter⟩, length)
    else .error (String.ofList text ++ ": invalid directive")

/-- The parts of a format behind its first `skip` characters. -/
def formatParts (skip : Nat) : List Char → List FormatPart
  | [] => []
  | c :: rest =>
    match skip with
    | skip + 1 => formatParts skip rest
    | 0 =>
      match c, rest.head? with
      | '%', some '%' => .text ['%'] :: formatParts 1 rest
      | '%', _ =>
        match directive rest with
        | .ok (d, used) => .argument d :: formatParts used rest
        | .error complaint => [.bad complaint]
      | '\\', some d => .text ['\\', d] :: formatParts 1 rest
      | c, _ => .text [c] :: formatParts 0 rest

/-- The text between arguments, joined. -/
def joinedParts : List FormatPart → List FormatPart
  | .text a :: rest =>
    match joinedParts rest with
    | .text b :: rest => .text (a ++ b) :: rest
    | rest => .text a :: rest
  | part :: rest => part :: joinedParts rest
  | [] => []

/-- What a format writes and what it complains about. -/
structure Formatted where
  bytes : List UInt8 := []
  complaints : List String := []
  stops : Bool := false
  status : Nat := 0

/-- The one after the other. -/
def Formatted.append (a b : Formatted) : Formatted :=
  ⟨a.bytes ++ b.bytes, a.complaints ++ b.complaints, b.stops, max a.status b.status⟩

def digitsOf (base n : Nat) : List Char := Nat.toDigits base n

def digitValue? (c : Char) : Option Nat :=
  if c.isDigit then some (c.toNat - '0'.toNat)
  else if 'a' ≤ c.toLower ∧ c.toLower ≤ 'f' then some (c.toLower.toNat - 'a'.toNat + 10)
  else none

/-- The number that an argument begins with, and what follows it. -/
def argumentNumber (s : List Char) : Int × List Char :=
  match s with
  | '\'' :: c :: _ | '"' :: c :: _ => (c.toNat, [])
  | s =>
    let (negative, s) :=
      match s with
      | '-' :: s => (true, s)
      | '+' :: s => (false, s)
      | s => (false, s)
    let (base, s) :=
      match s with
      | '0' :: 'x' :: d :: s => if (digitValue? d).isSome then (16, d :: s) else (8, '0' :: 'x' :: d :: s)
      | '0' :: s => (8, '0' :: s)
      | s => (10, s)
    let isDigit (c : Char) := (digitValue? c).any (· < base)
    let n := (s.takeWhile isDigit).foldl (fun n c => base * n + (digitValue? c).getD 0) 0
    (if negative then -n else n, s.dropWhile isDigit)

/-- Spaces before or behind a text up to a width. -/
def widened (d : Directive) (bytes : List UInt8) : List UInt8 :=
  let spaces := List.replicate (d.width - bytes.length) 32
  if d.flags.contains '-' then bytes ++ spaces else spaces ++ bytes

def numberText (d : Directive) (n : Int) : List UInt8 :=
  let isSigned := d.letter == 'd' || d.letter == 'i'
  let magnitude := if isSigned then n.natAbs else (n % (1 <<< 64 : Nat)).toNat
  let digits :=
    match d.letter with
    | 'x' => digitsOf 16 magnitude
    | 'X' => (digitsOf 16 magnitude).map Char.toUpper
    | 'o' => digitsOf 8 magnitude
    | _ => digitsOf 10 magnitude
  let sign :=
    if !isSigned then []
    else if n < 0 then ['-']
    else if d.flags.contains '+' then ['+']
    else if d.flags.contains ' ' then [' ']
    else []
  let places :=
    match d.places with
    | some places => places
    | none =>
      if d.flags.contains '0' ∧ d.flags.contains '-' = false then d.width - sign.length else 0
  widened d (bytesOfText (sign ++ List.replicate (places - digits.length) '0' ++ digits))

def Directive.apply (d : Directive) (argument : Option (List Char)) : Formatted :=
  let text := argument.getD []
  let shortened (bytes : List UInt8) := (d.places.map bytes.take).getD bytes
  match d.letter with
  | 's' => { bytes := widened d (shortened (bytesOfText text)) }
  | 'b' =>
    let u := unescape true text
    { bytes := widened d (shortened u.bytes), stops := u.stops }
  | 'c' => { bytes := widened d (if text = [] then [0] else (bytesOfText text).take 1) }
  | _ =>
    let (n, rest) := argumentNumber text
    let complaint :=
      if argument = none ∨ rest = [] ∧ text ≠ [] then []
      else if rest = text then [String.ofList text ++ ": expected numeric value"]
      else [String.ofList text ++ ": not completely converted"]
    { bytes := numberText d n, complaints := complaint, status := if complaint = [] then 0 else 1 }

/-- One pass over the format: what it writes, and the arguments that are left. -/
def formatOnce : List FormatPart → List (List Char) → Formatted × List (List Char)
  | [], arguments => ({}, arguments)
  | part :: parts, arguments =>
    let (u, left) : Formatted × List (List Char) :=
      match part with
      | .text s =>
        let u := unescape false s
        ({ bytes := u.bytes, stops := u.stops }, arguments)
      | .argument d => (d.apply arguments.head?, arguments.tail)
      | .bad complaint => ({ complaints := [complaint], stops := true, status := 2 }, [])
    if u.stops then (u, [])
    else
      let (v, left) := formatOnce parts left
      (u.append v, left)

/-- Pass over the format as long as it uses up arguments. -/
def formatAll (parts : List FormatPart) : Nat → List (List Char) → Formatted
  | 0, _ => {}
  | passes + 1, arguments =>
    let (u, left) := formatOnce parts arguments
    if u.stops ∨ left = [] ∨ left.length = arguments.length then u
    else u.append (formatAll parts passes left)

def formatted (format : List Char) (arguments : List (List Char)) : Formatted :=
  formatAll (joinedParts (formatParts 0 format)) (arguments.length + 1) arguments

end SymbolIndex.Shell
