import SymbolIndex.Text.Blank

/-!
# Words and operators of command lines

A command line is cut into words and operators. Quotes, dollar signs and backslashes act inside of
words; what they protect stands for itself.

* `Piece`, `Word`: words;
* `Control`, `Redirection`, `Token`, `Lexeme`: what a command line consists of;
* `Lexeme.ofText`: the lexemes of a command line.
-/

namespace SymbolIndex.Shell

/-! ## Words -/

/-- A piece of a word. What is `quoted` stands for itself. -/
inductive Piece where
  | char (c : Char) (quoted : Bool)
  /-- the value of a parameter -/
  | parameter (name : List Char) (quoted : Bool)
  /-- what a command line prints -/
  | output (commandLine : List Char) (quoted : Bool)
  deriving DecidableEq, Repr

/-- A word of a command line. Part of it may have been `quoted`. -/
structure Word where
  pieces : List Piece := []
  quoted : Bool := false
  deriving DecidableEq, Repr

namespace Word

def push (w : Word) (p : Piece) : Word := { w with pieces := w.pieces ++ [p] }

/-- The text of a word that consists of plain characters. -/
def plain? (w : Word) : Option (List Char) :=
  if w.quoted then none
  else
    w.pieces.mapM fun
      | .char c false => some c
      | _ => none

/-- The number that a word of plain digits has. -/
def number? (w : Word) : Option Nat := do
  let digits ← w.plain?
  guard (digits ≠ [] ∧ digits.all Char.isDigit)
  (String.ofList digits).toNat?

end Word

/-! ## Operators -/

/-- The operators between commands. -/
inductive Control where
  | newline | semicolon | ampersand | both | either | pipe | caseEnd | opening | closing
  deriving DecidableEq, Repr

/-- What a redirection does to a stream. -/
inductive Redirection where
  | read | write | append
  /-- lead to where another stream leads -/
  | duplicate
  deriving DecidableEq, Repr

/-- A word, an operator, or the end. -/
inductive Token where
  | word (w : Word)
  | control (c : Control)
  | redirect (stream : Nat) (r : Redirection)
  | finish
  /-- something that begins here has no end -/
  | broken (complaint : String)
  deriving DecidableEq, Repr

/-- A token and the number of its line. -/
structure Lexeme where
  token : Token
  line : Nat
  deriving DecidableEq, Repr

/-- The operator that a character and the one after it make, and whether it takes both. -/
def control? (c : Char) (next : Option Char) : Option (Control × Nat) :=
  match c, next with
  | '\n', _ => some (.newline, 0)
  | ';', some ';' => some (.caseEnd, 1)
  | ';', _ => some (.semicolon, 0)
  | '&', some '&' => some (.both, 1)
  | '&', _ => some (.ampersand, 0)
  | '|', some '|' => some (.either, 1)
  | '|', _ => some (.pipe, 0)
  | '(', _ => some (.opening, 0)
  | ')', _ => some (.closing, 0)
  | _, _ => none

/-- The redirection that a character and the one after it make, the stream it is usually about, and
whether it takes both characters. -/
def redirection? (c : Char) (next : Option Char) : Option (Redirection × Nat × Nat) :=
  match c, next with
  | '<', some '&' => some (.duplicate, 0, 1)
  | '<', _ => some (.read, 0, 0)
  | '>', some '>' => some (.append, 1, 1)
  | '>', some '&' => some (.duplicate, 1, 1)
  | '>', some '|' => some (.write, 1, 1)
  | '>', _ => some (.write, 1, 0)
  | _, _ => none

/-! ## Dollar signs and accents -/

/-- The characters in the names of parameters. -/
def isNameChar (c : Char) : Bool := c.isAlphanum || c == '_'

/-- How many characters stand before the parenthesis that closes `depth + 1` open ones. Inside of
quotes, and behind a backslash if `escaped`, parentheses do not count. -/
def closingParenthesis? (quote : Option Char) (escaped : Bool) (depth : Nat) :
    List Char → Option Nat
  | [] => none
  | c :: rest =>
    let go (quote : Option Char) (escaped : Bool) (depth : Nat) :=
      (closingParenthesis? quote escaped depth rest).map (· + 1)
    if escaped then go quote false depth
    else if c = '\\' ∧ quote ≠ some '\'' then go quote true depth
    else
      match quote with
      | some q => go (if c = q then none else quote) false depth
      | none =>
        if c = '\'' ∨ c = '"' then go (some c) false depth
        else if c = '(' then go none false (depth + 1)
        else if c = ')' then
          match depth with
          | 0 => some 0
          | depth + 1 => go none false depth
        else go none false depth

/-- The text up to the next accent, and how many characters it takes with the accent. A backslash
takes away the meaning of an accent, a dollar sign or another backslash. -/
def upToAccent? : List Char → Option (List Char × Nat)
  | [] => none
  | '\x60' :: _ => some ([], 1)
  | '\\' :: c :: rest =>
    (upToAccent? rest).map fun (text, used) =>
      (if c = '\x60' ∨ c = '$' ∨ c = '\\' then c :: text else '\\' :: c :: text, used + 2)
  | c :: rest => (upToAccent? rest).map fun (text, used) => (c :: text, used + 1)

/-- What a special character of a word means. -/
inductive Meaning where
  | itself
  | piece (p : Piece) (used : Nat)
  | broken (complaint : String)

/-- What a dollar sign in front of a text means. -/
def afterDollar (quoted : Bool) : List Char → Meaning
  | '(' :: rest =>
    match closingParenthesis? none false 0 rest with
    | some n => .piece (.output (rest.take n) quoted) (n + 2)
    | none => .broken "end of file unexpected (expecting \")\")"
  | '\x7B' :: rest =>
    match Text.splitOnce '\x7D' rest with
    | some (name, _) => .piece (.parameter name quoted) (name.length + 2)
    | none => .broken "Missing '\x7D'"
  | c :: rest =>
    if c.isDigit ∨ "$?#!@*-".toList.contains c then .piece (.parameter [c] quoted) 1
    else if isNameChar c then
      let name := c :: rest.takeWhile isNameChar
      .piece (.parameter name quoted) name.length
    else .itself
  | [] => .itself

/-- What a dollar sign or an accent in front of a text means. -/
def meaning (quoted : Bool) (c : Char) (rest : List Char) : Meaning :=
  if c = '$' then afterDollar quoted rest
  else if c = '\x60' then
    match upToAccent? rest with
    | some (text, used) => .piece (.output text quoted) used
    | none => .broken "EOF in backquote substitution"
  else .itself

/-! ## Cutting a text -/

/-- How the text is being read: between quotes of either sort, or inside of a comment. -/
inductive Mode where
  | plain | single | double | comment
  deriving DecidableEq, Repr

def ended (line : Nat) : Option Word → List Lexeme
  | some w => [⟨.word w, line⟩]
  | none => []

/-- The lexemes of a redirection: a number right before it tells the stream. -/
def redirected (line : Nat) (w : Option Word) (r : Redirection) (usual : Nat) : List Lexeme :=
  match w.bind Word.number? with
  | some stream => [⟨.redirect stream r, line⟩]
  | none => ended line w ++ [⟨.redirect usual r, line⟩]

/-- The lexemes of a text behind the word `w`, in the given mode and line; `skip` characters have
been read already. -/
def lexemesFrom (mode : Mode) (w : Option Word) (line skip : Nat) : List Char → List Lexeme
  | [] =>
    if mode = .single ∨ mode = .double then [⟨.broken "Unterminated quoted string", line⟩]
    else ended line w ++ [⟨.finish, line⟩]
  | c :: rest =>
    let next := rest.head?
    let word := w.getD {}
    let go (mode : Mode) (w : Option Word) (skip : Nat) :=
      lexemesFrom mode w (if c = '\n' then line + 1 else line) skip rest
    let keep := go mode (some (word.push (.char c (mode ≠ .plain)))) 0
    let special :=
      match meaning (mode = .double) c rest with
      | .itself => keep
      | .piece p used => go mode (some (word.push p)) used
      | .broken complaint => [⟨.broken complaint, line⟩]
    match skip with
    | skip + 1 => go mode w skip
    | 0 =>
      match mode with
      | .comment =>
        if c = '\n' then ⟨.control .newline, line⟩ :: go .plain none 0 else go .comment none 0
      | .single => if c = '\'' then go .plain w 0 else keep
      | .double =>
        match c, next with
        | '"', _ => go .plain w 0
        | '\\', some '\n' => go .double w 1
        | '\\', some d =>
          if "$\"\\\x60".toList.contains d then
            go .double (some (word.push (.char d true))) 1
          else keep
        | _, _ => special
      | .plain =>
        match control? c next, redirection? c next with
        | some (operator, used), _ =>
          ended line w ++ ⟨.control operator, line⟩ :: go .plain none used
        | none, some (r, usual, used) => redirected line w r usual ++ go .plain none used
        | none, none =>
          match c, next with
          | '\'', _ => go .single (some { word with quoted := true }) 0
          | '"', _ => go .double (some { word with quoted := true }) 0
          | '\\', some '\n' => go .plain w 1
          | '\\', some d => go .plain (some { word.push (.char d true) with quoted := true }) 1
          | '\\', none => keep
          | '#', _ => if w = none then go .comment none 0 else keep
          | ' ', _ => ended line w ++ go .plain none 0
          | '\t', _ => ended line w ++ go .plain none 0
          | _, _ => special

/-- The lexemes of a command line, of which the last is its end. -/
def Lexeme.ofText (text : List Char) : List Lexeme := lexemesFrom .plain none 1 0 text

end SymbolIndex.Shell
