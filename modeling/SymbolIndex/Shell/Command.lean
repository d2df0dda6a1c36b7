import SymbolIndex.Shell.Lexeme

/-!
# Commands

What command lines say: simple commands with assignments, words and redirections, joined by
operators and put into loops, choices and functions.

* `Redirect`, `SimpleCommand`, `Command`: commands;
* `Fault`, `Fault.text`: why a text is no command line;
* `readList`: the commands of a list of lexemes;
* `Script`, `Script.ofText`: the lines of a text, up to one that is none.
-/

namespace SymbolIndex.Shell

/-! ## Commands -/

/-- A redirection of a stream. -/
structure Redirect where
  stream : Nat
  redirection : Redirection
  target : Word
  deriving DecidableEq, Repr

/-- A command with its words and redirections, and the line that it begins in. -/
structure SimpleCommand where
  line : Nat := 1
  assignments : List (List Char × Word) := []
  words : List Word := []
  redirects : List Redirect := []
  deriving DecidableEq, Repr

/-- A command that may hold others. -/
inductive Command where
  | nothing
  | simple (command : SimpleCommand)
  | redirected (command : Command) (redirects : List Redirect)
  | negated (command : Command)
  | piped (first second : Command)
  | afterSuccess (first second : Command)
  | afterFailure (first second : Command)
  | sequence (first second : Command)
  | background (command : Command)
  | subshell (command : Command)
  | choice (condition yes no : Command)
  /-- run the body again as long as the condition succeeds, or fails if `fails` is set -/
  | loop (fails : Bool) (condition body : Command)
  | forEach (name : List Char) (words : List Word) (body : Command)
  | function (name : List Char) (body : Command)
  deriving Repr

/-! ## Faults -/

/-- Why a text is no command line. -/
structure Fault where
  line : Nat
  complaint : String
  deriving DecidableEq, Repr

def Fault.text (f : Fault) : String :=
  "sh: " ++ toString f.line ++ ": Syntax error: " ++ f.complaint

/-- The words that mean something where a command begins. -/
def keywords : List String :=
  ["!", "if", "then", "elif", "else", "fi", "for", "in", "do", "done", "while", "until", "case",
    "esac", "\x7B", "\x7D"]

def Token.keyword? : Token → Option String
  | .word w => do
    let text := String.ofList (← w.plain?)
    guard (keywords.contains text)
    return text
  | _ => none

def Control.sign : Control → String
  | newline => "newline"
  | semicolon => "\";\""
  | ampersand => "\"&\""
  | both => "\"&&\""
  | either => "\"||\""
  | pipe => "\"|\""
  | caseEnd => "\";;\""
  | opening => "\"(\""
  | closing => "\")\""

def Token.name (t : Token) : String :=
  match t with
  | .word _ => (t.keyword?.map fun text => "\"" ++ text ++ "\"").getD "word"
  | .control c => c.sign
  | .redirect .. => "redirection"
  | .finish => "end of file"
  | .broken complaint => complaint

/-- The fault that a lexeme stands where it must not. -/
def Lexeme.unexpected (l : Lexeme) (expected : Option String) : Fault :=
  match l.token with
  | .broken complaint => ⟨l.line, complaint⟩
  | t =>
    ⟨l.line, t.name ++ " unexpected" ++
      (expected.map fun text => " (expecting \"" ++ text ++ "\")").getD ""⟩

/-! ## Reading -/

/-- Something that takes lexemes from the front of a list. -/
abbrev Reader := StateT (List Lexeme) (Except Fault)

def peek : Reader Lexeme := do
  return ((← get).head?).getD ⟨.finish, 1⟩

/-- Go past the next lexeme. -/
def advance : Reader Unit := modify List.tail

/-- Fail at the next lexeme. -/
def unexpected {α : Type} (expected : Option String) : Reader α := do
  throw ((← peek).unexpected expected)

/-- Go past newlines. -/
def skipNewlines : Reader Unit :=
  modify fun ls => ls.dropWhile (·.token == .control .newline)

/-- Go past a keyword that has to be there. -/
def expectKeyword (text : String) : Reader Unit := do
  if (← peek).token.keyword? = some text then advance else unexpected (some text)

/-- The name and the value of an assignment. -/
def assignment? (w : Word) : Option (List Char × Word) :=
  let isPlainNameChar (p : Piece) := match p with
    | .char c false => isNameChar c
    | _ => false
  let name := (w.pieces.takeWhile isPlainNameChar).filterMap fun
    | .char c _ => some c
    | _ => none
  match w.pieces.dropWhile isPlainNameChar, name with
  | .char '=' false :: value, c :: _ =>
    if c.isDigit then none else some (name, { pieces := value, quoted := true })
  | _, _ => none

/-- A simple command from the front of some lexemes, behind what has been read of it. -/
def simpleFrom (c : SimpleCommand) : List Lexeme → Except Fault (SimpleCommand × List Lexeme)
  | ⟨.word w, _⟩ :: rest =>
    match assignment? w, c.words with
    | some a, [] => simpleFrom { c with assignments := c.assignments ++ [a] } rest
    | _, _ => simpleFrom { c with words := c.words ++ [w] } rest
  | ⟨.redirect stream redirection, _⟩ :: ⟨.word target, _⟩ :: rest =>
    simpleFrom { c with redirects := c.redirects ++ [⟨stream, redirection, target⟩] } rest
  | ⟨.redirect .., line⟩ :: rest => .error ((rest.head?.getD ⟨.finish, line⟩).unexpected none)
  | rest => .ok (c, rest)

/-- Redirections from the front of some lexemes. -/
def redirectsFrom : List Lexeme → Except Fault (List Redirect × List Lexeme)
  | ⟨.redirect stream redirection, _⟩ :: ⟨.word target, _⟩ :: rest => do
    let (redirects, rest) ← redirectsFrom rest
    return (⟨stream, redirection, target⟩ :: redirects, rest)
  | ⟨.redirect .., line⟩ :: rest => .error ((rest.head?.getD ⟨.finish, line⟩).unexpected none)
  | rest => .ok ([], rest)

/-- Words from the front of some lexemes. -/
def wordsFrom : List Lexeme → List Word × List Lexeme
  | ⟨.word w, _⟩ :: rest =>
    let (words, rest) := wordsFrom rest
    (w :: words, rest)
  | rest => ([], rest)

/-- Run a function from lexemes to the lexemes that are left. -/
def taking {α : Type} (f : List Lexeme → Except Fault (α × List Lexeme)) : Reader α := do
  let (a, rest) ← f (← get)
  set rest
  return a

/-- The list of commands inside of another command ends here. -/
def Token.endsList (t : Token) : Bool :=
  match t with
  | .finish | .control .caseEnd | .control .closing => true
  | t =>
    match t.keyword? with
    | some text => ["then", "else", "elif", "fi", "do", "done", "esac", "\x7D"].contains text
    | none => false

def Command.withRedirects (c : Command) (redirects : List Redirect) : Command :=
  if redirects.isEmpty then c else .redirected c redirects

mutual

/-- Commands up to the end of a line, or, if `nested`, up to what ends the list inside of a
command. -/
def readList : Nat → Bool → Reader Command
  | 0, _ => unexpected none
  | fuel + 1, nested => do
    if nested then skipNewlines
    if nested ∧ (← peek).token = .finish then return .nothing
    let first ← readOperands fuel
    let here := (← peek).token
    match here with
    | .control .semicolon | .control .ampersand | .control .newline =>
      advance
      let first := if here = .control .ampersand then .background first else first
      if nested then
        skipNewlines
        if (← peek).token.endsList then return first
        return .sequence first (← readList fuel nested)
      else if here = .control .newline then return first
      else
        match (← peek).token with
        | .control .newline => advance; return first
        | .finish => return first
        | _ => return .sequence first (← readList fuel nested)
    | .finish => return first
    | _ => if nested then return first else unexpected none

/-- Pipelines joined by `&&` and `||`. -/
def readOperands : Nat → Reader Command
  | 0 => unexpected none
  | fuel + 1 => do readOperandsAfter fuel (← readPipeline fuel)

/-- The rest of pipelines joined by `&&` and `||`. -/
def readOperandsAfter : Nat → Command → Reader Command
  | 0, _ => unexpected none
  | fuel + 1, first => do
    match (← peek).token with
    | .control .both =>
      advance
      skipNewlines
      readOperandsAfter fuel (.afterSuccess first (← readPipeline fuel))
    | .control .either =>
      advance
      skipNewlines
      readOperandsAfter fuel (.afterFailure first (← readPipeline fuel))
    | _ => return first

/-- Commands joined by `|`, maybe behind `!`. -/
def readPipeline : Nat → Reader Command
  | 0 => unexpected none
  | fuel + 1 => do
    if (← peek).token.keyword? = some "!" then
      advance
      return .negated (← readPiped fuel)
    else readPiped fuel

def readPiped : Nat → Reader Command
  | 0 => unexpected none
  | fuel + 1 => do
    let first ← readCommand fuel
    if (← peek).token = .control .pipe then
      advance
      skipNewlines
      return .piped first (← readPiped fuel)
    else return first

def readCommand : Nat → Reader Command
  | 0 => unexpected none
  | fuel + 1 => do
    let here ← peek
    let compound (read : Reader Command) : Reader Command := do
      advance
      let c ← read
      return c.withRedirects (← taking redirectsFrom)
    match here.token, here.token.keyword? with
    | .control .opening, _ => compound do
      let body ← readList fuel true
      if (← peek).token = .control .closing then advance else unexpected (some ")")
      return .subshell body
    | _, some "\x7B" => compound do
      let body ← readList fuel true
      expectKeyword "\x7D"
      return body
    | _, some "if" => compound (readChoice fuel)
    | _, some "while" => compound do
      let condition ← readList fuel true
      return .loop false condition (← readBody fuel)
    | _, some "until" => compound do
      let condition ← readList fuel true
      return .loop true condition (← readBody fuel)
    | _, some "for" => compound do
      match (← peek).token with
      | .word w =>
        let name := (w.plain?).getD []
        if name = [] ∨ name.all isNameChar = false ∨ name.head?.any Char.isDigit then
          throw ⟨here.line, "Bad for loop variable"⟩
        advance
        skipNewlines
        if (← peek).token.keyword? = some "in" then
          advance
          let words ← taking (.ok ∘ wordsFrom)
          match (← peek).token with
          | .control .semicolon | .control .newline => advance
          | _ => unexpected none
          skipNewlines
          return .forEach name words (← readBody fuel)
        else
          if (← peek).token = .control .semicolon then advance
          skipNewlines
          return .forEach name [{ pieces := [.parameter ['@'] false] }] (← readBody fuel)
      | _ => throw ⟨here.line, "Bad for loop variable"⟩
    | .word w, none =>
      match (← get).tail with
      | ⟨.control .opening, _⟩ :: rest =>
        set rest
        if (← peek).token = .control .closing then advance else unexpected (some ")")
        skipNewlines
        return .function ((w.plain?).getD []) (← readCommand fuel)
      | _ => return .simple (← taking (simpleFrom { line := here.line }))
    | .redirect .., _ => return .simple (← taking (simpleFrom { line := here.line }))
    | _, _ => unexpected none

/-- A choice behind its `if` or `elif`. -/
def readChoice : Nat → Reader Command
  | 0 => unexpected none
  | fuel + 1 => do
    let condition ← readList fuel true
    expectKeyword "then"
    let yes ← readList fuel true
    match (← peek).token.keyword? with
    | some "elif" =>
      advance
      return .choice condition yes (← readChoice fuel)
    | some "else" =>
      advance
      let no ← readList fuel true
      expectKeyword "fi"
      return .choice condition yes no
    | _ =>
      expectKeyword "fi"
      return .choice condition yes .nothing

def readBody : Nat → Reader Command
  | 0 => unexpected none
  | fuel + 1 => do
    expectKeyword "do"
    let body ← readList fuel true
    expectKeyword "done"
    return body

end

/-! ## Scripts -/

/-- The lines of a text. The lines in front of a `fault` are run nevertheless. -/
structure Script where
  lines : List Command
  fault : Option Fault

/-- The lines of at most so many lexemes. -/
def scriptOf : Nat → List Lexeme → Script
  | 0, _ => ⟨[], none⟩
  | fuel + 1, lexemes =>
    match lexemes with
    | [] | ⟨.finish, _⟩ :: _ => ⟨[], none⟩
    | ⟨.control .newline, _⟩ :: rest => scriptOf fuel rest
    | lexemes =>
      match (readList (8 * lexemes.length + 8) false).run lexemes with
      | .error fault => ⟨[], some fault⟩
      | .ok (line, rest) =>
        let script := scriptOf fuel rest
        { script with lines := line :: script.lines }

def Script.ofText (text : List Char) : Script :=
  let lexemes := Lexeme.ofText text
  scriptOf lexemes.length lexemes

end SymbolIndex.Shell
