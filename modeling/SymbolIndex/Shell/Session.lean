import SymbolIndex.FileTree.Basic
import SymbolIndex.Shell.Command
import SymbolIndex.Text.Lossy

/-!
# Sessions

Where a run of a command line stands: the files, the variables, where its streams lead and what has
been written. Words become texts and redirections move streams here.

* `Ending`, `Ending.text`: how a command line ends;
* `Sink`, `Session`, `Session.write`: streams and what has been written to them;
* `Session.valueOf`: the values of parameters;
* `Session.fieldsOf`, `Session.textOf`: the texts of a word;
* `Session.redirect`: streams that lead elsewhere.
-/

namespace SymbolIndex.Shell

/-! ## Endings -/

/-- How a command line ends. -/
inductive Ending where
  | status (code : Nat)
  | signal (number : Nat)
  deriving DecidableEq, Repr

def signalName? : Nat → Option String
  | 1 => some "SIGHUP"
  | 2 => some "SIGINT"
  | 3 => some "SIGQUIT"
  | 6 => some "SIGABRT"
  | 8 => some "SIGFPE"
  | 9 => some "SIGKILL"
  | 10 => some "SIGUSR1"
  | 11 => some "SIGSEGV"
  | 12 => some "SIGUSR2"
  | 13 => some "SIGPIPE"
  | 14 => some "SIGALRM"
  | 15 => some "SIGTERM"
  | _ => none

def Ending.text : Ending → String
  | .status code => "exit status: " ++ toString code
  | .signal number =>
    "signal: " ++ toString number ++
      ((signalName? number).map fun name => " (" ++ name ++ ")").getD ""

/-! ## Streams -/

/-- Where a stream leads. -/
inductive Sink where
  | output | complaints
  /-- into what another command reads -/
  | pipe (level : Nat)
  | file (path : String)
  | nowhere
  deriving DecidableEq, Repr

/-- Where a run of a command line stands. -/
structure Session where
  files : FileTree
  /-- the working directory -/
  directory : String
  bindings : List (List Char × List Char) := []
  functions : List (List Char × Command) := []
  arguments : List String := []
  /-- the status of the last command -/
  status : Nat := 0
  /-- what can still be read -/
  input : List UInt8 := []
  first : Sink := .output
  second : Sink := .complaints
  output : List UInt8 := []
  complaints : List UInt8 := []
  /-- what has been written into pipes, the outermost in front -/
  pipes : List (List UInt8) := []
  /-- set once nothing is run any more -/
  ending : Option Ending := none

namespace Session

/-- A path as seen from the working directory. -/
def path (s : Session) (name : String) : String := Path.resolve s.directory name

/-- Write bytes to where a stream leads. -/
def write (s : Session) (sink : Sink) (bytes : List UInt8) : Session :=
  match sink with
  | .output => { s with output := s.output ++ bytes }
  | .complaints => { s with complaints := s.complaints ++ bytes }
  | .pipe level => { s with pipes := s.pipes.modify level (· ++ bytes) }
  | .nowhere => s
  | .file path =>
    match s.files.read path with
    | .error _ => s
    | .ok content =>
      match s.files.write path ⟨(content.data.toList ++ bytes).toArray⟩ with
      | .ok files => { s with files }
      | .error _ => s

/-- Complain in one line, with a status. -/
def complain (s : Session) (text : String) (status : Nat) : Session :=
  { s.write s.second (text ++ "\n").toUTF8.data.toList with status }

/-- The session with its first stream in a new pipe. -/
def intoPipe (s : Session) : Session :=
  { s with first := .pipe s.pipes.length, pipes := s.pipes ++ [[]] }

/-- The session after a part of it that could not touch its bindings, its directory and its
streams. Only a signal ends what is around that part. -/
def leave (s inner : Session) : Session :=
  { inner with
    directory := s.directory
    bindings := s.bindings
    functions := s.functions
    arguments := s.arguments
    first := s.first
    second := s.second
    pipes := inner.pipes.take s.pipes.length
    status := match inner.ending with
      | some (.status code) => code
      | _ => inner.status
    ending := match inner.ending with
      | some (.signal number) => some (.signal number)
      | _ => none }

/-- What a part of the session writes to its first stream, and the session after it. -/
def capture (s : Session) (run : Session → Session) : Session × List UInt8 :=
  let inner := run s.intoPipe
  (s.leave inner, (inner.pipes[s.pipes.length]?).getD [])

/-! ## Words -/

/-- The session with another value of a variable. -/
def assign (s : Session) (name value : List Char) : Session :=
  { s with bindings := (name, value) :: s.bindings.filter (·.1 != name) }

/-- The value of a parameter, if it has been set. -/
def value? (s : Session) (name : List Char) : Option (List Char) :=
  match name with
  | ['?'] => some (toString s.status).toList
  | ['$'] => some ['1']
  | ['#'] => some (toString s.arguments.length).toList
  | ['@'] | ['*'] => some (" ".intercalate s.arguments).toList
  | ['0'] => some "sh".toList
  | name =>
    match (String.ofList name).toNat? with
    | some n => (s.arguments[n - 1]?).map String.toList
    | none =>
      (s.bindings.lookup name).or
        (if name = "PWD".toList then some s.directory.toList else none)

/-- The value of what stands behind a dollar sign: a parameter, the length of one, or one with a
text to stand in for it. -/
def valueOf (s : Session) (text : List Char) : List Char :=
  match s.value? text, text with
  | some value, _ => value
  | none, '#' :: name => (toString ((s.value? name).getD []).length).toList
  | none, text =>
    let name := text.takeWhile isNameChar
    match s.value? name, text.drop name.length with
    | value, ':' :: '-' :: standIn => if value.getD [] = [] then standIn else value.getD []
    | value, '-' :: standIn => value.getD standIn
    | value, ':' :: '+' :: standIn => if value.getD [] = [] then [] else standIn
    | value, '+' :: standIn => if value.isSome then standIn else []
    | _, _ => []

/-- The characters that cut values into fields. -/
def separators (s : Session) : List Char := (s.bindings.lookup "IFS".toList).getD [' ', '\t', '\n']

/-- A text of a word. What is quoted stands for itself. -/
abbrev Field := List (Char × Bool)

/-- The fields of a word, as far as they are known: those that are complete, and the last one. -/
structure Fields where
  complete : List Field := []
  last : Option Field := none

/-- The fields with one more character. -/
def Fields.push (f : Fields) (c : Char) (quoted : Bool) : Fields :=
  { f with last := some (f.last.getD [] ++ [(c, quoted)]) }

/-- The fields with a value, which is cut at the separators unless it is quoted. -/
def Fields.pushValue (f : Fields) (separators : List Char) (quoted : Bool) (value : List Char) :
    Fields :=
  value.foldl (fun f c =>
    if !quoted && separators.contains c then
      { complete := f.complete ++ f.last.toList, last := none }
    else f.push c quoted) f

/-- What a command line prints, without the line feeds at its end. -/
def printed (s : Session) (run : List Char → Session → Session) (commandLine : List Char) :
    Session × List Char :=
  let (s, bytes) := s.capture (run commandLine)
  (s, ((Text.decodeLossy ⟨bytes.toArray⟩).reverse.dropWhile (· == '\n')).reverse)

/-- The fields of some pieces of a word, behind others. -/
def fieldsFrom (run : List Char → Session → Session) (s : Session) (f : Fields) :
    List Piece → Session × Fields
  | [] => (s, f)
  | .char c quoted :: pieces => fieldsFrom run s (f.push c quoted) pieces
  | .parameter name quoted :: pieces =>
    fieldsFrom run s (f.pushValue s.separators quoted (s.valueOf name)) pieces
  | .output commandLine quoted :: pieces =>
    let (s, text) := s.printed run commandLine
    fieldsFrom run s (f.pushValue s.separators quoted text) pieces

def Field.text (f : Field) : String := String.ofList (f.map (·.1))

/-- The field has a character that stands for others. -/
def Field.isWild (f : Field) : Bool :=
  f.any fun (c, quoted) => !quoted && (c == '*' || c == '?' || c == '[')

/-- The set of characters behind an opening bracket, if it ends, and what follows it. -/
def bracketSet? (acc : List Char) : Field → Option (List Char × Field)
  | [] => none
  | (']', false) :: rest => if acc = [] then bracketSet? [']'] rest else some (acc.reverse, rest)
  | (c, _) :: rest => bracketSet? (c :: acc) rest

/-- A character is in a set with ranges. -/
def inSet (c : Char) : List Char → Bool
  | a :: '-' :: b :: rest => (a ≤ c && c ≤ b) || inSet c rest
  | a :: rest => a == c || inSet c rest
  | [] => false

/-- A pattern fits a name, if the two have fewer than `fuel` characters. -/
def fits : Nat → Field → List Char → Bool
  | 0, _, _ => false
  | _ + 1, [], name => name.isEmpty
  | fuel + 1, ('*', false) :: p, name =>
    fits fuel p name ||
      match name with
      | [] => false
      | _ :: name => fits fuel (('*', false) :: p) name
  | fuel + 1, ('?', false) :: p, _ :: name => fits fuel p name
  | fuel + 1, ('[', false) :: p, c :: name =>
    match bracketSet? [] p with
    | none => c == '[' && fits fuel p name
    | some ('!' :: set, rest) => !inSet c set && fits fuel rest name
    | some (set, rest) => inSet c set && fits fuel rest name
  | fuel + 1, (a, _) :: p, c :: name => a == c && fits fuel p name
  | _ + 1, _ :: _, [] => false

/-- The names in a directory, in order. -/
def namesIn (s : Session) (directory : String) : List String :=
  match s.files.locate (s.path directory) with
  | .ok (_, .directory children) => (children.map (·.1)).mergeSort fun a b => decide (a ≤ b)
  | _ => []

/-- The parts of a field between slashes. -/
def Field.parts (f : Field) : List Field :=
  f.foldr (fun c parts =>
    if c.1 = '/' then [] :: parts
    else
      match parts with
      | part :: parts => (c :: part) :: parts
      | [] => [[c]]) [[]]

/-- The paths that some parts of a pattern lead to from the directory `front`, a text that ends with
a slash unless it is empty. -/
def pathsFrom (s : Session) (front : String) : List Field → List String
  | [] => []
  | part :: parts =>
    let names :=
      if part.isWild then
        (s.namesIn (if front = "" then "." else front)).filter fun name =>
          fits (part.length + name.length + 1) part name.toList &&
            (name.toList.head? != some '.' || part.head?.any (·.1 == '.'))
      else [part.text]
    match parts with
    | [] => (names.map (front ++ ·)).filter fun path => (s.files.locate (s.path path)).isOk
    | parts => names.flatMap fun name => pathsFrom s (front ++ name ++ "/") parts

/-- The texts of a field: the paths that it fits, or itself. -/
def Field.paths (s : Session) (f : Field) : List String :=
  if f.isWild then
    match s.pathsFrom "" f.parts with
    | [] => [f.text]
    | paths => paths
  else [f.text]

def fieldsOf (run : List Char → Session → Session) (s : Session) (w : Word) :
    Session × List String :=
  let (s, f) := s.fieldsFrom run { last := if w.quoted then some [] else none } w.pieces
  (s, (f.complete ++ f.last.toList).flatMap (Field.paths s))

def fieldsOfAll (run : List Char → Session → Session) : Session → List Word →
    Session × List String
  | s, [] => (s, [])
  | s, w :: ws =>
    let (s, a) := s.fieldsOf run w
    let (s, b) := fieldsOfAll run s ws
    (s, a ++ b)

/-- The one text of a word, which is not cut apart. -/
def textOf (run : List Char → Session → Session) (s : Session) (w : Word) : Session × String :=
  let (s, f) := s.fieldsFrom run {} (w.pieces.map fun
    | .parameter name _ => .parameter name true
    | .output commandLine _ => .output commandLine true
    | p => p)
  (s, Field.text (f.last.getD []))

/-! ## Redirections -/

/-- The wording of an error without its number. -/
def reason (e : OsError) : String :=
  String.ofList (Text.trimEnd (e.text.toList.takeWhile (· != '(')))

def lead (s : Session) (stream : Nat) (sink : Sink) : Session :=
  if stream = 2 then { s with second := sink } else if stream = 1 then { s with first := sink } else s

/-- Open the files of some redirections, or say why one cannot be opened. -/
def redirect (run : List Char → Session → Session) (s : Session) :
    List Redirect → Except String Session
  | [] => .ok s
  | r :: rest =>
    let (s, name) := s.textOf run r.target
    let path := s.path name
    let opened (content : ByteArray) : Except String Session :=
      if path = "/dev/null" then redirect run (s.lead r.stream .nowhere) rest
      else
        match s.files.write path content with
        | .ok files => redirect run ({ s with files }.lead r.stream (.file path)) rest
        | .error e =>
          let why := match e with
            | .notFound | .notADirectory => "Directory nonexistent"
            | e => reason e
          .error ("cannot create " ++ name ++ ": " ++ why)
    match r.redirection with
    | .write => opened .empty
    | .append => opened ((s.files.read path).toOption.getD .empty)
    | .read =>
      if path = "/dev/null" then redirect run { s with input := [] } rest
      else
        match s.files.read path with
        | .ok content => redirect run { s with input := content.data.toList } rest
        | .error e =>
          let why := match e with
            | .notFound | .notADirectory => "No such file"
            | e => reason e
          .error ("cannot open " ++ name ++ ": " ++ why)
    | .duplicate =>
      let sink := if name = "-" then .nowhere else if name = "2" then s.second else s.first
      redirect run (s.lead r.stream sink) rest

/-- The session after one of its commands, with the streams from before its redirections. -/
def restore (s inner : Session) (redirects : List Redirect) : Session :=
  let reads := redirects.any fun r => r.redirection == .read
  { inner with
    first := s.first
    second := s.second
    input := if reads then s.input else inner.input }

end Session

end SymbolIndex.Shell
