import SymbolIndex.Shell.Tools

/-!
# Running command lines

A command line changes files, writes to two streams and ends with a status or by a signal.

* `Session.kill`, `Session.readLine`, `Session.builtin?`: commands that act on the session itself;
* `Session.run`, `Session.runText`: commands and texts of commands;
* `run`: a whole command line.
-/

namespace SymbolIndex.Shell

namespace Session

/-! ## Built-in commands -/

/-- A complaint of the shell about a command in some line. -/
def fail (s : Session) (line : Nat) (text : String) (status : Nat) : Session :=
  s.complain ("sh: " ++ toString line ++ ": " ++ text) status

/-- The session that a program leaves. -/
def after (w : Session × Written) : Session :=
  let (s, w) := w
  { (s.write s.first w.output).write s.second w.complaints with status := w.status }

/-- End the session with a status. -/
def exit (s : Session) (line : Nat) : List String → Session
  | [] => { s with ending := some (.status s.status) }
  | text :: _ =>
    match if text.toList.all Char.isDigit then text.toNat? else none with
    | some n => { s with status := n % 256, ending := some (.status (n % 256)) }
    | none =>
      { s.fail line ("exit: Illegal number: " ++ text) 2 with ending := some (.status 2) }

def signalNumber? (name : String) : Option Nat :=
  match name.toNat? with
  | some n => some n
  | none =>
    (List.range 16).find? fun n =>
      signalName? n = some name ∨ signalName? n = some ("SIG" ++ name)

/-- Send a signal; only the shell itself is there to get one. -/
def kill (s : Session) (line : Nat) (arguments : List String) : Session :=
  match arguments with
  | [target] => send "15" target
  | ["-s", signal, target] => send signal target
  | [signal, target] => send (String.ofList (signal.toList.drop 1)) target
  | _ =>
    s.fail line
      ("kill: Usage: kill [-s sigspec | -signum | -sigspec] [pid | job]... or\n" ++
        "kill -l [exitstatus]") 2
where
  /-- Send a signal to a process. -/
  send (signal target : String) : Session :=
    match signalNumber? signal, target.toNat? with
    | none, _ => s.fail line ("kill: Illegal option -" ++ signal.toList.head?.elim "" toString) 2
    | _, none => s.fail line ("kill: Illegal number: " ++ target) 2
    | some number, some _ =>
      if target = String.ofList (s.valueOf ['$']) then
        if number = 0 then { s with status := 0 }
        else { s with ending := some (.signal number) }
      else s.fail line "kill: No such process\n" 1

/-- Go to another directory. -/
def changeDirectory (s : Session) (line : Nat) (target : String) : Session :=
  match s.files.canonical (s.path target) with
  | .ok path =>
    if s.files.isDirectory path then { s with directory := path, status := 0 }
    else s.fail line ("cd: can't cd to " ++ target) 2
  | .error _ => s.fail line ("cd: can't cd to " ++ target) 2

/-- Read a line of the input into bindings, of which the last gets all that is left. -/
def readLine (s : Session) (names : List String) : Session :=
  let line := s.input.takeWhile (· != 10)
  let rest := s.input.drop line.length
  let text := Text.decodeLossy ⟨line.toArray⟩
  let cuts := s.separators.contains
  let trimmed := ((text.dropWhile cuts).reverse.dropWhile cuts).reverse
  let s := give { s with input := rest.drop 1, status := if rest = [] then 1 else 0 } trimmed names
  s
where
  /-- Give the words of a text to some bindings. -/
  give (s : Session) (text : List Char) : List String → Session
    | [] => s
    | [name] => s.assign name.toList text
    | name :: names =>
      let word := text.takeWhile (!s.separators.contains ·)
      give (s.assign name.toList word)
        ((text.drop word.length).dropWhile s.separators.contains) names

/-- Assign the values of arguments of the form `name=value`. -/
def exportAll (s : Session) (arguments : List String) : Session :=
  arguments.foldl (fun s a =>
    match Text.splitOnce '=' a.toList with
    | some (name, value) => s.assign name value
    | none => s) { s with status := 0 }

/-- What a built-in command does. -/
def builtin? (line : Nat) : String → Option (Session → List String → Session)
  | "true" | ":" | "wait" | "trap" | "umask" | "set" => some fun s _ => { s with status := 0 }
  | "false" => some fun s _ => { s with status := 1 }
  | "exit" | "return" => some fun s arguments => s.exit line arguments
  | "kill" => some fun s arguments => s.kill line arguments
  | "cd" => some fun s arguments =>
    match arguments with
    | [] => { s with status := 0 }
    | target :: _ => s.changeDirectory line target
  | "pwd" => some fun s _ => after (s, .line s.directory)
  | "echo" => some fun s arguments =>
    let (plain, words) := match arguments with
      | "-n" :: rest => (true, rest)
      | words => (false, words)
    let u := unescape true (" ".intercalate words).toList
    after (s, { output := u.bytes ++ if plain || u.stops then [] else [10] })
  | "printf" => some fun s arguments =>
    let (option, arguments) : Option Char × List String :=
      match arguments with
      | "--" :: rest => (none, rest)
      | "-" :: rest => (none, "-" :: rest)
      | text :: rest => (if text.toList.head? = some '-' then text.toList[1]? else none, text :: rest)
      | [] => (none, [])
    match option, arguments with
    | some letter, _ => s.fail line ("printf: Illegal option -" ++ toString letter) 2
    | none, [] => s.fail line "printf: usage: printf format [arg ...]" 2
    | none, format :: arguments =>
      let r := formatted format.toList (arguments.map String.toList)
      let s := r.complaints.foldl (fun s text => s.fail line ("printf: " ++ text) 1) s
      after (s, { output := r.bytes, status := r.status })
  | "test" => some fun s arguments => check s "test" arguments
  | "[" => some fun s arguments =>
    if arguments.getLast? = some "]" then check s "[" arguments.dropLast
    else s.fail line "[: missing ]" 2
  | "read" => some fun s arguments =>
    match (flags arguments).2 with
    | [] => s.fail line "read: arg count" 2
    | names => s.readLine names
  | "export" | "readonly" => some exportAll
  | "unset" => some fun s arguments =>
    { s with
      bindings := s.bindings.filter fun v => !arguments.contains (String.ofList v.1)
      status := 0 }
  | "shift" => some fun s _ =>
    if s.arguments = [] then
      { s.fail line "shift: can't shift that many" 2 with ending := some (.status 2) }
    else { s with arguments := s.arguments.tail, status := 0 }
  | _ => none
where
  /-- Check a condition. -/
  check (s : Session) (name : String) (arguments : List String) : Session :=
    match s.condition arguments with
    | .ok holds => { s with status := if holds then 0 else 1 }
    | .error why => s.fail line (name ++ ": " ++ why) 2

/-- Run a command that is neither a function nor about other commands. -/
def runProgram (s : Session) (line : Nat) (name : String) (arguments : List String) : Session :=
  match builtin? line name, tool? name with
  | some f, _ => f s arguments
  | none, some f => after (f s arguments)
  | none, none =>
    if name.toList.contains '/' ∧ (s.files.locate (s.path name)).isOk then
      s.fail line (name ++ ": Permission denied") 126
    else s.fail line (name ++ ": not found") 127

/-! ## Commands -/

/-- Put the values of assignments into the bindings. -/
def assignAll (run : List Char → Session → Session) : Session → List (List Char × Word) → Session
  | s, [] => s
  | s, (name, value) :: rest =>
    let (s, text) := s.textOf run value
    assignAll run (s.assign name text.toList) rest

/-- The inner session, in which some bindings get back the values that they have in this one. -/
def withdraw (s inner : Session) (names : List (List Char)) : Session :=
  { inner with
    bindings := names.foldl (fun bindings name =>
      (s.bindings.filter (·.1 == name)) ++ bindings.filter (·.1 != name)) inner.bindings }

mutual

def runText : Nat → List Char → Session → Session
  | 0, _, s => s
  | fuel + 1, text, s =>
    let script := Script.ofText text
    let s := script.lines.foldl (fun s c => run fuel c s) { s with status := 0 }
    match script.fault with
    | some fault =>
      if s.ending.isSome then s
      else { s.complain fault.text 2 with ending := some (.status 2) }
    | none => s

/-- Run a command. Nothing is run once the session has ended. -/
def run : Nat → Command → Session → Session
  | 0, _, s => s
  | fuel + 1, c, s =>
    if s.ending.isSome then s
    else
      match c with
      | .nothing => { s with status := 0 }
      | .simple c => runSimple fuel c s
      | .redirected c redirects =>
        match s.redirect (runText fuel) redirects with
        | .error why => s.fail 1 why 2
        | .ok inner => s.restore (run fuel c inner) redirects
      | .negated c =>
        let s := run fuel c s
        { s with status := if s.status = 0 then 1 else 0 }
      | .piped first second =>
        let (s', bytes) := s.capture (run fuel first)
        let inner := run fuel second { s' with input := bytes }
        { s.leave inner with input := s'.input }
      | .afterSuccess first second =>
        let s := run fuel first s
        if s.status = 0 then run fuel second s else s
      | .afterFailure first second =>
        let s := run fuel first s
        if s.status = 0 then s else run fuel second s
      | .sequence first second => run fuel second (run fuel first s)
      | .background c => { s.leave (run fuel c s) with status := 0 }
      | .subshell c => s.leave (run fuel c s)
      | .choice condition yes no =>
        let s := run fuel condition s
        if s.status = 0 then run fuel yes s else run fuel no s
      | .loop fails condition body =>
        let checked := run fuel condition s
        if (checked.status = 0) = fails then { checked with status := s.status }
        else run fuel (.loop fails condition body) (run fuel body checked)
      | .forEach name words body =>
        let (s, values) := s.fieldsOfAll (runText fuel) words
        values.foldl (fun s value =>
          if s.ending.isSome then s else run fuel body (s.assign name value.toList))
          { s with status := 0 }
      | .function name body =>
        { s with functions := (name, body) :: s.functions.filter (·.1 != name), status := 0 }

def runSimple : Nat → SimpleCommand → Session → Session
  | 0, _, s => s
  | fuel + 1, c, s =>
    let (s, words) := s.fieldsOfAll (runText fuel) c.words
    match s.redirect (runText fuel) c.redirects with
    | .error why => s.fail c.line why 2
    | .ok inner =>
      match words with
      | [] =>
        let inner := if c.words = [] then { inner with status := 0 } else inner
        s.restore (assignAll (runText fuel) inner c.assignments) c.redirects
      | name :: arguments =>
        let inner := assignAll (runText fuel) inner c.assignments
        let ended := runNamed fuel c.line name arguments inner
        s.restore (s.withdraw ended (c.assignments.map (·.1))) c.redirects

/-- Run the command of a name with its arguments. -/
def runNamed : Nat → Nat → String → List String → Session → Session
  | 0, _, _, _, s => s
  | fuel + 1, line, name, arguments, s =>
    match s.functions.lookup name.toList, name, arguments with
    | some body, _, _ =>
      { run fuel body { s with arguments } with arguments := s.arguments }
    | none, "eval", arguments => runText fuel (" ".intercalate arguments).toList s
    | none, "command", inner :: arguments => runNamed fuel line inner arguments s
    | none, "exec", inner :: arguments =>
      let isKnown := (tool? inner).isSome || (builtin? line inner).isSome || inner = "sh"
      let s := if isKnown then runNamed fuel line inner arguments s
        else s.fail line ("exec: " ++ inner ++ ": not found") 127
      { s with ending := s.ending.or (some (.status s.status)) }
    | none, "sh", "-c" :: text :: _ => s.leave (runText fuel text.toList s)
    | none, name, arguments => s.runProgram line name arguments

end

end Session

/-! ## Whole command lines -/

/-- What a command line has done. -/
structure Report where
  files : FileTree
  output : List UInt8
  complaints : List UInt8
  ending : Ending

/-- How many commands may run inside of each other or behind each other. -/
def runLimit : Nat := 100000

/-- Run a command line in a directory. -/
def run (files : FileTree) (directory commandLine : String) : Report :=
  let s := Session.runText runLimit commandLine.toList { files, directory }
  ⟨s.files, s.output, s.complaints, s.ending.getD (.status s.status)⟩

end SymbolIndex.Shell
