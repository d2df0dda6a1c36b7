import SymbolIndex.Pattern.Reader
import SymbolIndex.Pattern.Search
import SymbolIndex.Shell.Output
import SymbolIndex.Shell.Session

/-!
# Tools

The programs that command lines run to produce and to rearrange text and files.

* `Written`: what a tool writes, and its status;
* `Session.cat`, `Session.copy`, `Session.move`, `Session.remove`: files as a whole;
* `byteLinesOf`, `sortLines`, `translate`: text line by line and byte by byte;
* `Session.condition`: the conditions that `test` knows;
* `Session.tool?`: the tool of a name.
-/

namespace SymbolIndex.Shell

/-- What one tool writes, and how it ends. -/
structure Written where
  output : List UInt8 := []
  complaints : List UInt8 := []
  status : Nat := 0

def lineBytes (text : String) : List UInt8 := (text ++ "\n").toUTF8.data.toList

/-- A tool that complains. -/
def Written.complaint (text : String) (status : Nat) : Written :=
  { complaints := lineBytes text, status }

/-- A tool that writes a line. -/
def Written.line (text : String) : Written := { output := lineBytes text }

/-- The flags that some arguments begin with, as letters, and the other arguments. -/
def flags (arguments : List String) : List Char × List String :=
  let isFlag (a : String) := a.toList.head? == some '-' && a.length > 1
  ((arguments.filter isFlag).flatMap fun a => a.toList.drop 1, arguments.filter (!isFlag ·))

namespace Session

/-! ## Files -/

/-- The session with other files, or a complaint about why there are none. -/
def change (s : Session) (what : String) (r : Except OsError FileTree) : Session × Written :=
  match r with
  | .ok files => ({ s with files }, {})
  | .error e => (s, .complaint (what ++ ": " ++ reason e) 1)

/-- Do something to every argument; one that fails does not stop the others. -/
def onEach (f : Session → String → Session × Written) : Session → List String → Session × Written
  | s, [] => (s, {})
  | s, a :: as =>
    let (s, w) := f s a
    let (s, v) := onEach f s as
    (s, ⟨w.output ++ v.output, w.complaints ++ v.complaints,
      if v.status = 0 then w.status else v.status⟩)

/-- The bytes of some files, or of the input where there are none; `tool` complains. -/
def cat (s : Session) (tool : String) (names : List String) : Session × Written :=
  onEach (fun s name =>
    if name = "-" then ({ s with input := [] }, { output := s.input })
    else
      match s.files.read (s.path name) with
      | .ok content => (s, { output := content.data.toList })
      | .error e => (s, .complaint (tool ++ ": " ++ name ++ ": " ++ reason e) 1))
    s (if names = [] then ["-"] else names)

/-- Rearrange the bytes of some files. -/
def rearranged (s : Session) (tool : String) (names : List String)
    (f : List UInt8 → List UInt8) : Session × Written :=
  let (s, w) := s.cat tool names
  (s, { w with output := f w.output })

/-- The path that a copy or a move ends up at: inside of a directory it keeps its name. -/
def destination (s : Session) (source target : String) : String :=
  let target := s.path target
  if s.files.isDirectory target then
    Path.resolve target (String.ofList ((Path.fileName? source.toList).getD []))
  else target

def copy (s : Session) (source target : String) : Session × Written :=
  match s.files.read (s.path source) with
  | .error e => (s, .complaint ("cp: cannot stat '" ++ source ++ "': " ++ reason e) 1)
  | .ok content =>
    s.change ("cp: cannot create regular file '" ++ target ++ "'")
      (s.files.write (s.destination source target) content)

/-- Move a file or a directory. -/
def move (s : Session) (source target : String) : Session × Written :=
  match s.files.place (s.path source) false with
  | .ok (.found names node) =>
    let emptied := s.files.put names none
    match s.files.place (s.destination source target) false with
    | .ok (.found others _) => ({ s with files := emptied.put others (some node) }, {})
    | .ok (.missing directory name) =>
      ({ s with files := emptied.put (directory ++ [name]) (some node) }, {})
    | .error e => (s, .complaint ("mv: cannot move '" ++ source ++ "': " ++ reason e) 1)
  | .ok (.missing ..) =>
    (s, .complaint ("mv: cannot stat '" ++ source ++ "': No such file or directory") 1)
  | .error e => (s, .complaint ("mv: cannot stat '" ++ source ++ "': " ++ reason e) 1)

/-- Remove a file, or with `all` a directory as well. -/
def remove (all force : Bool) (s : Session) (name : String) : Session × Written :=
  let what := "rm: cannot remove '" ++ name ++ "'"
  match s.files.place (s.path name) false with
  | .ok (.found names (.directory _)) =>
    if all then ({ s with files := s.files.put names none }, {})
    else (s, .complaint (what ++ ": Is a directory") 1)
  | .ok (.found names _) => ({ s with files := s.files.put names none }, {})
  | .ok (.missing ..) =>
    if force then (s, {}) else (s, .complaint (what ++ ": No such file or directory") 1)
  | .error e => if force then (s, {}) else (s, .complaint (what ++ ": " ++ reason e) 1)

def removeDirectory (s : Session) (name : String) : Session × Written :=
  let what := "rmdir: failed to remove '" ++ name ++ "'"
  match s.files.place (s.path name) false with
  | .ok (.found names (.directory [])) => ({ s with files := s.files.put names none }, {})
  | .ok (.found _ (.directory _)) => (s, .complaint (what ++ ": Directory not empty") 1)
  | .ok (.found ..) => (s, .complaint (what ++ ": Not a directory") 1)
  | .ok (.missing ..) => (s, .complaint (what ++ ": No such file or directory") 1)
  | .error e => (s, .complaint (what ++ ": " ++ reason e) 1)

/-- Make sure that a file is there. -/
def touch (s : Session) (name : String) : Session × Written :=
  if (s.files.locate (s.path name)).isOk then (s, {})
  else s.change ("touch: cannot touch '" ++ name ++ "'") (s.files.write (s.path name) .empty)

/-- The names in some directories, and the files among the arguments. -/
def list (s : Session) (all : Bool) (names : List String) : Session × Written :=
  let listing (name : String) :=
    (s.namesIn name).filter fun entry => all || entry.toList.head? != some '.'
  let names := if names = [] then ["."] else names.mergeSort fun a b => decide (a ≤ b)
  let (missing, found) := names.partition fun name => !(s.files.locate (s.path name)).isOk
  let (directories, files) := found.partition fun name => s.files.isDirectory (s.path name)
  let complaints := missing.flatMap fun name =>
    lineBytes ("ls: cannot access '" ++ name ++ "': No such file or directory")
  let sections := directories.map fun name =>
    (if names.length = 1 then [] else [name ++ ":"]) ++ listing name
  let sections := if files = [] then sections else files :: sections
  (s, ⟨([""].intercalate sections).flatMap lineBytes, complaints, if missing = [] then 0 else 2⟩)

end Session

/-! ## Text -/

/-- The lines of some bytes, each with its line feed. -/
def byteLinesOf (bytes : List UInt8) : List (List UInt8) :=
  bytes.foldr (fun b lines =>
    if b = 10 then [b] :: lines
    else
      match lines with
      | line :: rest => (b :: line) :: rest
      | [] => [[b]]) []

/-- The lines, each of which ends with a line feed. -/
def closedLines (bytes : List UInt8) : List (List UInt8) :=
  (byteLinesOf bytes).map fun line => if line.getLast? = some 10 then line else line ++ [10]

/-- The lines without those that equal the one before. -/
def withoutRepeats : List (List UInt8) → List (List UInt8)
  | a :: b :: rest => if a = b then withoutRepeats (b :: rest) else a :: withoutRepeats (b :: rest)
  | lines => lines

def lineNumber (line : List UInt8) : Int :=
  (argumentNumber ((line.dropWhile (· == 32)).map fun b => Char.ofNat b.toNat)).1

/-- Put lines in order, as some flags say. -/
def sortLines (letters : List Char) (bytes : List UInt8) : List UInt8 :=
  let notAfter (a b : List UInt8) : Bool :=
    if letters.contains 'n' ∧ lineNumber a ≠ lineNumber b then lineNumber a < lineNumber b
    else !List.lex b a
  let lines := (closedLines bytes).mergeSort fun a b =>
    if letters.contains 'r' then notAfter b a else notAfter a b
  (if letters.contains 'u' then withoutRepeats lines else lines).flatten

/-- The number behind one of the flags `-n`, `-c` and `-5`, whether it counts bytes, the sign in
front of it, and the other arguments. -/
def countArgument (arguments : List String) : Nat × Bool × List Char × List String :=
  let split (s : List Char) := (((String.ofList (s.dropWhile (!·.isDigit))).toNat?).getD 10,
    s.takeWhile (!·.isDigit))
  match arguments with
  | "-n" :: count :: names => ((split count.toList).1, false, (split count.toList).2, names)
  | "-c" :: count :: names => ((split count.toList).1, true, (split count.toList).2, names)
  | flag :: names =>
    match flag.toList with
    | '-' :: 'n' :: count => ((split count).1, false, (split count).2, names)
    | '-' :: 'c' :: count => ((split count).1, true, (split count).2, names)
    | '-' :: d :: count =>
      if d.isDigit then ((split (d :: count)).1, false, [], names) else (10, false, [], arguments)
    | _ => (10, false, [], arguments)
  | [] => (10, false, [], [])

/-- The first so many lines or bytes; with a minus sign, all but the last. -/
def headOf (count : Nat) (counts : Bool) (sign : List Char) (bytes : List UInt8) : List UInt8 :=
  let cut {α : Type} (l : List α) := if sign = ['-'] then l.take (l.length - count) else l.take count
  if counts then cut bytes else (cut (byteLinesOf bytes)).flatten

/-- The last so many lines or bytes; with a plus sign, those from there on. -/
def tailOf (count : Nat) (counts : Bool) (sign : List Char) (bytes : List UInt8) : List UInt8 :=
  let cut {α : Type} (l : List α) :=
    if sign = ['+'] then l.drop (count - 1) else l.drop (l.length - count)
  if counts then cut bytes else (cut (byteLinesOf bytes)).flatten

/-- The characters of a set in which a hyphen joins the ends of a range. -/
def setOf : List Char → List Char
  | a :: '-' :: b :: rest =>
    ((List.range (b.toNat + 1 - a.toNat)).map fun i => Char.ofNat (a.toNat + i)) ++ setOf rest
  | a :: rest => a :: setOf rest
  | [] => []

/-- The characters of an argument that holds a set. -/
def setArgument (s : String) : List Char :=
  setOf (((unescape true s.toList).bytes).map fun b => Char.ofNat b.toNat)

/-- Replace bytes of one set by those of another, or delete them. -/
def translate (deletes : Bool) (from' into : List Char) (bytes : List UInt8) : List UInt8 :=
  bytes.filterMap fun b =>
    match from'.idxOf? (Char.ofNat b.toNat) with
    | none => some b
    | some i =>
      if deletes then none
      else ((into[i]?).orElse fun _ => into.getLast?).map (·.toNat.toUInt8)

/-- The numbers of the fields that a list like `1,3-5` names. -/
def fieldNumbers (list : String) (count : Nat) : List Nat :=
  let wanted := (Text.splitAt (· == ',') list.toList).map fun part =>
    match Text.splitAt (· == '-') part with
    | [one] => ((String.ofList one).toNat?.getD 0, (String.ofList one).toNat?.getD 0)
    | low :: high :: _ =>
      ((String.ofList low).toNat?.getD 1, (String.ofList high).toNat?.getD count)
    | [] => (0, 0)
  (List.range count).filter fun i => wanted.any fun (low, high) => low ≤ i + 1 && i + 1 ≤ high

/-- The named fields of a line. -/
def cutLine (separator : UInt8) (list : String) (line : List UInt8) : List UInt8 :=
  let fields := line.dropLast.foldr (fun b fields =>
    if b = separator then [] :: fields
    else
      match fields with
      | field :: rest => (b :: field) :: rest
      | [] => [[b]]) [[]]
  if fields.length = 1 then line
  else
    [separator].intercalate
      ((fieldNumbers list fields.length).map fun i => (fields[i]?).getD []) ++ [10]

/-- The text of a pattern in which operators need a backslash. -/
def basicPattern : List Char → List Char
  | '\\' :: c :: rest =>
    if "+?()|\x7B\x7D".toList.contains c then c :: basicPattern rest else '\\' :: c :: basicPattern rest
  | c :: rest =>
    if "+?()|\x7B\x7D".toList.contains c then '\\' :: c :: basicPattern rest else c :: basicPattern rest
  | [] => []

/-- The text of a pattern that a fixed text is. -/
def fixedPattern (s : List Char) : List Char :=
  s.flatMap fun c => if ".\\+*?()|[]\x7B\x7D^$".toList.contains c then ['\\', c] else [c]

/-- Whether a line is one that the flags and the pattern of `grep` ask for. -/
def lineFilter? (letters : List Char) (pattern : String) : Option (List UInt8 → Bool) := do
  let text :=
    if letters.contains 'F' then fixedPattern pattern.toList
    else if letters.contains 'E' then pattern.toList
    else basicPattern pattern.toList
  let text := if letters.contains 'i' then "(?i)".toList ++ text else text
  let p ← Pattern.parse (String.ofList text)
  return fun line =>
    p.isFound (Text.decodeLossy ⟨(line.filter (· != 10)).toArray⟩) != letters.contains 'v'

/-! ## Conditions -/

namespace Session

/-- Whether a condition holds, or why that cannot be said. -/
def condition (s : Session) : List String → Except String Bool
  | [] => .ok false
  | "!" :: a :: rest => (condition s (a :: rest)).map (!·)
  | [text] => .ok (text ≠ "")
  | [operator, text] =>
    match operator with
    | "-f" => .ok (s.files.isFile (s.path text))
    | "-d" => .ok (s.files.isDirectory (s.path text))
    | "-e" | "-r" | "-w" => .ok (s.files.locate (s.path text)).isOk
    | "-s" => .ok ((s.files.read (s.path text)).toOption.any (·.size > 0))
    | "-n" => .ok (text ≠ "")
    | "-z" => .ok (text = "")
    | operator => .error (operator ++ ": unexpected operator")
  | [a, operator, b] =>
    let numbers (f : Int → Int → Bool) : Except String Bool :=
      match a.toInt?, b.toInt? with
      | some m, some n => .ok (f m n)
      | none, _ => .error ("Illegal number: " ++ a)
      | _, none => .error ("Illegal number: " ++ b)
    match operator with
    | "=" => .ok (a = b)
    | "!=" => .ok (a ≠ b)
    | "-eq" => numbers fun m n => m == n
    | "-ne" => numbers fun m n => m != n
    | "-lt" => numbers fun m n => m < n
    | "-le" => numbers fun m n => m ≤ n
    | "-gt" => numbers fun m n => m > n
    | "-ge" => numbers fun m n => m ≥ n
    | _ => .error (a ++ ": unexpected operator")
  | a :: _ => .error (a ++ ": unexpected operator")

/-! ## All tools -/

/-- A program: what it does to the session with some arguments. -/
abbrev Tool := Session → List String → Session × Written

/-- The tools that look after files. -/
def fileTool? : String → Option Tool
  | "cp" => some fun s arguments =>
    match (flags arguments).2 with
    | [source, target] => s.copy source target
    | [] => (s, .complaint "cp: missing file operand" 1)
    | names => onEach (fun s name => s.copy name (names.getLast?.getD "")) s names.dropLast
  | "mv" => some fun s arguments =>
    match (flags arguments).2 with
    | [source, target] => s.move source target
    | [] => (s, .complaint "mv: missing file operand" 1)
    | names => onEach (fun s name => s.move name (names.getLast?.getD "")) s names.dropLast
  | "ln" => some fun s arguments =>
    let (letters, names) := flags arguments
    match names with
    | [source, target] =>
      let target := s.destination source target
      let cleared := if letters.contains 'f' then (s.remove true true target).1 else s
      if letters.contains 's' then
        cleared.change ("ln: failed to create symbolic link '" ++ target ++ "'")
          (cleared.files.makeLink target source)
      else cleared.copy source target
    | _ => (s, .complaint "ln: missing file operand" 1)
  | "rm" => some fun s arguments =>
    let (letters, names) := flags arguments
    onEach (remove (letters.contains 'r' || letters.contains 'R') (letters.contains 'f')) s names
  | "rmdir" => some fun s arguments => onEach removeDirectory s arguments
  | "mkdir" => some fun s arguments =>
    let (letters, names) := flags arguments
    onEach (fun s name =>
      s.change ("mkdir: cannot create directory '" ++ name ++ "'")
        (if letters.contains 'p' then s.files.makeDirectories (s.path name)
        else s.files.makeDirectory (s.path name))) s names
  | "touch" => some fun s arguments => onEach touch s (flags arguments).2
  | "ls" => some fun s arguments =>
    let (letters, names) := flags arguments
    s.list (letters.contains 'a' || letters.contains 'A') names
  | "chmod" | "sleep" | "sync" => some fun s _ => (s, {})
  | _ => none

def textTool? : String → Option Tool
  | "cat" => some fun s arguments => s.cat "cat" (flags arguments).2
  | "sort" => some fun s arguments =>
    let (letters, names) := flags arguments
    s.rearranged "sort" names (sortLines letters)
  | "uniq" => some fun s arguments =>
    s.rearranged "uniq" (flags arguments).2 fun bytes => (withoutRepeats (closedLines bytes)).flatten
  | "head" => some fun s arguments =>
    let (count, counts, sign, names) := countArgument arguments
    s.rearranged "head" names (headOf count counts sign)
  | "tail" => some fun s arguments =>
    let (count, counts, sign, names) := countArgument arguments
    s.rearranged "tail" names (tailOf count counts sign)
  | "wc" => some fun s arguments =>
    let (letters, names) := flags arguments
    s.rearranged "wc" names fun bytes =>
      let count := if letters = ['l'] then bytes.count 10 else bytes.length
      lineBytes (" ".intercalate (toString count :: names))
  | "tr" => some fun s arguments =>
    match flags arguments with
    | ([], [from', into]) =>
      s.rearranged "tr" [] (translate false (setArgument from') (setArgument into))
    | (['d'], [set]) => s.rearranged "tr" [] (translate true (setArgument set) [])
    | _ => (s, .complaint "tr: missing operand" 1)
  | "cut" => some fun s arguments =>
    let (given, names) := arguments.partition fun a => a.toList.head? == some '-'
    let value (letter : Char) := given.findSome? fun a =>
      match a.toList with
      | '-' :: l :: rest => if l = letter then some rest else none
      | _ => none
    let separator := ((value 'd').bind List.head?).getD '\t'
    match value 'f' with
    | some list => s.rearranged "cut" names fun bytes =>
      (closedLines bytes).flatMap (cutLine separator.toNat.toUInt8 (String.ofList list))
    | none => (s, .complaint "cut: you must specify a list of bytes, characters, or fields" 1)
  | "grep" => some fun s arguments =>
    match flags arguments with
    | (letters, pattern :: names) =>
      match lineFilter? letters pattern with
      | none => (s, .complaint "grep: invalid pattern" 2)
      | some keep =>
        let (s, w) := s.cat "grep" names
        let lines := (closedLines w.output).filter keep
        let output :=
          if letters.contains 'q' then []
          else if letters.contains 'c' then lineBytes (toString lines.length)
          else lines.flatten
        (s, { w with output, status := if w.status ≠ 0 then 2 else if lines = [] then 1 else 0 })
    | (_, []) => (s, .complaint "Usage: grep [OPTION]... PATTERNS [FILE]..." 2)
  | "tee" => some fun s arguments =>
    let (letters, names) := flags arguments
    let bytes := s.input
    let (s, w) := onEach (fun s name =>
      let old := if letters.contains 'a' then (s.files.read (s.path name)).toOption.getD .empty
        else .empty
      s.change ("tee: " ++ name)
        (s.files.write (s.path name) ⟨(old.data.toList ++ bytes).toArray⟩)) { s with input := [] } names
    (s, { w with output := bytes })
  | "seq" => some fun s arguments =>
    let numbers := arguments.filterMap String.toInt?
    let (low, step, high) : Int × Int × Int :=
      match numbers with
      | [high] => (1, 1, high)
      | [low, high] => (low, 1, high)
      | [low, step, high] => (low, step, high)
      | _ => (1, 1, 0)
    let count := if step = 0 then 0 else (Int.fdiv (high - low) step + 1).toNat
    (s, { output := (List.range count).flatMap fun (i : Nat) =>
      lineBytes (toString (low + step * (i : Int))) })
  | "basename" => some fun s arguments =>
    match arguments with
    | [] => (s, .complaint "basename: missing operand" 1)
    | path :: ending =>
      let name := (Path.fileName? path.toList).getD path.toList
      let ending := (ending.head?.getD "").toList
      (s, .line (String.ofList (if ending.isSuffixOf name ∧ ending ≠ name then
        name.take (name.length - ending.length) else name)))
  | "dirname" => some fun s arguments =>
    (s, { output := arguments.flatMap fun path =>
      let above := (Path.parent? path.toList).getD path.toList
      lineBytes (if above = [] then "." else String.ofList above) })
  | _ => none

def tool? (name : String) : Option Tool := (textTool? name).orElse fun _ => fileTool? name

end Session

end SymbolIndex.Shell
