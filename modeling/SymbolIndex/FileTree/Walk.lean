import SymbolIndex.Exclusion.Rules
import SymbolIndex.FileTree.Basic

/-!
# Walking through a project

All files below a directory that no rule leaves out. A directory that is left out is not entered, so
nothing below it can be kept after all. Links are neither listed nor followed.

* `IgnoreFiles`: which files with rules are honoured;
* `Walk`: what a walk goes by;
* `Level`: the rules of one directory on the way;
* `Walk.collect`: the files below a directory, as names from there on;
* `Walk.list`: those that are not git's own, in their order;
* `walkFiles`: their paths.
-/

namespace SymbolIndex

/-- The names of the files with rules that are honoured in every directory. -/
structure IgnoreFiles where
  /-- those that come before all others, the later before the earlier -/
  custom : List String
  plain : Bool
  git : Bool

/-- The files with rules among some names. -/
def IgnoreFiles.ofNames (names : List String) : IgnoreFiles where
  custom := names.filter fun name => name != ".ignore" && name != ".gitignore"
  plain := names.contains ".ignore"
  git := names.contains ".gitignore"

/-- What a walk goes by. Names lead to files from where the walk begins. -/
structure Walk (N R : Type) where
  matcher : Matcher N R
  honoured : IgnoreFiles
  /-- the rules of the file of this name in a directory, given by what leads to it and by what is
  in it -/
  rulesIn : List N → List (N × Node N) → String → List R
  /-- the first name comes before the second -/
  before : N → N → Bool
  /-- the path to what some names lead to, in bytes -/
  path : List N → ByteArray

/-- The rules of one directory on the way, and the names of the steps that have led on from it. -/
structure Level (N R : Type) where
  custom : List R
  plain : List R
  git : List R
  below : List N

/-- What the first of some verdicts says that says anything. -/
def firstVerdict (verdicts : List Verdict) : Verdict :=
  (verdicts.find? (· != .open)).getD .open

variable {N R : Type}

namespace Level

/-- The level one step further on. -/
def descend (level : Level N R) (name : N) : Level N R :=
  { level with below := level.below ++ [name] }

/-- What rules of this directory say about a name at the end of the way. -/
def verdictOf (m : Matcher N R) (level : Level N R) (rules : List R) (name : N)
    (isDirectory : Bool) : Verdict :=
  m.verdict rules (level.below ++ [name]) isDirectory

end Level

/-- What the rules on the way, the deepest directory in front, say about a name at its end: custom
rules of any directory come before plain ones, and those before git's. -/
def levelsVerdict (m : Matcher N R) (levels : List (Level N R)) (name : N) (isDirectory : Bool) :
    Verdict :=
  let of (rules : Level N R → List R) :=
    firstVerdict (levels.map fun level => level.verdictOf m (rules level) name isDirectory)
  firstVerdict [of Level.custom, of Level.plain, of Level.git]

namespace Walk

def levelAt (w : Walk N R) (steps : List N) (children : List (N × Node N)) : Level N R where
  custom := w.honoured.custom.flatMap (w.rulesIn steps children)
  plain := if w.honoured.plain then w.rulesIn steps children ".ignore" else []
  git := if w.honoured.git then w.rulesIn steps children ".gitignore" else []
  below := []

/-- The files below a directory, given by the names of its `children`; `levels` are the rules on the
way, and `steps` the names that lead here. `exclude` are rules for the whole walk. -/
def collect (w : Walk N R) (exclude : List R) (levels : List (Level N R)) (steps : List N) :
    List (N × Node N) → List (List N)
  | [] => []
  | (name, node) :: rest =>
    let skipped (isDirectory : Bool) :=
      levelsVerdict w.matcher levels name isDirectory == .excluded ||
        w.matcher.verdict exclude (steps ++ [name]) isDirectory == .excluded
    let here :=
      match node with
      | .file _ => if skipped false then [] else [steps ++ [name]]
      | .directory children =>
        if skipped true then []
        else
          let steps := steps ++ [name]
          w.collect exclude (w.levelAt steps children :: levels.map (·.descend name)) steps children
      | .link _ => []
    here ++ w.collect exclude levels steps rest

/-- The files that are found from where the walk begins, which may be a file. -/
def found (w : Walk N R) (exclude : List R) : Node N → List (List N)
  | .file _ => [[]]
  | .link _ => []
  | .directory children => w.collect exclude [w.levelAt [] children] [] children

/-- The path leads through a directory of git's own, as far as that is looked for: only in paths
that are texts. -/
def isGits (w : Walk N R) (names : List N) : Bool :=
  match Text.decodeStrict (w.path names) with
  | some path => Text.occurs "/.git/".toList path.toList
  | none => false

/-- The first list of names may stand in front of the second: names are compared from the left. -/
def notAfter (w : Walk N R) : List N → List N → Bool
  | [], _ => true
  | _ :: _, [] => false
  | a :: as, b :: bs => w.before a b || (!w.before b a && w.notAfter as bs)

/-- All files that the rules spare and that are not git's own, in the order of their names. -/
def listed (w : Walk N R) (found : List (List N)) : List (List N) :=
  (found.filter fun names => !w.isGits names).mergeSort w.notAfter

/-- All files, from what the walk begins with if there is anything, that neither the patterns in
`exclude` nor the files with rules leave out. -/
def list (w : Walk N R) (exclude : List String) (root : Option (Node N)) :
    Except Error (List (List N)) := do
  return w.listed (root.elim [] (w.found (← w.matcher.rulesOf exclude)))

end Walk

/-! ## Walks by paths -/

def pathText (names : List String) : String := "/".intercalate names

def pathBelow (root : String) (names : List String) : String :=
  if names = [] then root else Path.resolve root (pathText names)

namespace FileTree

/-- The rules of a file in a directory; a file that is not there has none. -/
def rulesAt (t : FileTree) (directory : List String) (children : List (String × Node String))
    (name : String) : List Rule :=
  if (children.lookup name).isSome then
    match t.read (pathOf (directory ++ [name])) with
    | .ok content => rulesOfFile content
    | .error _ => []
  else []

/-- What a path leads to. -/
def node? (t : FileTree) (path : String) : Option (Node String) :=
  (t.locate path).toOption.map Prod.snd

/-- The walk that begins at the path `root`. -/
def walk (t : FileTree) (root : String) (honoured : IgnoreFiles) : Walk String Rule :=
  let start := (t.locate root).toOption.elim [] Prod.fst
  { matcher := globMatcher fun names => Glob.byteChars (pathText names).toList
    honoured
    rulesIn := fun steps children name => t.rulesAt (start ++ steps) children name
    before := fun name other => name < other
    path := fun names => (pathBelow root names).toUTF8 }

end FileTree

/-- The paths of all files below `root` that neither the patterns in `exclude` nor the files named
in `excludeFiles` leave out, in the order of their names. -/
def walkFiles (t : FileTree) (root : String) (exclude excludeFiles : List String) :
    Except Error (List String) :=
  ((t.walk root (.ofNames excludeFiles)).list exclude (t.node? root)).map
    (List.map (pathBelow root))

end SymbolIndex
