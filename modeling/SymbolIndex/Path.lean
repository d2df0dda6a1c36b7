import SymbolIndex.Text.Blank

/-!
# Paths

Paths as texts: slashes separate the names of directories, `.` stands for the directory itself and
`..` for the one above it. Nothing here looks at files.

* `Component`, `components`: the steps of a path;
* `join`, `resolve`: a path seen from a directory;
* `fileName?`, `parent?`: the last step of a path and what comes before it;
* `difference?`, `entryPath`: the way from one path to another, and the form in which entries keep
  paths.
-/

namespace SymbolIndex.Path

/-- One step of a path. -/
inductive Component where
  | root | current | parent
  | normal (name : List Char)
  deriving DecidableEq, Repr

def Component.text : Component → List Char
  | root => ['/']
  | current => ['.']
  | parent => ['.', '.']
  | normal name => name

/-- The step of one piece between slashes; an empty piece and a `.` are none. -/
def step? (piece : List Char) : Option Component :=
  if piece = [] ∨ piece = ['.'] then none
  else if piece = ['.', '.'] then some .parent
  else some (.normal piece)

/-- The steps of a path. A `.` counts only where a relative path begins with it. -/
def components (path : List Char) : List Component :=
  match path with
  | '/' :: rest => .root :: (Text.splitAt (· == '/') rest).filterMap step?
  | path =>
    match Text.splitAt (· == '/') path with
    | ['.'] :: rest => .current :: rest.filterMap step?
    | pieces => pieces.filterMap step?

/-- The path begins at the root. -/
def isAbsolute (path : List Char) : Bool := path.head? == some '/'

/-- The second path as seen from the first. -/
def join (base path : List Char) : List Char :=
  if isAbsolute path then path
  else if base = [] ∨ base.getLast? = some '/' then base ++ path
  else base ++ '/' :: path

def ofComponents (steps : List Component) : List Char :=
  steps.foldl (fun path step => join path step.text) []

/-- The name of what the path leads to, unless it ends with no name. -/
def fileName? (path : List Char) : Option (List Char) :=
  match (components path).getLast? with
  | some (.normal name) => some name
  | _ => none

/-- The path without its last step, unless it has no step to lose. -/
def parent? (path : List Char) : Option (List Char) :=
  match (components path).reverse with
  | [] => none
  | .root :: _ => none
  | _ :: above => some (ofComponents above.reverse)

/-- The way from `base` to `path`, behind the common steps of both if `apart` is set. There is none
where `base` leaves a directory that cannot be named. -/
def differenceFrom (apart : Bool) : List Component → List Component → Option (List Component)
  | [], [] => some []
  | steps, [] => some steps
  | [], _ :: base => (differenceFrom true [] base).map (.parent :: ·)
  | step :: steps, other :: base =>
    if apart = false ∧ step = other then differenceFrom false steps base
    else if other = .current then (differenceFrom true steps base).map (step :: ·)
    else if other = .parent then none
    else some (.parent :: (base.map fun _ => .parent) ++ step :: steps)

/-- The way from `base` to `path`; to an absolute path from a relative one, that path itself. -/
def difference? (path base : List Char) : Option (List Char) :=
  if isAbsolute path = isAbsolute base then
    (differenceFrom false (components path) (components base)).map ofComponents
  else if isAbsolute path then some path
  else none

/-- The path leads out of where it begins with its first step. -/
def leavesUpward (path : List Char) : Bool := (components path).head? == some .parent

/-- The form in which entries keep a path: relative to the root of the project for a path inside of
it, and as it is for any other. -/
def entryPath (path root : String) : String :=
  match difference? path.toList root.toList with
  | some relative => if leavesUpward relative then path else String.ofList relative
  | none => path

/-- The path of an entry's file, seen from the root of the project. -/
def resolve (root file : String) : String :=
  if isAbsolute file.toList then file else String.ofList (join root.toList file.toList)

end SymbolIndex.Path
