import SymbolIndex.OsError
import SymbolIndex.Path

/-!
# Files, directories and links

The files that the program looks at, as one tree of names below the root `/`. Paths are followed as
the operating system follows them, through links and upwards. The names are texts, but for walks,
which come across any others too.

* `Node`, `FileTree`: the tree;
* `FileTree.find?`, `FileTree.put`: what a list of names leads to, and the tree with something else
  there;
* `FileTree.locate`: the names that a path leads to;
* `FileTree.read`, `FileTree.isFile`, `FileTree.isDirectory`, `FileTree.canonical`: looking at files;
* `FileTree.write`, `FileTree.makeDirectory`, `FileTree.makeDirectories`, `FileTree.makeLink`,
  `FileTree.remove`: changing them.
-/

namespace SymbolIndex

/-- What a name in a directory stands for. `N` is what can be a name. -/
inductive Node (N : Type) where
  | file (content : ByteArray)
  | directory (children : List (N × Node N))
  | link (target : String)

/-- All files, as what the root directory holds. -/
structure FileTree where
  children : List (String × Node String)

namespace Node

/-- What the names lead to, links not followed. -/
def find? {N : Type} [BEq N] : List N → Node N → Option (Node N)
  | [], node => some node
  | name :: names, .directory children => (children.lookup name).bind (find? names)
  | _ :: _, _ => none

end Node

/-- The children with `node`, or nothing, under a name. -/
def setChild (name : String) (node : Option (Node String))
    (children : List (String × Node String)) : List (String × Node String) :=
  match node with
  | none => children.filter (·.1 != name)
  | some node =>
    if children.any (·.1 == name) then
      children.map fun child => if child.1 == name then (name, node) else child
    else children ++ [(name, node)]

/-- The children with `node`, or nothing, where the names lead. Directories on the way that are not
there stay away. -/
def putChildren (node : Option (Node String)) :
    List String → List (String × Node String) → List (String × Node String)
  | [], children => children
  | [name], children => setChild name node children
  | name :: names, children =>
    match children.lookup name with
    | some (.directory inner) =>
      setChild name (some (.directory (putChildren node names inner))) children
    | _ => children

/-- How many links one path may lead through. -/
def maxLinks : Nat := 40

/-- The pieces of a path between its slashes; the first is empty for a path from the root. -/
def pathPieces (path : String) : List String :=
  (Text.splitAt (· == '/') path.toList).map String.ofList

namespace FileTree

/-- A tree without any file. -/
def empty : FileTree := ⟨[]⟩

/-- What the names lead to, from the root. -/
def find? (t : FileTree) (names : List String) : Option (Node String) :=
  (Node.directory t.children).find? names

/-- The tree with `node`, or nothing, where the names lead. -/
def put (t : FileTree) (names : List String) (node : Option (Node String)) : FileTree :=
  ⟨putChildren node names t.children⟩

/-- Where a path leads. -/
inductive Place where
  /-- to something that is there -/
  | found (names : List String) (node : Node String)
  /-- to a name that an existing directory does not hold -/
  | missing (directory : List String) (name : String)

/-- Follow the pieces of a path from the directory `here`. A link is followed while `links` allows
it; the last piece is followed too if `last` is set. -/
def follow (t : FileTree) (last : Bool) (links : Nat) (here : List String) :
    List String → Except OsError Place
  | [] =>
    match t.find? here with
    | some node => .ok (.found here node)
    | none => .error .notFound
  | piece :: pieces =>
    match t.find? here with
    | none => .error .notFound
    | some (.directory children) =>
      if piece = "" ∨ piece = "." then follow t last links here pieces
      else if piece = ".." then follow t last links here.dropLast pieces
      else
        match children.lookup piece with
        | none =>
          if pieces.all (fun p => p = "") then .ok (.missing here piece) else .error .notFound
        | some (.link target) =>
          if pieces = [] ∧ last = false then .ok (.found (here ++ [piece]) (.link target))
          else
            match links with
            | 0 => .error .tooManyLinks
            | links + 1 =>
              let start := if target.toList.head? = some '/' then [] else here
              follow t last links start (pathPieces target ++ pieces)
        | some _ => follow t last links (here ++ [piece]) pieces
    | some _ => .error .notADirectory
termination_by pieces => (links, pieces.length)

/-- Where a path leads; relative paths begin at the root. -/
def place (t : FileTree) (path : String) (last : Bool) : Except OsError Place :=
  if path = "" then .error .notFound
  else if path.toList.contains '\x00' then .error .nulInPath
  else t.follow last maxLinks [] (pathPieces path)

/-- The names of what a path leads to, and what it is. -/
def locate (t : FileTree) (path : String) : Except OsError (List String × Node String) := do
  match ← t.place path true with
  | .found names node => return (names, node)
  | .missing .. => .error .notFound

def pathOf (names : List String) : String := "/" ++ "/".intercalate names

/-- The one path to the same file that goes through no link and no `..`. -/
def canonical (t : FileTree) (path : String) : Except OsError String := do
  return pathOf (← t.locate path).1

/-- The bytes of a file. -/
def read (t : FileTree) (path : String) : Except OsError ByteArray := do
  match (← t.locate path).2 with
  | .file content => return content
  | .directory _ => .error .isADirectory
  | .link _ => .error .tooManyLinks

def isFile (t : FileTree) (path : String) : Bool :=
  match t.locate path with
  | .ok (_, .file _) => true
  | _ => false

def isDirectory (t : FileTree) (path : String) : Bool :=
  match t.locate path with
  | .ok (_, .directory _) => true
  | _ => false

/-! ## Changing files -/

def makeDirectory (t : FileTree) (path : String) : Except OsError FileTree := do
  match ← t.place path false with
  | .found .. => .error .alreadyExists
  | .missing directory name => return t.put (directory ++ [name]) (some (.directory []))

/-- The tree with a directory at the path, whose last `depth` steps may have to be made. -/
def makeDirectoriesFrom (t : FileTree) (path : List Char) : Nat → Except OsError FileTree
  | 0 => .error .notFound
  | depth + 1 =>
    if path = [] then .ok t
    else
      match t.makeDirectory (String.ofList path) with
      | .ok t => .ok t
      | .error .notFound => do
        match Path.parent? path with
        | none => .error .notFound
        | some above =>
          let t ← makeDirectoriesFrom t above depth
          match t.makeDirectory (String.ofList path) with
          | .ok t => .ok t
          | .error e => if t.isDirectory (String.ofList path) then .ok t else .error e
      | .error e => if t.isDirectory (String.ofList path) then .ok t else .error e

/-- The tree with a directory at the path, and with the directories above it. -/
def makeDirectories (t : FileTree) (path : String) : Except OsError FileTree :=
  t.makeDirectoriesFrom path.toList (path.length + 1)

/-- The tree with other bytes in a file, which is made if it is not there. -/
def write (t : FileTree) (path : String) (content : ByteArray) : Except OsError FileTree := do
  match ← t.place path true with
  | .found names (.file _) => return t.put names (some (.file content))
  | .found .. => .error .isADirectory
  | .missing directory name =>
    if path.toList.getLast? = some '/' then .error .isADirectory
    else return t.put (directory ++ [name]) (some (.file content))

def makeLink (t : FileTree) (path target : String) : Except OsError FileTree := do
  match ← t.place path false with
  | .found .. => .error .alreadyExists
  | .missing directory name => return t.put (directory ++ [name]) (some (.link target))

/-- The tree without a file or a link. -/
def remove (t : FileTree) (path : String) : Except OsError FileTree := do
  match ← t.place path false with
  | .found _ (.directory _) => .error .isADirectory
  | .found names _ => return t.put names none
  | .missing .. => .error .notFound

end FileTree

end SymbolIndex
