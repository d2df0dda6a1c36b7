import SymbolIndex.Location

/-!
# Entries

One unit of the index: a name of some kind in some file, perhaps with a place in the file and a text
that goes with it, and the priorities that rank it.

* `Entry`, `Entry.ofRaw`: entries, and entries made of loosely typed parts;
* `Defect`, `Entry.defect?`: what an entry lacks that cannot be stored.
-/

namespace SymbolIndex

/-- One indexed unit. -/
structure Entry where
  name : String
  kind : String
  file : String
  extra : Option String := none
  location : Option Location := none
  priority : Int64 := 0
  subpriority : Int64 := 0
  deriving DecidableEq, Repr

/-- Why an entry cannot be stored. -/
inductive Defect where
  | emptyName | emptyKind | emptyFile
  deriving DecidableEq, Repr

def Defect.reason : Defect → String
  | emptyName => "empty name"
  | emptyKind => "empty kind"
  | emptyFile => "empty file"

namespace Entry

/-- An entry of raw parts: the location is read, and an empty extra text is none. -/
def ofRaw (name kind file : String) (extra location : Option String)
    (priority subpriority : Int64) : Except Error Entry := do
  let location ← match location with
    | none => .ok none
    | some raw => Location.parse raw
  return { name, kind, file, extra := extra.filter (· != ""), location, priority, subpriority }

/-- The entry with another extra text; an empty text is none. -/
def withExtra (e : Entry) (extra : String) : Entry :=
  { e with extra := if extra = "" then none else some extra }

/-- The entry at another place. -/
def withLocation (e : Entry) (location : Location) : Entry := { e with location := some location }

def atLine (e : Entry) (number : UInt32) : Entry := e.withLocation (.line number)

/-- The entry with other priorities. -/
def withPriority (e : Entry) (priority subpriority : Int64) : Entry :=
  { e with priority, subpriority }

/-- The extra text; no extra reads as the empty text. -/
def extraText (e : Entry) : String := e.extra.getD ""

/-- How many characters the name has. -/
def nameLength (e : Entry) : Nat := e.name.length

/-- How many characters the file has. -/
def fileLength (e : Entry) : Nat := e.file.length

/-- The text of the location; no location reads as the empty text. -/
def locationText (e : Entry) : String :=
  match e.location with
  | none => ""
  | some location => location.render

/-- The first thing the entry lacks: it has to have a name, a kind and a file. -/
def defect? (e : Entry) : Option Defect :=
  if e.name = "" then some .emptyName
  else if e.kind = "" then some .emptyKind
  else if e.file = "" then some .emptyFile
  else none

/-- The entry can be stored. -/
def Valid (e : Entry) : Prop := e.defect? = none

instance (e : Entry) : Decidable e.Valid := by unfold Valid; infer_instance

theorem valid_iff {e : Entry} : e.Valid ↔ e.name ≠ "" ∧ e.kind ≠ "" ∧ e.file ≠ "" := by
  unfold Valid defect?
  by_cases hname : e.name = "" <;> by_cases hkind : e.kind = "" <;> simp [hname, hkind]

end Entry

end SymbolIndex
