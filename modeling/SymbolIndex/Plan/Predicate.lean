import SymbolIndex.Entry
import SymbolIndex.Query.Clause

/-!
# Search plans

The clauses of a query compile into a plan: a list of constraints that all have to hold and a list
of kind beginnings of which one has to hold. Fuzzy and leading comparisons ignore the case of ASCII
letters and take every character of the value literally; exact comparison does not.

* `fuzzyMatch`: the characters of a pattern appear in order;
* `leadMatch`: a text begins with another, compared byte by byte;
* `Plan`, `Plan.compile`, `Plan.accepts`: plans, and the entries they accept.
-/

namespace SymbolIndex

open Query

/-- A text with the case of its ASCII letters folded. -/
def foldCase (s : String) : List Char := s.toList.map Text.lower

/-- The characters of the pattern appear in the text in order, with arbitrary gaps, ignoring the
case of the text. Each is taken where it first appears. -/
def fuzzyMatch : List Char → List Char → Bool
  | [], _ => true
  | _ :: _, [] => false
  | p :: pattern, c :: text =>
    if Text.lower c = p then fuzzyMatch pattern text else fuzzyMatch (p :: pattern) text

/-- The byte with the case of an ASCII letter folded. -/
def lowerByte (b : UInt8) : UInt8 := if 0x41 ≤ b && b ≤ 0x5A then b + 0x20 else b

/-- The bytes of a text. -/
def bytesOf (s : String) : List UInt8 := s.toUTF8.data.toList

/-- The text begins with the bytes of `lead`, up to the case of ASCII letters. -/
def leadMatch (lead text : String) : Bool :=
  let lead := bytesOf lead
  let text := bytesOf text
  lead.length ≤ text.length &&
    (text.take lead.length).map lowerByte == lead.map lowerByte

/-- What a constraint asks of a field. -/
inductive FieldTest where
  /-- these characters, in order -/
  | fuzzy (pattern : List Char)
  /-- this text -/
  | exact (expected : String)
  deriving DecidableEq, Repr

/-- The field passes the test. -/
def FieldTest.holds : FieldTest → String → Bool
  | fuzzy pattern, value => fuzzyMatch pattern value.toList
  | exact expected, value => value == expected

/-- A test of one field. -/
structure Constraint where
  target : Attribute
  test : FieldTest
  deriving DecidableEq, Repr

/-- The text of a field. Options are no field, and read as the empty text. -/
def Entry.field (e : Entry) : Attribute → String
  | .name => e.name
  | .kind => e.kind
  | .file => e.file
  | .extra => e.extraText
  | .option => ""

/-- A compiled query. -/
structure Plan where
  constraints : List Constraint := []
  kindLeads : List String := []
  deriving DecidableEq, Repr

/-- The error for a clause that no word of a query makes. -/
def Query.Clause.invalid (c : Clause) : Error :=
  .invalidClause
    (c.target.text ++ "/" ++ c.mode.text ++ "/" ++ c.grouping.text ++ " '" ++ c.value ++ "'")

namespace Plan

/-- The plan with one more clause. Only the clauses that words make are known. -/
def add (plan : Plan) (c : Clause) : Except Error Plan :=
  if rules.any (fun r => r.Makes c) then
    match c.grouping, c.mode with
    | _, .ignore => .ok plan
    | .either, .leading =>
      .ok { plan with kindLeads := plan.kindLeads ++ [String.ofList (foldCase c.value)] }
    | .every, .fuzzy =>
      .ok { plan with
        constraints := plan.constraints ++ [⟨c.target, .fuzzy (foldCase c.value)⟩] }
    | .every, .exact =>
      .ok { plan with constraints := plan.constraints ++ [⟨c.target, .exact c.value⟩] }
    | _, _ => .error c.invalid
  else .error c.invalid

/-- The plan of a list of clauses. -/
def compile (clauses : List Clause) : Except Error Plan := clauses.foldlM add {}

/-- The plan asks for nothing. -/
def acceptsAll (plan : Plan) : Bool := plan.constraints.isEmpty && plan.kindLeads.isEmpty

/-- The entry is one the plan asks for. -/
def accepts (plan : Plan) (e : Entry) : Bool :=
  plan.constraints.all (fun c => c.test.holds (e.field c.target)) &&
    (plan.kindLeads.isEmpty || plan.kindLeads.any (leadMatch · e.kind))

end Plan

end SymbolIndex
