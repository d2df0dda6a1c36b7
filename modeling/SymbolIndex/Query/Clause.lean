/-!
# Query clauses

A query is a list of clauses: each names the field of an entry it looks at, how its value is
compared with that field, and how it combines with the other clauses.

* `Attribute`, `MatchMode`, `Grouping`: the three parts of a clause and their names;
* `UnknownName`: a name that none of them has;
* `Clause`: one unit of a query;
* `Rule`, `rules`: the table of the six sorts of words, told apart by how a word begins;
* `Clause.lead?`, `Clause.render`, `render`: clauses written as query text.
-/

namespace SymbolIndex.Query

/-! ## The parts of a clause -/

/-- The field of an entry that a clause looks at. An option is no field: the editor reacts to it. -/
inductive Attribute where
  | name | kind | file | extra | option
  deriving DecidableEq, Repr

/-- How a value is compared with a field. -/
inductive MatchMode where
  /-- the characters of the value appear in order, with arbitrary gaps -/
  | fuzzy
  /-- the field starts with the value -/
  | leading
  /-- the field equals the value -/
  | exact
  /-- nothing is compared -/
  | ignore
  deriving DecidableEq, Repr

/-- How the clauses of one attribute combine. -/
inductive Grouping where
  /-- each clause is a constraint of its own -/
  | every
  /-- one of the clauses has to hold -/
  | either
  /-- no part of the predicate -/
  | ungrouped
  deriving DecidableEq, Repr

/-- The sort of name that was looked up. -/
inductive NameSort where
  | attribute | matchMode | grouping
  deriving DecidableEq, Repr

/-- A name that stands for no attribute, match mode or grouping. -/
structure UnknownName where
  sort : NameSort
  name : String
  deriving DecidableEq, Repr

/-- The wording of the error. -/
def UnknownName.message (e : UnknownName) : String :=
  let sort := match e.sort with
    | .attribute => "attribute"
    | .matchMode => "match mode"
    | .grouping => "grouping"
  "unknown " ++ sort ++ " '" ++ e.name ++ "'"

namespace Attribute

/-- Every attribute, in rank order. -/
def all : List Attribute := [.name, .kind, .file, .extra, .option]

def text : Attribute → String
  | .name => "name"
  | .kind => "kind"
  | .file => "file"
  | .extra => "extra"
  | .option => "option"

/-- The position of the attribute among all attributes. -/
def rank (a : Attribute) : Nat := all.idxOf a

/-- The attribute of a name; the kind is also known as the type. -/
def ofName (name : String) : Except UnknownName Attribute :=
  if name = "type" then .ok .kind
  else match all.find? (·.text == name) with
    | some a => .ok a
    | none => .error ⟨.attribute, name⟩

end Attribute

namespace MatchMode

def all : List MatchMode := [.fuzzy, .leading, .exact, .ignore]

def text : MatchMode → String
  | .fuzzy => "fuzzy"
  | .leading => "prefix"
  | .exact => "exact"
  | .ignore => "ignore"

def ofName (name : String) : Except UnknownName MatchMode :=
  match all.find? (·.text == name) with
  | some m => .ok m
  | none => .error ⟨.matchMode, name⟩

end MatchMode

namespace Grouping

def all : List Grouping := [.every, .either, .ungrouped]

def text : Grouping → String
  | .every => "and"
  | .either => "or"
  | .ungrouped => "none"

/-- The grouping of a name; no name at all is no grouping. -/
def ofName (name : String) : Except UnknownName Grouping :=
  if name = "" then .ok .ungrouped
  else match all.find? (·.text == name) with
    | some g => .ok g
    | none => .error ⟨.grouping, name⟩

end Grouping

/-! ## Clauses -/

/-- One unit of a query. -/
structure Clause where
  target : Attribute
  mode : MatchMode
  grouping : Grouping
  value : String
  deriving DecidableEq, Repr

/-- How one sort of word is read: the character it begins with, if any, and the clause it makes. -/
structure Rule where
  lead : Option Char
  target : Attribute
  mode : MatchMode
  grouping : Grouping
  deriving DecidableEq, Repr

/-- The sorts of words. The first rule that fits a word is the one that counts, so the rule that
fits every word comes last. -/
def rules : List Rule :=
  [⟨some '=', .kind, .leading, .either⟩,
   ⟨some '/', .file, .fuzzy, .every⟩,
   ⟨some '-', .option, .ignore, .ungrouped⟩,
   ⟨some ':', .extra, .fuzzy, .every⟩,
   ⟨some '!', .name, .exact, .every⟩,
   ⟨none, .name, .fuzzy, .every⟩]

namespace Rule

/-- The text a word of this sort begins with. -/
def leadText (r : Rule) : List Char := r.lead.toList

/-- The clause is of the sort the rule makes. -/
def Makes (r : Rule) (c : Clause) : Prop :=
  r.target = c.target ∧ r.mode = c.mode ∧ r.grouping = c.grouping

instance (r : Rule) (c : Clause) : Decidable (r.Makes c) := by unfold Makes; infer_instance

end Rule

namespace Clause

/-- The text that words of this sort begin with, whatever the grouping, if there is such a sort. -/
def lead? (c : Clause) : Option (List Char) :=
  (rules.find? fun r => r.target = c.target ∧ r.mode = c.mode).map Rule.leadText

/-- The clause as a word of a query. -/
def render (c : Clause) : String := String.ofList (c.lead?.getD [] ++ c.value.toList)

end Clause

/-- Clauses as query text, one word each. -/
def render (clauses : List Clause) : String := " ".intercalate (clauses.map Clause.render)

end SymbolIndex.Query
