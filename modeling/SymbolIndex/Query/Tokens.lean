import SymbolIndex.Query.Clause
import SymbolIndex.Text.Blank

/-!
# Reading query text

Query text is split into words at blanks, and each word is read as a clause by the first rule that
fits how it begins. A word that is nothing but the beginning of its sort says nothing yet.

* `Selection`: which attributes a reader is interested in;
* `classify`: the clause of one word;
* `parse`: the clauses of a text;
* `optionValues`: the values of the option clauses.
-/

namespace SymbolIndex.Query

/-- Which clauses of a query are kept. -/
inductive Selection where
  /-- every clause -/
  | full
  /-- the clauses that say something about entries, so no options -/
  | search
  /-- the clauses whose attribute is not in the list -/
  | without (excluded : List Attribute)
  deriving DecidableEq, Repr

def Selection.keeps : Selection → Attribute → Bool
  | .full, _ => true
  | .search, a => a != .option
  | .without excluded, a => !excluded.contains a

def ruleFor (word : List Char) : Option Rule :=
  rules.find? fun r => r.leadText.isPrefixOf word

/-- The rule that counts for a word that begins like no other sort. -/
theorem ruleFor_plain {c : Char} (value : List Char) (h₁ : c ≠ '=') (h₂ : c ≠ '/') (h₃ : c ≠ '-')
    (h₄ : c ≠ ':') (h₅ : c ≠ '!') :
    ruleFor (c :: value) = some ⟨none, .name, .fuzzy, .every⟩ := by
  simp [ruleFor, rules, Rule.leadText, h₁.symm, h₂.symm, h₃.symm, h₄.symm, h₅.symm]

/-- The clause of a word, unless the word is only a beginning. No later rule is tried then. -/
def classify (word : List Char) : Option Clause :=
  match ruleFor word with
  | none => none
  | some rule =>
    match word.drop rule.leadText.length with
    | [] => none
    | value => some ⟨rule.target, rule.mode, rule.grouping, String.ofList value⟩

def parseWords (selection : Selection) (words : List (List Char)) : List Clause :=
  (words.filterMap classify).filter fun c => selection.keeps c.target

/-- The clauses of a text, in the order of its words. -/
def parse (selection : Selection) (text : String) : List Clause :=
  parseWords selection (Text.words text.toList)

/-- The values of the option clauses, in order. -/
def optionValues (clauses : List Clause) : List String :=
  (clauses.filter (·.target == .option)).map Clause.value

end SymbolIndex.Query
