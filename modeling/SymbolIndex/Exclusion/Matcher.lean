import SymbolIndex.Error

/-!
# Patterns in the manner of git

What the program asks of the library that reads patterns for leaving files out.

* `Verdict`: what rules say about a path;
* `RuleLine`, `Matcher`: reading rules, and asking them;
* `Matcher.rulesOf`: the rules of settings, where each pattern has to be valid.
-/

namespace SymbolIndex

/-- What rules say about a path. -/
inductive Verdict where
  /-- nothing -/
  | open
  | excluded
  | kept
  deriving DecidableEq, Repr

/-- What a line of rules is. -/
inductive RuleLine (R : Type) where
  | blank
  | rule (r : R)
  | invalid

/-- A reader of rules `R`, which are about paths from a directory on, given by names `N`. -/
structure Matcher (N R : Type) where
  line : String → RuleLine R
  /-- the rules of a file -/
  file : ByteArray → List R
  /-- what rules say about what some names lead to, which is a directory or not -/
  verdict : List R → List N → Bool → Verdict

/-- The rules of some patterns, all of which have to be valid. -/
def Matcher.rulesOf {N R : Type} (m : Matcher N R) : List String → Except Error (List R)
  | [] => .ok []
  | pattern :: patterns =>
    match m.line pattern with
    | .invalid => .error .ignore
    | .blank => m.rulesOf patterns
    | .rule r => (m.rulesOf patterns).map (r :: ·)

end SymbolIndex
