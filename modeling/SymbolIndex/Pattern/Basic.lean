import SymbolIndex.Text.Blank
import SymbolIndex.Text.Categories
import SymbolIndex.Text.WritingSystems

/-!
# Patterns

Regular expressions as trees. Of several ways in which a pattern fits a text, the order of its
alternatives and the greed of its repetitions say which one counts.

* `CharClass`, `CharClass.contains`: sets of characters;
* `Look`, `Look.holds`: conditions on the characters around a place;
* `Pattern`: the trees.
-/

namespace SymbolIndex

/-- Sets of characters. -/
inductive CharClass where
  | nothing
  | range (least most : Char)
  /-- the characters that make words -/
  | wordChar
  /-- the decimal digits -/
  | digit
  /-- the blank characters -/
  | blank
  | category (c : Text.Category)
  | script (s : Text.WritingSystem)
  | alphabetic
  | lowercase
  | uppercase
  | union (a b : CharClass)
  | inter (a b : CharClass)
  | diff (a b : CharClass)
  | negated (a : CharClass)
  /-- the characters that differ from one of the set at most in case -/
  | anyCase (a : CharClass)
  deriving DecidableEq, Repr

namespace CharClass

def one (c : Char) : CharClass := range c c

def ofRanges (ranges : List (Char × Char)) : CharClass :=
  ranges.foldr (fun r a => union (range r.1 r.2) a) nothing

/-- The class of all ASCII characters. -/
def ascii : CharClass := range '\x00' '\x7F'

def contains : CharClass → Char → Bool
  | nothing, _ => false
  | range least most, c => least ≤ c && c ≤ most
  | wordChar, c => Text.isWordChar c
  | digit, c => Text.isDecimalDigit c
  | blank, c => Text.isBlank c
  | category k, c => k.contains c.toNat
  | script s, c => s.contains c.toNat
  | alphabetic, c => Text.isAlphabetic c.toNat
  | lowercase, c => Text.isLowercase c.toNat
  | uppercase, c => Text.isUppercase c.toNat
  | union a b, c => a.contains c || b.contains c
  | inter a b, c => a.contains c && b.contains c
  | diff a b, c => a.contains c && !b.contains c
  | negated a, c => !a.contains c
  | anyCase a, c => (Text.caseVariants c).any a.contains

end CharClass

/-- Conditions on a place in a text. -/
inductive Look where
  | textStart
  | textEnd
  /-- a line begins here; with `crlf`, carriage returns end lines as well -/
  | lineStart (crlf : Bool)
  /-- a line ends here -/
  | lineEnd (crlf : Bool)
  /-- a run of these characters begins or ends here -/
  | wordEdge (cls : CharClass)
  | noWordEdge (cls : CharClass)
  | wordStart (cls : CharClass)
  | wordEnd (cls : CharClass)
  /-- no such character stands before this place -/
  | wordStartHalf (cls : CharClass)
  /-- no such character stands behind this place -/
  | wordEndHalf (cls : CharClass)
  deriving DecidableEq, Repr

/-- The character next to a place is in the class; beyond the ends of the text there is none. -/
def isIn (cls : CharClass) : Option Char → Bool
  | none => false
  | some c => cls.contains c

/-- The condition holds between the character before a place and the one behind it. -/
def Look.holds (before after : Option Char) : Look → Bool
  | textStart => before.isNone
  | textEnd => after.isNone
  | lineStart false => before.isNone || before == some '\n'
  | lineStart true =>
    before.isNone || before == some '\n' || (before == some '\r' && after != some '\n')
  | lineEnd false => after.isNone || after == some '\n'
  | lineEnd true =>
    after.isNone || after == some '\r' || (after == some '\n' && before != some '\r')
  | wordEdge cls => isIn cls before != isIn cls after
  | noWordEdge cls => isIn cls before == isIn cls after
  | wordStart cls => !isIn cls before && isIn cls after
  | wordEnd cls => isIn cls before && !isIn cls after
  | wordStartHalf cls => !isIn cls before
  | wordEndHalf cls => !isIn cls after

/-- Regular expressions. -/
inductive Pattern where
  | empty
  | char (cls : CharClass)
  | look (l : Look)
  | seq (a b : Pattern)
  | alt (a b : Pattern)
  /-- between `least` and `most` rounds of `p`, many rather than few if it is greedy -/
  | repeat (least : Nat) (most : Option Nat) (greedy : Bool) (p : Pattern)
  /-- what may follow a round of an unlimited repetition of `p` -/
  | again (greedy : Bool) (p : Pattern)
  deriving DecidableEq, Repr

namespace Pattern

/-- The pattern of two patterns in sequence. -/
def followedBy (a b : Pattern) : Pattern :=
  match a, b with
  | empty, b => b
  | a, empty => a
  | a, b => seq a b

def sequence (parts : List Pattern) : Pattern := parts.foldr followedBy empty

/-- One of the patterns, the earlier rather than the later. -/
def choice : List Pattern → Pattern
  | [] => empty
  | [p] => p
  | p :: rest => alt p (choice rest)

/-- How many characters the pattern counts when all its repetitions are written out. -/
def size : Pattern → Nat
  | empty | look _ => 0
  | char _ => 1
  | seq a b | alt a b => a.size + b.size
  | .repeat least most _ p => p.size * max (most.getD (least + 1)) 1
  | again _ p => p.size

end Pattern

end SymbolIndex
