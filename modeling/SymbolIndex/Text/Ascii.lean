/-!
# ASCII characters

Letter case, digits and punctuation as the matcher and the location grammar know them: only ASCII
letters have two cases, and every other character stands for itself.

* `lower`: a character with ASCII upper case folded;
* `isDigit`, `isPunctuation`: the ASCII classes;
* `padRight`, `padLeft`: text filled with spaces to a number of characters.
-/

namespace SymbolIndex.Text

/-- The lower-case form of an ASCII letter; any other character itself. -/
def lower (c : Char) : Char := c.toLower

def isDigit (c : Char) : Bool := c.isDigit

/-- The ASCII characters that are visible and neither letters nor digits. -/
def isPunctuation (c : Char) : Bool :=
  0x21 ≤ c.toNat && c.toNat ≤ 0x7E && !c.isAlphanum

/-- The value of a text of decimal digits. -/
def decimal (digits : List Char) : Nat :=
  digits.foldl (fun n c => 10 * n + (c.toNat - '0'.toNat)) 0

/-- The text, filled with spaces on its right side to `width` characters. -/
def padRight (width : Nat) (s : List Char) : List Char :=
  s ++ List.replicate (width - s.length) ' '

/-- The text, filled with spaces on its left side to `width` characters. -/
def padLeft (width : Nat) (s : List Char) : List Char :=
  List.replicate (width - s.length) ' ' ++ s

end SymbolIndex.Text
