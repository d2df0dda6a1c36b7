/-!
# Blank characters, words and lines

Text is cut on the level of characters: into words at blanks, into lines at line feeds.

* `isBlank`: the characters of the Unicode property White_Space;
* `splitAt`, `words`: the parts between cutting characters, and the non-empty ones;
* `trim`, `trimEnd`: text without the blanks around it;
* `linesInclusive`, `lines`: the lines of a text with and without their line ends;
* `occurs`: whether a text is part of another.
-/

namespace SymbolIndex.Text

/-! ## Blanks -/

/-- The characters with the Unicode property White_Space. -/
def isBlank (c : Char) : Bool :=
  (9 ≤ c.toNat && c.toNat ≤ 13) || c.toNat == 0x20 || c.toNat == 0x85 || c.toNat == 0xA0 ||
    c.toNat == 0x1680 || (0x2000 ≤ c.toNat && c.toNat ≤ 0x200A) || c.toNat == 0x2028 ||
    c.toNat == 0x2029 || c.toNat == 0x202F || c.toNat == 0x205F || c.toNat == 0x3000

/-- The text without the blanks it starts with. -/
def trimStart (s : List Char) : List Char := s.dropWhile isBlank

/-- The text without the blanks it ends with. -/
def trimEnd (s : List Char) : List Char := (s.reverse.dropWhile isBlank).reverse

/-- The text without the blanks around it. -/
def trim (s : List Char) : List Char := trimEnd (trimStart s)

/-! ## Cutting text apart -/

/-- Put one character in front of the first part. -/
def consHead (c : Char) : List (List Char) → List (List Char)
  | [] => [[c]]
  | part :: parts => (c :: part) :: parts

/-- The parts between the characters that satisfy `cut`; there is always at least one part. -/
def splitAt (cut : Char → Bool) (s : List Char) : List (List Char) :=
  s.foldr (fun c parts => if cut c then [] :: parts else consHead c parts) [[]]

/-- The maximal runs of characters that are not blank. -/
def words (s : List Char) : List (List Char) := (splitAt isBlank s).filter (!·.isEmpty)

/-- The lines of a text, each with the line feed that ends it. -/
def linesInclusive (s : List Char) : List (List Char) :=
  s.foldr (fun c rest => if c = '\n' then [c] :: rest else consHead c rest) []

/-- A line without its line end: a line feed, or a carriage return and a line feed. -/
def stripLineEnd (line : List Char) : List Char :=
  match line.reverse with
  | '\n' :: '\r' :: rest => rest.reverse
  | '\n' :: rest => rest.reverse
  | _ => line

/-- The lines of a text without their line ends. A carriage return that no line feed follows stays. -/
def lines (s : List Char) : List (List Char) := (linesInclusive s).map stripLineEnd

/-- The text before the first `sep` and the text after it. -/
def splitOnce (sep : Char) : List Char → Option (List Char × List Char)
  | [] => none
  | c :: rest =>
    if c = sep then some ([], rest)
    else (splitOnce sep rest).map fun (before, after) => (c :: before, after)

/-- The text `part` occurs somewhere in the text. -/
def occurs (part : List Char) : List Char → Bool
  | [] => part.isEmpty
  | c :: rest => part.isPrefixOf (c :: rest) || occurs part rest

@[simp] theorem splitAt_nil (cut : Char → Bool) : splitAt cut [] = [[]] := rfl

theorem splitAt_cons (cut : Char → Bool) (c : Char) (s : List Char) :
    splitAt cut (c :: s) = if cut c then [] :: splitAt cut s else consHead c (splitAt cut s) := rfl

@[simp] theorem linesInclusive_nil : linesInclusive [] = [] := rfl

theorem linesInclusive_cons (c : Char) (s : List Char) :
    linesInclusive (c :: s) =
      if c = '\n' then [c] :: linesInclusive s else consHead c (linesInclusive s) := rfl

/-- Nothing is lost between the lines. -/
theorem flatten_linesInclusive (s : List Char) : (linesInclusive s).flatten = s := by
  induction s with
  | nil => rfl
  | cons c s ih =>
    rw [linesInclusive_cons]
    split
    · simp [ih]
    · cases h : linesInclusive s <;> simp_all [consHead]

end SymbolIndex.Text
