import SymbolIndex.Text.Blank

/-!
# Quoted text

A text as it is shown between quotes: quotes, backslashes and characters that cannot be seen are
escaped.

* `isInvisible`: the characters that show nothing;
* `quoted`: the text between its quotes.
-/

namespace SymbolIndex.Text

/-- A character that shows nothing: control and format characters, and all blanks but the space. -/
def isInvisible (c : Char) : Bool :=
  let n := c.toNat
  n < 0x20 || (0x7F ≤ n && n ≤ 0x9F) || (isBlank c && c != ' ') || n == 0xAD ||
    (0x600 ≤ n && n ≤ 0x605) || n == 0x61C || n == 0x6DD || n == 0x70F || n == 0x180E ||
    (0x200B ≤ n && n ≤ 0x200F) || (0x202A ≤ n && n ≤ 0x202E) || (0x2060 ≤ n && n ≤ 0x206F) ||
    (0xE000 ≤ n && n ≤ 0xF8FF) || n == 0xFEFF || (0xFFF0 ≤ n && n ≤ 0xFFFB) ||
    (0xFFFE ≤ n && n ≤ 0xFFFF) || 0xE0000 ≤ n

/-- A mark that joins the character before it. -/
def isJoiningMark (c : Char) : Bool :=
  let n := c.toNat
  (0x300 ≤ n && n ≤ 0x36F) || (0x483 ≤ n && n ≤ 0x489) || (0x591 ≤ n && n ≤ 0x5BD) ||
    (0x610 ≤ n && n ≤ 0x61A) || (0x64B ≤ n && n ≤ 0x65F) || (0x1AB0 ≤ n && n ≤ 0x1ACE) ||
    (0x1DC0 ≤ n && n ≤ 0x1DFF) || (0x20D0 ≤ n && n ≤ 0x20F0) || (0x3099 ≤ n && n ≤ 0x309A) ||
    (0xFE00 ≤ n && n ≤ 0xFE0F) || (0xFE20 ≤ n && n ≤ 0xFE2F)

/-- A character as it is shown between quotes. -/
def escaped (c : Char) : List Char :=
  match c with
  | '"' => ['\\', '"']
  | '\\' => ['\\', '\\']
  | '\n' => ['\\', 'n']
  | '\r' => ['\\', 'r']
  | '\t' => ['\\', 't']
  | '\x00' => ['\\', '0']
  | c =>
    if isInvisible c || isJoiningMark c then
      "\\u\x7B".toList ++ Nat.toDigits 16 c.toNat ++ ['\x7D']
    else [c]

/-- The text between quotes. -/
def quoted (s : String) : String := String.ofList ('"' :: (s.toList.flatMap escaped ++ ['"']))

end SymbolIndex.Text
