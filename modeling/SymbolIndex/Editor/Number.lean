import SymbolIndex.Text.Ascii

/-!
# Numbers of the editor

The editor has one sort of number, with 53 binary digits. Whole numbers that need more are rounded,
halves to the even neighbour. Of a number that is not whole only the whole part is of use here.

* `nearest`: the number that the editor has for a whole number;
* `numberText`: how it spells the number, with up to 14 digits;
* `spelled?`: the whole part of the number that a text spells;
* `nearest_of_small`: whole numbers of at most 53 binary digits are kept as they are.
-/

namespace SymbolIndex.Editor

/-! ## Rounding -/

/-- The whole number nearest to a quotient; a half goes to the even neighbour. -/
def roundQuotient (n d : Nat) : Nat :=
  if 2 * (n % d) < d ∨ (2 * (n % d) = d ∧ n / d % 2 = 0) then n / d else n / d + 1

/-- How many binary digits a number has. -/
def precision : Nat := 53

/-- The number nearest to a whole number that is not negative. -/
def nearestNat (n : Nat) : Nat :=
  if n < 1 <<< precision then n
  else
    let unit := 1 <<< (n.log2 + 1 - precision)
    roundQuotient n unit * unit

/-- The number nearest to a whole number. -/
def nearest (n : Int) : Int := n.sign * nearestNat n.natAbs

/-- Whole numbers of at most 53 binary digits are kept as they are. -/
theorem nearest_of_small {n : Int} (h : n.natAbs < 1 <<< precision) : nearest n = n := by
  have hn : nearestNat n.natAbs = n.natAbs := if_pos h
  rw [nearest, hn, Int.sign_mul_natAbs]

/-! ## Writing -/

/-- How many digits of a number are written. -/
def writtenDigits : Nat := 14

def tenTo (power : Nat) : Nat := Nat.pow 10 power

/-- The digits of a number, one in front of the point, and the power of ten behind them. -/
def scientific (n : Nat) : List Char :=
  let length := (toString n).length
  let rounded := roundQuotient n (tenTo (length - writtenDigits))
  let digits := (toString rounded).toList
  let power := length - 1 + (digits.length - writtenDigits)
  let kept := (digits.reverse.dropWhile (· == '0')).reverse
  let behind := kept.drop 1
  kept.take 1 ++ (if behind.isEmpty then [] else '.' :: behind) ++
    'e' :: '+' :: (toString power).toList

def numberText (n : Int) : String :=
  let size := n.natAbs
  let digits := if size < tenTo writtenDigits then (toString size).toList else scientific size
  String.ofList (if n < 0 then '-' :: digits else digits)

/-! ## Reading -/

/-- The blanks around the text of a number. -/
def isGap (c : Char) : Bool := c == ' ' || (9 ≤ c.toNat && c.toNat ≤ 13)

/-- The value of a hexadecimal digit. -/
def hexDigit? (c : Char) : Option Nat :=
  if Text.isDigit c then some (c.toNat - '0'.toNat)
  else if 'a' ≤ Text.lower c ∧ Text.lower c ≤ 'f' then some ((Text.lower c).toNat - 'a'.toNat + 10)
  else none

/-- The value of hexadecimal digits, of which there is at least one. -/
def hexadecimal? : List Char → Option Nat
  | [] => none
  | digits => (digits.mapM hexDigit?).map (·.foldl (fun n d => 16 * n + d) 0)

/-- Beyond this power of ten there are no numbers. -/
def largestPower : Int := 309

/-- The whole part of `n` times a power of ten, unless that is beyond all numbers. -/
def scaled? (n : Nat) (power : Int) : Option Nat :=
  let length : Int := (toString n).length
  if n = 0 ∨ length + power ≤ 0 then some 0
  else if largestPower < length + power then none
  else some (if 0 ≤ power then n * tenTo power.toNat else n / tenTo (-power).toNat)

/-- The sign in front of a text, which is negative or not, and what follows. -/
def signed : List Char → Bool × List Char
  | '-' :: rest => (true, rest)
  | '+' :: rest => (false, rest)
  | s => (false, s)

/-- The power of ten behind the digits of a number, which may be missing. -/
def power? : List Char → Option Int
  | [] => some 0
  | e :: rest =>
    let (negative, digits) := signed rest
    if Text.lower e = 'e' ∧ digits ≠ [] ∧ digits.all Text.isDigit = true then
      some (if negative then -Text.decimal digits else Text.decimal digits)
    else none

/-- The whole part of a number in decimal digits, with or without a point and a power of ten. -/
def decimal? (s : List Char) : Option Nat :=
  let whole := s.takeWhile Text.isDigit
  let (fraction, rest) :=
    match s.dropWhile Text.isDigit with
    | '.' :: rest => (rest.takeWhile Text.isDigit, rest.dropWhile Text.isDigit)
    | rest => ([], rest)
  if whole = [] ∧ fraction = [] then none
  else (power? rest).bind fun p => scaled? (Text.decimal (whole ++ fraction)) (p - fraction.length)

/-- The whole part of a number without a sign. -/
def unsigned? : List Char → Option Nat
  | '0' :: 'x' :: rest | '0' :: 'X' :: rest => hexadecimal? rest
  | s => decimal? s

/-- The whole part of the number that a text spells. -/
def spelled? (text : String) : Option Int :=
  let s := ((text.toList.dropWhile isGap).reverse.dropWhile isGap).reverse
  let (negative, s) := signed s
  (unsigned? s).map fun n => nearest (if negative then -n else n)

end SymbolIndex.Editor
