import SymbolIndex.Editor.Number

/-!
# Values of the editor

What the editor passes to a function and gets back from it. Numbers and texts stand for each other
where the other is asked for; nothing else does.

* `Value`: the values;
* `Value.text?`, `Value.word?`, `Value.count?`: values as texts and whole numbers;
* `Value.field`: the fields of tables;
* `Failure`: why a call fails.
-/

namespace SymbolIndex.Editor

/-- A value of the editor. -/
inductive Value where
  | nothing
  | boolean (b : Bool)
  | number (n : Int)
  | text (s : String)
  /-- a table with the keys 1, 2, 3 and so on -/
  | list (items : List Value)
  /-- a table with texts as keys -/
  | table (fields : List (String × Value))
  deriving Inhabited

/-- Why a call fails. -/
inductive Failure where
  | runtime (message : String)
  /-- an argument that is missing or of the wrong type, by its position -/
  | argument (position : Nat)
  /-- a field of an entry that is missing or of the wrong type -/
  | conversion
  deriving DecidableEq, Repr

namespace Value

def ofInt (n : Int) : Value := number (nearest n)

def text? : Value → Option String
  | text s => some s
  | number n => some (numberText n)
  | _ => none

def whole? : Value → Option Int
  | number n => some n
  | text s => spelled? s
  | _ => none

/-- The value as a signed word. The number next to the largest word counts as that word, for which
there is no number. -/
def word? (v : Value) : Option Int64 :=
  v.whole?.bind fun n =>
    if n = Int64.maxValue.toInt + 1 then some Int64.maxValue
    else if Int64.minValue.toInt ≤ n ∧ n ≤ Int64.maxValue.toInt then some (Int64.ofInt n)
    else none

/-- The value as an unsigned word. -/
def count? (v : Value) : Option Nat :=
  v.whole?.bind fun n => if 0 ≤ n ∧ n < UInt64.size then some n.toNat else none

/-- A value that may be nothing. -/
def optional? {α : Type} (f : Value → Option α) : Value → Option (Option α)
  | nothing => some none
  | v => (f v).map some

/-- The field of a table under a key. -/
def field (v : Value) (key : String) : Value :=
  match v with
  | table fields => (fields.lookup key).getD nothing
  | _ => nothing

/-- The value is a table of any sort. -/
def isTable : Value → Bool
  | list _ | table _ => true
  | _ => false

end Value

end SymbolIndex.Editor
