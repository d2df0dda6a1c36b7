/-!
# TOML values

The values of a TOML document, as far as settings tell them apart: no setting is a number with a
fraction or a date, so of these only their presence is kept.

* `Value`: the values.
-/

namespace SymbolIndex.Toml

/-- A value of a TOML document. -/
inductive Value where
  | string (text : String)
  | integer (number : Int)
  | float
  | boolean (b : Bool)
  | dateTime
  | array (items : List Value)
  | table (fields : List (String × Value))
  deriving Inhabited

end SymbolIndex.Toml
