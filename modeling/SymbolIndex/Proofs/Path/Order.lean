import Mathlib.Data.List.Lex
import Mathlib.Data.Prod.Lex
import Mathlib.Data.String.Basic
import SymbolIndex.Proofs.Path.Below

/-!
# The order of paths

Paths are compared step by step from the left, and not character by character: everything below a
directory comes before what has a longer name in its place.

* `Component.key`, `Precedes`: the order of steps and of paths;
* `precedes_pathBelow`: files below a directory are ordered as the names that lead to them.
-/

namespace SymbolIndex.Path

/-- The place of a step among all others: the root, `.` and `..`, and then the names in the order of
their characters. -/
def Component.key : Component → ℕ ×ₗ List Char
  | root => toLex (0, [])
  | current => toLex (1, [])
  | parent => toLex (2, [])
  | normal name => toLex (3, name)

/-- The first path comes before the second: their steps are compared from the left. -/
def Precedes (path other : String) : Prop :=
  (components path.toList).map Component.key < (components other.toList).map Component.key

instance : Std.Irrefl Precedes := ⟨fun path => lt_irrefl ((components path.toList).map _)⟩

instance : Std.Antisymm Precedes := ⟨fun _ _ h h' => absurd h' (lt_asymm h)⟩

theorem key_normal_lt {name name' : String} (h : name < name') :
    (Component.normal name.toList).key < (Component.normal name'.toList).key :=
  Prod.Lex.toLex_lt_toLex.mpr (.inr ⟨rfl, String.lt_iff_toList_lt.mp h⟩)

/-- **Files below a directory are ordered as the names that lead to them.** -/
theorem precedes_pathBelow (root : String) {names names' : List String}
    (hnames : ∀ name ∈ names, IsName name.toList) (hnames' : ∀ name ∈ names', IsName name.toList)
    (h : names < names') : Precedes (pathBelow root names) (pathBelow root names') := by
  rw [Precedes, components_pathBelow root hnames, components_pathBelow root hnames',
    List.map_append, List.map_append]
  refine List.append_left_lt ?_
  rw [stepsOf, stepsOf, List.map_map, List.map_map]
  exact List.map_lt (fun _ _ => key_normal_lt) h

end SymbolIndex.Path
