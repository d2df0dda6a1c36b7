import SymbolIndex.Entry

/-!
# The order of results

Results come by falling priority, then by rising length of the name, then by falling subpriority,
and then by name, kind and length of the file, all rising. Lengths count characters, and texts are
ordered character by character.

* `Entry.rank`: the comparison;
* `ranked`: entries in result order, where entries that compare equal keep their order.
-/

namespace SymbolIndex

/-- Where the first entry comes relative to the second: `lt` is in front of it. -/
def Entry.rank (a b : Entry) : Ordering :=
  (compare b.priority.toInt a.priority.toInt).then <|
    (compare a.nameLength b.nameLength).then <|
    (compare b.subpriority.toInt a.subpriority.toInt).then <|
    (compare a.name b.name).then <|
    (compare a.kind b.kind).then <|
    compare a.fileLength b.fileLength

/-- The first entry may stand in front of the second. -/
def Entry.notAfter (a b : Entry) : Bool := a.rank b != .gt

/-- Entries in result order. -/
def ranked (entries : List Entry) : List Entry := entries.mergeSort Entry.notAfter

end SymbolIndex
