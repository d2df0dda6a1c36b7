import SymbolIndex.Plan.Predicate
import SymbolIndex.Plan.Ranking

/-!
# Running a plan

A plan runs over rows in store order. A row is an entry or an error of reading it. The run can be
interrupted: it looks at its token before every 256th row that it handles, the first among them, and
once more at the end.

* `Probe`: what the token reads once so many rows have been fetched;
* `Plan.scan`: the accepted entries, and how many rows were fetched for them;
* `Plan.execute`: the accepted entries in result order, cut to a limit.
-/

namespace SymbolIndex

/-- What a job's token reads during a scan, by the number of rows that have been fetched. -/
def Probe : Type := Nat → Bool

namespace Probe

/-- A token that is never interrupted. -/
def never : Probe := fun _ => false

/-- A token that reads the same throughout. -/
def constant (interrupted : Bool) : Probe := fun _ => interrupted

/-- A token that is interrupted when the row of this number, from 0 on, is fetched. -/
def fromRow (row : Nat) : Probe := fun fetched => row < fetched

end Probe

/-- How many rows are handled between two looks at the token. -/
def checkInterval : Nat := 256

/-- How a scan ended, and how many rows were fetched before. -/
structure Scan where
  outcome : Except Error (List Entry)
  fetched : Nat

namespace Plan

/-- Go on with a scan behind the first `fetched` rows, whose accepted entries are `found` in reverse
order. -/
def scanFrom (plan : Plan) (probe : Probe) (fetched : Nat) (found : List Entry) :
    List (Except Error Entry) → Scan
  | [] => if probe fetched then ⟨.error .interrupted, fetched⟩ else ⟨.ok found.reverse, fetched⟩
  | row :: rows =>
    if fetched % checkInterval = 0 ∧ probe (fetched + 1) = true then
      ⟨.error .interrupted, fetched + 1⟩
    else
      match row with
      | .error e => ⟨.error e, fetched + 1⟩
      | .ok e => scanFrom plan probe (fetched + 1) (if plan.accepts e then e :: found else found) rows

/-- The accepted entries of the rows, in row order. -/
def scan (plan : Plan) (probe : Probe) (rows : List (Except Error Entry)) : Scan :=
  scanFrom plan probe 0 [] rows

end Plan

/-- At most the first `limit` elements; no limit and a limit of zero cut nothing. -/
def cutTo (limit : Option Nat) (entries : List Entry) : List Entry :=
  match limit with
  | none | some 0 => entries
  | some n => entries.take n

/-- The accepted entries of the rows in result order, cut to the limit. -/
def Plan.execute (plan : Plan) (rows : List (Except Error Entry)) (limit : Option Nat)
    (probe : Probe) : Except Error (List Entry) :=
  (plan.scan probe rows).outcome.map fun found => cutTo limit (ranked found)

end SymbolIndex
