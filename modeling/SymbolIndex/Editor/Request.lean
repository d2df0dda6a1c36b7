import SymbolIndex.Editor.Value

/-!
# Requests of the editor

The functions that the editor can call, with their arguments. Arguments are looked at from left to
right before anything else happens; those that are left over are passed over.

* `Request`: the calls;
* `Request.ofCall?`: the call of a function by its name.
-/

namespace SymbolIndex.Editor

/-- What the editor asks for. Tables of entries are looked into later. -/
inductive Request where
  /-- write the log to a file -/
  | startLog (path : String)
  | openIndex (path : String)
  | closeIndex (path : String)
  | search (path text : String) (limit : Option Nat)
  | fetch (path text : String) (limit : Option Nat)
  | poll (path : String) (ticket : Nat)
  | interrupt (path : String)
  | update (path : String)
  | kinds (path : String)
  | kindCounts (path : String)
  | size (path : String)
  | completions (path text : String) (limit : Option Nat)
  /-- the option words of a query -/
  | queryOptions (text : String)
  /-- a query as it is shown -/
  | renderQuery (text : String)
  /-- the line of an entry in a layout -/
  | formatMatch (entry layout : Value)
  | openCommand (command : String) (entry : Value)
  | preview (path : String) (entry : Value)
  | health
  | cleanup

/-- The argument at a position, from 1 on. -/
def argument (arguments : List Value) (position : Nat) : Value :=
  arguments.getD (position - 1) .nothing

/-- The argument at a position as something else. -/
def argumentAs {α : Type} (f : Value → Option α) (arguments : List Value) (position : Nat) :
    Except Failure α :=
  match f (argument arguments position) with
  | some a => .ok a
  | none => .error (.argument position)

/-- The argument at a position, which has to be a text. -/
def textArgument (arguments : List Value) (position : Nat) : Except Failure String :=
  argumentAs Value.text? arguments position

/-- The argument at a position, which has to be a table. -/
def tableArgument (arguments : List Value) (position : Nat) : Except Failure Value :=
  argumentAs (fun v => if v.isTable then some v else none) arguments position

/-- A path, a text and a limit that may be missing. -/
def queryArguments (f : String → String → Option Nat → Request) (arguments : List Value) :
    Except Failure Request := do
  return f (← textArgument arguments 1) (← textArgument arguments 2)
    (← argumentAs (Value.optional? Value.count?) arguments 3)

/-- The call of a function by its name; there may be no such function. -/
def Request.ofCall? (name : String) (arguments : List Value) : Option (Except Failure Request) :=
  let first := textArgument arguments 1
  match name with
  | "init_tracing" => some do
    let path ← first
    let _ ← argumentAs (Value.optional? Value.text?) arguments 2
    return startLog path
  | "open_index" => some (first.map openIndex)
  | "close_index" => some (first.map closeIndex)
  | "get_matches" => some (queryArguments search arguments)
  | "fetch_matches" => some (queryArguments fetch arguments)
  | "poll_matches" => some do
    return poll (← first) (← argumentAs Value.count? arguments 2)
  | "interrupt" => some (first.map interrupt)
  | "update_index" => some (first.map update)
  | "get_types" => some (first.map kinds)
  | "get_stats" => some (first.map kindCounts)
  | "get_size" => some (first.map size)
  | "get_completions" => some (queryArguments completions arguments)
  | "query_options" => some (first.map queryOptions)
  | "render_query" => some (first.map renderQuery)
  | "format_match" => some do
    return formatMatch (← tableArgument arguments 1) (argument arguments 2)
  | "open_command" => some do
    return openCommand (← first) (← tableArgument arguments 2)
  | "preview" => some do
    return preview (← first) (← tableArgument arguments 2)
  | "health_check" => some (.ok health)
  | "cleanup" => some (.ok cleanup)
  | _ => none

end SymbolIndex.Editor
