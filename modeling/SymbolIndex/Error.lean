import SymbolIndex.OsError

/-!
# Errors

Everything that an operation of the index can report.

* `Error`: the causes;
* `Error.message`: their wording;
* `Error.isTransient`: the ones that are worth another try.
-/

namespace SymbolIndex

/-- Why an operation failed. -/
inductive Error where
  | threadPanic
  | invalidPath (path : String)
  | indexNotOpen (root : String)
  /-- a clause that no word of a query makes -/
  | invalidClause (clause : String)
  /-- an entry that cannot be stored, by its place in the batches -/
  | malformedEntry (batch index : Nat) (reason : String)
  | invalidLocation (raw : String)
  | notStarted
  | timeout
  | dropped
  | interrupted
  | spawnThread (cause : OsError)
  /-- a source of entries that failed -/
  | scanner (source message : String)
  | createDir (cause : OsError)
  | io (cause : OsError)
  | tracingInit (cause : String)
  | config
  | regex
  | ignore
  | envOpen
  | dbCreate
  | dbClearStaleReaders
  | dbStartReadTxn
  | dbStartWriteTxn
  | dbRead
  | dbWrite
  | dbCommit
  deriving DecidableEq, Repr

namespace Error

/-- The wording of the error. Of a settings, pattern or database error it is only the beginning, as
the rest is the wording of whoever found it. -/
def message : Error → String
  | threadPanic => "Thread panicked"
  | invalidPath path => "Invalid path " ++ path
  | indexNotOpen root => "No index is open for " ++ root
  | invalidClause clause => "Invalid clause: " ++ clause
  | malformedEntry batch index reason =>
    "Malformed entry #" ++ toString index ++ " in batch " ++ toString batch ++ ": " ++ reason
  | invalidLocation raw =>
    "Invalid location '" ++ raw ++ "': expected a line number or a delimited line anchor"
  | notStarted => "Execution serializer is not running"
  | timeout => "Timed out waiting for the execution serializer"
  | dropped => "Job was dropped before it ran"
  | interrupted => "Query was interrupted"
  | spawnThread cause => "Failed to spawn execution serializer thread: " ++ cause.text
  | scanner source message => "Source '" ++ source ++ "' failed: " ++ message
  | createDir cause => "Failed to create directory: " ++ cause.text
  | io cause => "I/O error: " ++ cause.text
  | tracingInit cause => "Failed to initialize tracing: " ++ cause
  | config => "Failed to parse config"
  | regex => "Invalid regex"
  | ignore => "Failed to build ignore rules"
  | envOpen => "Failed to open index database env"
  | dbCreate => "Failed to create index database"
  | dbClearStaleReaders => "Failed to clear stale readers for index database"
  | dbStartReadTxn => "Failed to start read transaction for index database"
  | dbStartWriteTxn => "Failed to start write transaction for index database"
  | dbRead => "Failed to read from index database"
  | dbWrite => "Failed to write to index database"
  | dbCommit => "Failed to commit write transaction to index database"

/-- A condition that is worth another try, or that nobody waits for any more. -/
def isTransient : Error → Bool
  | timeout | dropped | interrupted => true
  | _ => false

end Error

end SymbolIndex
