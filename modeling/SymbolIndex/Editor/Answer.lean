import SymbolIndex.Editor.Request
import SymbolIndex.Editor.Session
import SymbolIndex.Editor.Tables

/-!
# Answers to the editor

What a session answers to the requests of the editor, as values of the editor.

* `startLog`: the file of the log;
* `Session.answer`: the answer to a request;
* `Session.call?`: the answer to the call of a function.
-/

namespace SymbolIndex.Editor

def version : String := "0.1.0"

/-- Make the directory of a log file, which has to have a name. Directories seen from the one that
the editor works in are there. -/
def startLog (files : FileTree) (path : String) : Except Error FileTree :=
  match Path.fileName? path.toList, Path.parent? path.toList with
  | some _, some directory =>
    if Path.isAbsolute directory then
      (files.makeDirectories (String.ofList directory)).mapError .createDir
    else .ok files
  | _, _ => .error (.invalidPath path)

/-- The layout of a name; what is no text means the usual one. -/
def layoutOf : Value → Layout
  | .text name => Layout.ofName name
  | _ => .columns

/-- Report an error as a failure, and anything else as a value. -/
def reported {α : Type} (f : α → Value) (r : Except Error α) : Except Failure Value :=
  match r with
  | .ok a => .ok (f a)
  | .error e => .error (.ofError e)

def pollAnswer (layout : Layout) : Poll → Except Failure Value
  | .superseded => .ok (.boolean false)
  | .pending => .ok .nothing
  | .ready r => reported (entryTables layout) r

namespace Session

def answer (s : Session) : Request → Except Failure Value × Session
  | .startLog path =>
    match startLog s.disk.files path with
    | .error e => (.error (.ofError (.tracingInit e.message)), s)
    | .ok files => (.ok (.text path), { s with disk := { s.disk with files } })
  | .openIndex path =>
    let (r, s) := s.openIndex path
    (reported .boolean r, s)
  | .closeIndex path =>
    let (r, s) := s.closeIndex path
    (reported .boolean r, s)
  | .search path text limit =>
    let (r, s) := s.search path text limit
    (reported (fun (layout, entries) => entryTables layout entries) r, s)
  | .fetch path text limit =>
    let (r, s) := s.fetch path text limit
    (reported (fun ticket => .ofInt ticket) r, s)
  | .poll path ticket =>
    let (r, s) := s.poll path ticket
    ((r.mapError .ofError).bind fun (layout, p) => pollAnswer layout p, s)
  | .interrupt path =>
    let (r, s) := s.interrupt path
    (reported (fun _ => .boolean true) r, s)
  | .update path =>
    let (r, s) := s.update path
    (reported (summaryTable s.seconds) r, s)
  | .kinds path =>
    let (r, s) := s.withIndex path Index.kinds
    (reported (fun kinds => .list (kinds.map .text)) r, s)
  | .kindCounts path =>
    let (r, s) := s.withIndex path Index.kindCounts
    (reported (fun counts => .list (counts.map fun (kind, n) => kindCountTable kind n)) r, s)
  | .size path =>
    let (r, s) := s.withIndex path Index.length
    (reported (fun n => .ofInt n) r, s)
  | .completions path text limit =>
    let files := s.disk.files
    let (r, s) := s.withIndex path fun i =>
      let (r, j) := i.search text limit
      (r.map (i.completions files), j)
    (reported (fun cs => .list (cs.map completionTable)) r, s)
  | .queryOptions text =>
    (.ok (.list ((Query.optionValues (Query.parse .full text)).map .text)), s)
  | .renderQuery text => (.ok (.text (Query.render (Query.parse .full text))), s)
  | .formatMatch entry layout =>
    ((entryOf entry).map fun e => .text ((layoutOf layout).render e), s)
  | .openCommand command entry =>
    ((entryOf entry).map fun e => .text (SymbolIndex.openCommand command e), s)
  | .preview path entry =>
    match s.find path with
    | .error e => (.error (.ofError e), s)
    | .ok (_, i) => ((entryOf entry).map fun e => .text (i.preview s.disk.files e), s)
  | .health =>
    let (healths, s) := s.healths
    (.ok (.table [("version", .text version),
      ("indexes", .list (healths.map fun (root, counts, r) => healthTable root counts r))]), s)
  | .cleanup => (.ok (.boolean true), s.cleanup)

/-- The answer to the call of a function, if there is one of that name. -/
def call? (s : Session) (name : String) (arguments : List Value) :
    Option (Except Failure Value × Session) :=
  (Request.ofCall? name arguments).map fun
    | .error e => (.error e, s)
    | .ok request => s.answer request

end Session

end SymbolIndex.Editor
