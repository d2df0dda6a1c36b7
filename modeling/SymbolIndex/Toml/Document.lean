import SymbolIndex.Toml.Scalar

/-!
# TOML documents

A document is a list of lines: keys with values, and headers that say to which table the keys below
them belong. Dotted keys and headers make the tables that they lead through, and no table may be
made twice.

* `Item`, `Table`: what a document has made so far, and how each table came about;
* `Table.update`: the table with a change where a path of keys leads;
* `value`: values, with the values in them;
* `Document`, `Document.addKey`, `Document.openTable`, `Document.openArray`: the lines;
* `parse`: the table of a whole document.
-/

namespace SymbolIndex.Toml

/-! ## Tables in the making -/

/-- What a key of a table stands for. -/
inductive Item where
  | value (v : Value)
  /-- a table; `implicit` if no header has made it, `dotted` if dotted keys have -/
  | table (implicit dotted : Bool) (fields : List (String × Item))
  /-- the tables that headers in double brackets have made -/
  | tables (tables : List (List (String × Item)))

/-- A table and how it came about. -/
structure Table where
  implicit : Bool := false
  dotted : Bool := false
  fields : List (String × Item) := []

def Table.item (t : Table) : Item := .table t.implicit t.dotted t.fields

/-- The fields with another item under a key. -/
def setField (key : String) (item : Item) (fields : List (String × Item)) :
    List (String × Item) :=
  if fields.any (·.1 == key) then
    fields.map fun field => if field.1 == key then (key, item) else field
  else fields ++ [(key, item)]

namespace Table

/-- The table with a change where the path leads, in the last table of a list of tables. Tables that
are not there are made. Dotted keys lead through no table that has been made otherwise. -/
def update (dotted : Bool) : List String → (Table → Option Table) → Table → Option Table
  | [], change, t => change t
  | key :: path, change, t =>
    match t.fields.lookup key with
    | none =>
      (update dotted path change { implicit := true, dotted }).map fun inner =>
        { t with fields := t.fields ++ [(key, inner.item)] }
    | some (.value _) => none
    | some (.table implicit wasDotted fields) =>
      if dotted = true ∧ implicit = false then none
      else
        (update dotted path change ⟨implicit, wasDotted, fields⟩).map fun inner =>
          { t with fields := setField key inner.item t.fields }
    | some (.tables tables) =>
      match tables.reverse with
      | [] => none
      | last :: before =>
        (update dotted path change { fields := last }).map fun inner =>
          { t with fields := setField key (.tables (before.reverse ++ [inner.fields])) t.fields }

def addKey (path : List String) (key : String) (v : Value) (t : Table) : Option Table :=
  t.update true path fun inner =>
    if inner.dotted = path.isEmpty then none
    else if inner.fields.any (·.1 == key) then none
    else some { inner with fields := inner.fields ++ [(key, .value v)] }

end Table

mutual

def Item.toValue : Item → Value
  | .value v => v
  | .table _ _ fields => Value.table (fieldValues fields)
  | .tables tables => Value.array (tableValues tables)

def fieldValues : List (String × Item) → List (String × Value)
  | [] => []
  | (key, item) :: fields => (key, item.toValue) :: fieldValues fields

def tableValues : List (List (String × Item)) → List Value
  | [] => []
  | fields :: tables => .table (fieldValues fields) :: tableValues tables

end

/-! ## Keys and values -/

/-- Take the blanks of a line. -/
def spaces : Reader Unit := do
  let _ ← Reader.many isSpace

/-- A character of a key without quotes. -/
def isBare (c : Char) : Bool := c.isAlphanum || c == '_' || c == '-'

def simpleKey : Reader String := do
  let name ← firstOf [basicString, literalString, do
    let name ← Reader.many isBare
    Reader.require (!name.isEmpty)
    return name]
  return String.ofList name

/-- Keys with dots between them. -/
def dottedKeys : Nat → Reader (List String)
  | 0 => failure
  | fuel + 1 => do
    spaces
    let key ← simpleKey
    spaces
    if (← Reader.peek) = some '.' then
      Reader.char '.'
      return key :: (← dottedKeys fuel)
    else return [key]

/-- A path of keys: the way to a table, and the key in it. -/
def keyPath : Reader (List String × String) := do
  let keys ← dottedKeys ((← Reader.rest).length + 1)
  match keys.reverse with
  | [] => failure
  | key :: path => return (path.reverse, key)

/-- Take a comment, if there is one. -/
def comment : Reader Unit := do
  if (← Reader.peek) = some '#' then
    let _ ← Reader.many isPlain

def lineEnd : Reader Unit := fun input =>
  let rest := dropLineEnd input
  if rest.length < input.length then some ((), rest) else none

/-- Take blanks, line ends and comments. -/
def gap : Nat → Reader Unit
  | 0 => pure ()
  | fuel + 1 => do
    spaces
    comment
    match ← Reader.optional lineEnd with
    | some _ => gap fuel
    | none => pure ()

/-- How deep values may be nested. -/
def maxDepth : Nat := 80

mutual

/-- A value, with the values in it. -/
def value : Nat → Nat → Reader Value
  | 0, _ => failure
  | fuel + 1, depth => do
    let next ← Reader.peek
    if next = some '[' then
      Reader.require (depth + 1 < maxDepth)
      Reader.char '['
      return .array (← arrayItems fuel (depth + 1))
    else if next = some '\x7b' then
      Reader.require (depth + 1 < maxDepth)
      Reader.char '\x7b'
      spaces
      if (← Reader.peek) = some '\x7d' then
        Reader.char '\x7d'
        return .table []
      else
        let t ← inlineFields fuel (depth + 1) {}
        return t.item.toValue
    else scalar

/-- The items of an array, up to its end. -/
def arrayItems : Nat → Nat → Reader (List Value)
  | 0, _ => failure
  | fuel + 1, depth => do
    gap ((← Reader.rest).length)
    if (← Reader.peek) = some ']' then
      Reader.char ']'
      return []
    else
      let v ← value fuel depth
      gap ((← Reader.rest).length)
      if (← Reader.peek) = some ',' then
        Reader.char ','
        return v :: (← arrayItems fuel depth)
      else
        Reader.char ']'
        return [v]

/-- The fields of a table on one line, up to its end. -/
def inlineFields : Nat → Nat → Table → Reader Table
  | 0, _, _ => failure
  | fuel + 1, depth, t => do
    let (path, key) ← keyPath
    Reader.char '='
    spaces
    let v ← value fuel depth
    spaces
    match t.addKey path key v with
    | none => failure
    | some t =>
      if (← Reader.peek) = some ',' then
        Reader.char ','
        inlineFields fuel depth t
      else
        Reader.char '\x7d'
        return t

end

/-! ## Lines -/

/-- A document up to some line: the tables so far, and the one to which keys are added. -/
structure Document where
  root : Table := {}
  current : Table := {}
  path : List String := []
  inArray : Bool := false

namespace Document

/-- The path of the table above, and the key of the table in it. -/
def splitPath (path : List String) : Option (List String × String) :=
  match path.reverse with
  | [] => none
  | key :: above => some (above.reverse, key)

/-- The tables with the current one put in its place. -/
def close (d : Document) : Option Table :=
  match splitPath d.path with
  | none => some d.current
  | some (above, key) =>
    d.root.update false above fun parent =>
      if d.inArray then
        match (parent.fields.lookup key).getD (.tables []) with
        | .tables tables =>
          some { parent with
            fields := setField key (.tables (tables ++ [d.current.fields])) parent.fields }
        | _ => none
      else some { parent with fields := setField key d.current.item parent.fields }

/-- The document with a new key in the current table. -/
def addKey (d : Document) (path : List String) (key : String) (v : Value) : Option Document :=
  (d.current.addKey path key v).map fun current => { d with current }

/-- The document from the header of a table on. A table that other headers lead through may still be
made; one that is there may not. -/
def openTable (d : Document) (path : List String) (key : String) : Option Document := do
  let root ← d.close
  let parent ← root.update false path some
  let inner ← lookupTable parent path
  match inner.lookup key with
  | none => return { root := parent, current := {}, path := path ++ [key] }
  | some (.table true false fields) =>
    return { root := parent, current := { fields }, path := path ++ [key] }
  | some _ => none
where
  /-- The fields of the table where the path leads. -/
  lookupTable : Table → List String → Option (List (String × Item))
    | t, [] => some t.fields
    | t, key :: path =>
      match t.fields.lookup key with
      | some (.table implicit dotted fields) => lookupTable ⟨implicit, dotted, fields⟩ path
      | some (.tables tables) => tables.getLast?.bind fun fields => lookupTable { fields } path
      | _ => none

/-- The document from the header of one more table of a list on. -/
def openArray (d : Document) (path : List String) (key : String) : Option Document := do
  let root ← d.close
  let root ← root.update false path fun parent =>
    match parent.fields.lookup key with
    | none => some { parent with fields := parent.fields ++ [(key, .tables [])] }
    | some (.tables _) => some parent
    | some _ => none
  return { root, current := {}, path := path ++ [key], inArray := true }

end Document

/-- Take the rest of a line that says nothing more. -/
def lineRest : Reader Unit := do
  spaces
  comment
  match ← Reader.peek with
  | none => pure ()
  | some _ => lineEnd

def header (d : Document) : Reader Document := do
  Reader.char '['
  if (← Reader.peek) = some '[' then
    Reader.char '['
    let (path, key) ← keyPath
    Reader.text [']', ']']
    fun input => (d.openArray path key).map (·, input)
  else
    let (path, key) ← keyPath
    Reader.char ']'
    fun input => (d.openTable path key).map (·, input)

def keyValue (d : Document) : Reader Document := do
  let (path, key) ← keyPath
  Reader.char '='
  spaces
  let v ← value ((← Reader.rest).length + 1) 0
  fun input => (d.addKey path key v).map (·, input)

/-- Take all lines. -/
def documentLines : Nat → Document → Reader Document
  | 0, _ => failure
  | fuel + 1, d => do
    spaces
    match ← Reader.peek with
    | none => return d
    | some c =>
      let d ←
        if c = '#' ∨ c = '\n' ∨ c = '\r' then pure d
        else if c = '[' then header d
        else keyValue d
      lineRest
      documentLines fuel d

/-- The table of a document; a byte order mark in front of it does not count. -/
def parse (text : String) : Option Value := do
  let input := match text.toList with
    | '\uFEFF' :: rest => rest
    | input => input
  let (d, _) ← documentLines (input.length + 1) {} input
  let root ← d.close
  return root.item.toValue

end SymbolIndex.Toml
