import LatexTable.Document.Node
/-!
The tables of a TOML document while it is read. A table may be named in parts: by headers that open
it or one of its parts, and by dotted names. Nothing may be defined twice, and a table opened by a
header cannot be continued by dotted names or the other way round.
-/
namespace LatexTable.Toml

inductive Item where
  | value (node : Node)
  /-- A table; `implicit` if no header opened it, `dotted` if a dotted name did. -/
  | table (implicit dotted : Bool) (fields : List (String × Item))
  /-- An array of tables, the last of which is still open. -/
  | tables (closed : List (List (String × Item))) (current : List (String × Item))
  deriving Repr

abbrev Fields := List (String × Item)

namespace Item

/-- Puts an item in the place of the one of that name, or behind the others. -/
def set (fields : Fields) (name : String) (item : Item) : Fields :=
  if fields.any (·.1 = name) then
    fields.map fun f => if f.1 = name then (name, item) else f
  else fields ++ [(name, item)]

/-- Changes the table that a path leads to; tables that lack on the way are made. -/
def descend (dotted : Bool) : List String → (Item → Option Item) → Item → Option Item
  | [], change, item => change item
  | name :: path, change, .table implicit wasDotted fields =>
    match (fields.lookup name).getD (.table true dotted []) with
    | .value _ => none
    | .table childImplicit childDotted childFields =>
      if dotted && !childImplicit then none
      else do
        let child ← descend dotted path change (.table childImplicit childDotted childFields)
        return .table implicit wasDotted (set fields name child)
    | .tables closed current => do
      let child ← descend dotted path change (.table false false current)
      match child with
      | .table _ _ current =>
        return .table implicit wasDotted (set fields name (.tables closed current))
      | _ => none
  | _ :: _, _, _ => none

/-- Opens the table of that name in a table. -/
def openTable (name : String) : Item → Option Item
  | .table implicit dotted fields =>
    match fields.lookup name with
    | none => some (.table implicit dotted (set fields name (.table false false [])))
    | some (.table true false childFields) =>
      some (.table implicit dotted (set fields name (.table false false childFields)))
    | some _ => none
  | _ => none

/-- Opens a further table in the array of tables of that name. -/
def openEntry (name : String) : Item → Option Item
  | .table implicit dotted fields =>
    match fields.lookup name with
    | none => some (.table implicit dotted (set fields name (.tables [] [])))
    | some (.tables closed current) =>
      some (.table implicit dotted (set fields name (.tables (closed ++ [current]) [])))
    | some _ => none
  | _ => none

/-- Adds a value to a table that `dottedPath` tells to have been reached by a dotted name. -/
def addValue (dottedPath : Bool) (name : String) (node : Node) : Item → Option Item
  | .table implicit dotted fields =>
    if dotted ≠ dottedPath || fields.any (·.1 = name) then none
    else some (.table implicit dotted (fields ++ [(name, .value node)]))
  | _ => none

/-- The name at the end of a path, and the path before it. -/
def splitPath? (path : List String) : Option (List String × String) :=
  path.getLast?.map fun name => (path.dropLast, name)

/-- Opens what a header names. -/
def openHeader (array : Bool) (path : List String) (root : Item) : Option Item := do
  let (before, name) ← splitPath? path
  root.descend false before (if array then openEntry name else openTable name)

/-- Adds a value under a dotted name in the table of the last header. -/
def addField (header path : List String) (node : Node) (root : Item) : Option Item := do
  let (before, name) ← splitPath? path
  root.descend false header (descend true before (addValue (!before.isEmpty) name node))

mutual

/-- The value of a finished item. -/
def toNode : Item → Node
  | .value node => node
  | .table _ _ fields => .record (fieldNodes fields)
  | .tables closed current => .list (entryNodes closed ++ [.record (fieldNodes current)])

def fieldNodes : List (String × Item) → List (String × Node)
  | [] => []
  | (name, item) :: rest => (name, toNode item) :: fieldNodes rest

def entryNodes : List (List (String × Item)) → List Node
  | [] => []
  | fields :: rest => .record (fieldNodes fields) :: entryNodes rest

end

end Item

/-- The empty document. -/
def root : Item := .table false false []

end LatexTable.Toml
