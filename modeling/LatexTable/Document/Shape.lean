import LatexTable.Document.Node
/-!
The shapes of the values that a document takes, and how a tree settles into a shape. What a shape
does not name is passed over, a field that it names may stand only once, and every field of a
settled tree stands under its name, in the order of the shape. A settled tree settles into itself.
-/
namespace LatexTable

inductive Shape where
  | text
  | flag
  | number
  /-- A word out of a choice. -/
  | word (choice : List String)
  /-- A value that may be missing. -/
  | optional (value : Shape)
  | list (item : Shape)
  | record (fields : List (String × Shape))
  /-- A record whose parts are looked up among all the fields that are not its own. -/
  | entry (own parts : List (String × Shape))

/-- What the text formats write in different ways. -/
structure Conventions where
  /-- A word may be the only name of a record, with such a value. -/
  isNoValue : Node → Bool
  /-- Whether a list that gives the fields of a record by position may be longer than the record. -/
  surplus : Bool := false
  /-- How deep a part of an entry may be nested. -/
  maxNesting : Option Nat := none

/-- The conventions for the parts of an entry, which are read before their shape is known. -/
def Conventions.parts : Conventions where
  isNoValue
    | .null => true
    | .record [] => true
    | _ => false

namespace Shape

/-- The words that a value of this shape may be. -/
def choice : Shape → List String
  | .word choice => choice
  | .optional value => choice value
  | _ => []

mutual

def settle (c : Conventions) : Shape → Node → Option Node
  | .text, .text s => some (.text s)
  | .flag, .flag b => some (.flag b)
  | .number, .number n => some (.number n)
  | .word _, .text s => some (.text s)
  | .word _, .record [(s, value)] => if c.isNoValue value then some (.text s) else none
  | .optional _, .null => some .null
  | .optional value, node => settle c value node
  | .list item, .list items => (items.mapM (settle c item)).map .list
  | .record shapes, .record fields => (settleFields c shapes fields).map .record
  | .record shapes, .list items =>
    if items.length ≤ shapes.length || c.surplus then
      (settleFields c shapes ((shapes.map (·.1)).zip items)).map .record
    else none
  | .entry own parts, .record fields =>
    let isShallow := c.maxNesting.all fun limit => Node.nestingOfFields fields ≤ limit
    if Node.fieldsReadable fields && isShallow then do
      let ownFields ← settleFields c own fields
      let partFields ← settleFields .parts parts fields
      return .record (ownFields ++ partFields)
    else none
  | _, _ => none

/-- The fields that the shapes name. -/
def settleFields (c : Conventions) : List (String × Shape) → List (String × Node) →
    Option (List (String × Node))
  | [], _ => some []
  | (name, shape) :: shapes, fields => do
    let settled ← settleFields c shapes fields
    match fields.filter (·.1 = name) with
    | [] => return settled
    | [(_, node)] => return (name, ← settle c shape node) :: settled
    | _ => none

end

end Shape
end LatexTable
