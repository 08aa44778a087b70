import LatexTable.Document.Scalar
import LatexTable.Document.Shape
import LatexTable.Document.Yaml.Tree
/-!
How a YAML tree settles into a shape. The shape tells what a scalar without quotes is. A reference
is followed only where the shape looks, so a value may refer to itself where nobody reads it; how
often references are followed is limited by the size of the tree.
-/
namespace LatexTable.Yaml

/-- A tag that names a type of its own instead of one that YAML knows. -/
def ownTag? (tag : String) : Option String :=
  match tag.toList with
  | '!' :: name => some (String.ofList name)
  | _ => none

def nullTag : String := "tag:yaml.org,2002:null"

def flagTag : String := "tag:yaml.org,2002:bool"

def wholeTag : String := "tag:yaml.org,2002:int"

def fractionTag : String := "tag:yaml.org,2002:float"

/-- Whether a scalar may stand for a value of the type that the tag names. -/
def isOpen (typeTag : String) (tag : Option String) (style : ScalarStyle) : Bool :=
  style = .plain || (style = .block && tag = some typeTag)

def isNull (s : String) : Bool := s.isEmpty || Scalar.isNullWord s

/-- Whether a scalar without quotes says that an optional value is missing, `none` if its tag says
so and its text does not. -/
def isMissing (tag : Option String) (s : String) : Option Bool :=
  if tag = some nullTag then (if Scalar.isNullWord s then some true else none)
  else some (tag.isNone && isNull s)

/-- The value of a scalar whose field is not known. -/
def scalarNode (tag : Option String) (style : ScalarStyle) (s : String) : Node :=
  match tag with
  | none => if style = .plain then Scalar.resolve s else .text s
  | some tag =>
    if (ownTag? tag).isSome then .unreadable
    else if tag = flagTag then ((Scalar.flag? s).map Node.flag).getD .unreadable
    else if tag = wholeTag then (Scalar.whole? s).getD .unreadable
    else if tag = fractionTag then (if Scalar.isFraction s then .foreign else .unreadable)
    else if tag = nullTag then (if Scalar.isNullWord s then .null else .unreadable)
    else .text s

/-- Reading with a number of references that may still be followed. -/
abbrev Reading (α : Type) := StateT Nat Option α

/-- The value of a tree, behind its reference if it is one. -/
def follow (anchors : List (String × Tree)) : Tree → Reading Tree
  | .reference name seen => do
    let left ← get
    match left, Tree.target? anchors name seen with
    | left + 1, some tree => do
      set left
      return tree
    | _, _ => failure
  | tree => return tree

/-- The name of a field: any scalar. -/
def fieldName (anchors : List (String × Tree)) (key : Tree) : Reading String := do
  match ← follow anchors key with
  | .scalar _ _ s => return s
  | _ => failure

/-- What a name stands for that is read before its field is known. A number stands for the word at
its place in the choice. -/
def nameOf (choice : List String) : Node → String
  | .text s => s
  | .number n => (choice[n]?).getD ""
  | _ => ""

/-- The value of a tree whose field is not known, of limited depth. -/
def wholeValue (anchors : List (String × Tree)) (choice : List String) :
    Nat → Tree → Reading Node
  | 0, tree => do
    match ← follow anchors tree with
    | .scalar properties style s =>
      let node := scalarNode properties.tag style s
      if node.isReadable then return node else failure
    | _ => failure
  | depth + 1, tree => do
    match ← follow anchors tree with
    | .scalar properties style s =>
      let node := scalarNode properties.tag style s
      if node.isReadable then return node else failure
    | .list properties items =>
      if (properties.tag.bind ownTag?).isSome then failure
      else return .list (← items.mapM (wholeValue anchors choice depth))
    | .record properties fields =>
      if (properties.tag.bind ownTag?).isSome then failure
      else
        let fields ← fields.mapM fun (key, value) => do
          let key ← wholeValue anchors choice depth key
          let value ← wholeValue anchors choice depth value
          return (nameOf choice key, value)
        return .record fields
    | .reference _ _ => failure

/-- How deep the parts of an entry may be nested. -/
def maxNesting : Nat := 125

/-- The word of a scalar: its tag, if it has no value, or its text. -/
def wordNode (tag : Option String) (style : ScalarStyle) (s : String) : Option Node :=
  match tag.bind ownTag? with
  | some word => if style = .plain && isNull s then some (.text word) else none
  | none => some (.text s)

mutual

def settle (anchors : List (String × Tree)) : Shape → Tree → Reading Node
  | .text, tree => do
    match ← follow anchors tree with
    | .scalar _ _ s => return .text s
    | _ => failure
  | .flag, tree => do
    match ← follow anchors tree with
    | .scalar properties style s =>
      match Scalar.flag? s with
      | some b => if isOpen flagTag properties.tag style then return .flag b else failure
      | none => failure
    | _ => failure
  | .number, tree => do
    match ← follow anchors tree with
    | .scalar properties style s =>
      match Scalar.number? s with
      | some n => if isOpen wholeTag properties.tag style then return .number n else failure
      | none => failure
    | _ => failure
  | .word _, tree => do
    match ← follow anchors tree with
    | .scalar properties style s => liftM (wordNode properties.tag style s)
    | _ => failure
  | .optional shape, tree => do
    match ← follow anchors tree with
    | .scalar properties .plain s =>
      if ← liftM (isMissing properties.tag s) then return .null
      else settle anchors shape (.scalar properties .plain s)
    | tree => settle anchors shape tree
  | .list shape, tree => do
    match ← follow anchors tree with
    | .list _ items => return .list (← items.mapM (settle anchors shape))
    | .scalar _ .plain "" => return .list []
    | _ => failure
  | .record shapes, tree => do
    match ← follow anchors tree with
    | .record _ fields =>
      let fields ← fields.mapM fun (key, value) => return (← fieldName anchors key, value)
      return .record (← settleFields anchors shapes fields)
    | .scalar _ .plain "" => return .record []
    | _ => failure
  | .entry own parts, tree => do
    match ← follow anchors tree with
    | .record _ fields =>
      let fields ← fields.mapM fun (key, value) => return (← fieldName anchors key, value)
      let ownFields ← settleFields anchors own fields
      let isOwn (field : String × Tree) : Bool := own.any (·.1 = field.1)
      let others ← (fields.filter (!isOwn ·)).mapM fun (name, value) => do
        let choice := ((parts.lookup name).map Shape.choice).getD []
        return (name, ← wholeValue anchors choice maxNesting value)
      let partFields ← liftM (Shape.settleFields .parts parts others)
      return .record (ownFields ++ partFields)
    | _ => failure

/-- The fields that the shapes name. -/
def settleFields (anchors : List (String × Tree)) : List (String × Shape) → List (String × Tree) →
    Reading (List (String × Node))
  | [], _ => return []
  | (name, shape) :: shapes, fields => do
    let settled ← settleFields anchors shapes fields
    match fields.filter (·.1 = name) with
    | [] => return settled
    | [(_, tree)] => return (name, ← settle anchors shape tree) :: settled
    | _ => failure

end

/-- How often references may be followed, for every mark of the text. -/
def referencesPerMark : Nat := 100

/-- The tree in the shape. -/
def Tree.settle? (shape : Shape) (tree : Tree) : Option Node :=
  ((settle tree.anchored shape tree).run (referencesPerMark * tree.size)).map (·.1)

end LatexTable.Yaml
