import LatexTable.Document.Yaml.Token
/-! The tree of a YAML text before it is known what its fields take. -/
namespace LatexTable.Yaml

/-- What may stand before a value. -/
structure Properties where
  anchor : Option String := none
  tag : Option String := none
  deriving DecidableEq, Repr

inductive Tree where
  /-- The value at an anchor, with the number of anchors before the reference. -/
  | reference (name : String) (seen : Nat)
  | scalar (properties : Properties) (style : ScalarStyle) (text : String)
  | list (properties : Properties) (items : List Tree)
  | record (properties : Properties) (fields : List (Tree × Tree))
  deriving Repr

namespace Tree

/-- The value where nothing is written. -/
def absent : Tree := .scalar {} .plain ""

mutual

/-- How many marks the tree takes: one for every scalar and reference, two around every list and
record. -/
def size : Tree → Nat
  | .reference _ _ => 1
  | .scalar _ _ _ => 1
  | .list _ items => sizeOfItems items + 2
  | .record _ fields => sizeOfFields fields + 2

def sizeOfItems : List Tree → Nat
  | [] => 0
  | item :: rest => size item + sizeOfItems rest

def sizeOfFields : List (Tree × Tree) → Nat
  | [] => 0
  | (key, value) :: rest => size key + size value + sizeOfFields rest

end

/-- The tree under the name of its anchor. -/
def named (properties : Properties) (tree : Tree) : List (String × Tree) :=
  match properties.anchor with
  | some name => [(name, tree)]
  | none => []

mutual

/-- The values with an anchor, in the order of the text. -/
def anchored : Tree → List (String × Tree)
  | .reference _ _ => []
  | .scalar properties style text => named properties (.scalar properties style text)
  | .list properties items =>
    named properties (.list properties items) ++ anchoredItems items
  | .record properties fields =>
    named properties (.record properties fields) ++ anchoredFields fields

def anchoredItems : List Tree → List (String × Tree)
  | [] => []
  | item :: rest => anchored item ++ anchoredItems rest

def anchoredFields : List (Tree × Tree) → List (String × Tree)
  | [] => []
  | (key, value) :: rest => anchored key ++ anchored value ++ anchoredFields rest

end

/-- The number of an anchor: how many different names were given before it. -/
def anchorNumber (names : List String) (i : Nat) : Nat := (names.take i).eraseDups.length

/-- The anchor that a name means behind the first `seen` ones: among those with the number of its
latest use, the last one of the text. -/
def target? (anchors : List (String × Tree)) (name : String) (seen : Nat) : Option Tree := do
  let names := anchors.map (·.1)
  let places := List.range names.length
  let use ← (places.filter fun i => i < seen && names[i]? = some name).getLast?
  let target ← (places.filter fun i => anchorNumber names i = anchorNumber names use).getLast?
  (anchors[target]?).map (·.2)

end Tree
end LatexTable.Yaml
