/-!
The tree of values between a document and its text. Every text format is read into it and written
from it.
-/
namespace LatexTable

inductive Node where
  /-- No value. -/
  | null
  | flag (value : Bool)
  /-- A whole number that is not negative. -/
  | number (value : Nat)
  | text (value : String)
  /-- A value that no field of a document takes: a negative number or a fraction. -/
  | foreign
  /-- A value that cannot be read, such as half of a surrogate pair. It harms only who reads it. -/
  | unreadable
  | list (items : List Node)
  | record (fields : List (String × Node))
  deriving Repr

namespace Node

mutual

/-- Whether the whole tree can be read. -/
def isReadable : Node → Bool
  | .unreadable => false
  | .list items => areReadable items
  | .record fields => fieldsReadable fields
  | .null | .flag _ | .number _ | .text _ | .foreign => true

def areReadable : List Node → Bool
  | [] => true
  | item :: rest => isReadable item && areReadable rest

def fieldsReadable : List (String × Node) → Bool
  | [] => true
  | (_, value) :: rest => isReadable value && fieldsReadable rest

end

mutual

/-- How many lists and records stand inside each other. -/
def nesting : Node → Nat
  | .list items => nestingOfItems items + 1
  | .record fields => nestingOfFields fields + 1
  | .null | .flag _ | .number _ | .text _ | .foreign | .unreadable => 0

def nestingOfItems : List Node → Nat
  | [] => 0
  | item :: rest => max (nesting item) (nestingOfItems rest)

def nestingOfFields : List (String × Node) → Nat
  | [] => 0
  | (_, value) :: rest => max (nesting value) (nestingOfFields rest)

end

mutual

/-- Whether two trees are the same. -/
def same : Node → Node → Bool
  | .null, .null | .foreign, .foreign | .unreadable, .unreadable => true
  | .flag a, .flag b => a = b
  | .number a, .number b => a = b
  | .text a, .text b => a = b
  | .list as, .list bs => sameItems as bs
  | .record as, .record bs => sameFields as bs
  | _, _ => false

def sameItems : List Node → List Node → Bool
  | [], [] => true
  | a :: as, b :: bs => same a b && sameItems as bs
  | _, _ => false

def sameFields : List (String × Node) → List (String × Node) → Bool
  | [], [] => true
  | (name, a) :: as, (other, b) :: bs => name = other && same a b && sameFields as bs
  | _, _ => false

end

mutual

theorem same_iff (a b : Node) : same a b = true ↔ a = b := by
  cases a with
  | list as =>
    cases b with
    | list bs => simp [same, sameItems_iff as bs]
    | _ => simp [same]
  | record as =>
    cases b with
    | record bs => simp [same, sameFields_iff as bs]
    | _ => simp [same]
  | _ => cases b <;> simp [same]

theorem sameItems_iff (as bs : List Node) : sameItems as bs = true ↔ as = bs := by
  cases as with
  | nil => cases bs <;> simp [sameItems]
  | cons a as =>
    cases bs with
    | nil => simp [sameItems]
    | cons b bs => simp [sameItems, same_iff a b, sameItems_iff as bs]

theorem sameFields_iff (as bs : List (String × Node)) : sameFields as bs = true ↔ as = bs := by
  cases as with
  | nil => cases bs <;> simp [sameFields]
  | cons a as =>
    obtain ⟨name, a⟩ := a
    cases bs with
    | nil => simp [sameFields]
    | cons b bs =>
      obtain ⟨other, b⟩ := b
      simp [sameFields, same_iff a b, sameFields_iff as bs]

end

instance : DecidableEq Node := fun a b => decidable_of_iff _ (same_iff a b)

end Node
end LatexTable
