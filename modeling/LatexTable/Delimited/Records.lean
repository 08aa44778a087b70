/-!
Records of delimited text. A record ends at a line end and empty lines are skipped; a quote opens
quoting only as the first character of a field, two quotes inside quoting are one, and what follows
a closing quote belongs to the field as it stands.
-/
namespace LatexTable.Delimited

inductive FieldState where
  | recordStart | fieldStart | bare | quoted | quoteSeen
  deriving DecidableEq, Repr

def isLineEnd (c : Char) : Bool := c = '\n' || c = '\r'

/-- The records of a text. `field` holds the characters of the current field and `record` the fields
of the current record, both in reverse. -/
def recordsFrom (delimiter : Char) :
    FieldState → List Char → List String → List Char → List (List String)
  | state, field, record, [] =>
    match state with
    | .recordStart => []
    | _ => [(String.ofList field.reverse :: record).reverse]
  | .quoted, field, record, c :: cs =>
    if c = '"' then recordsFrom delimiter .quoteSeen field record cs
    else recordsFrom delimiter .quoted (c :: field) record cs
  | state, field, record, c :: cs =>
    if isLineEnd c then
      if state = .recordStart then recordsFrom delimiter .recordStart [] [] cs
      else
        (String.ofList field.reverse :: record).reverse ::
          recordsFrom delimiter .recordStart [] [] cs
    else if c = delimiter then
      recordsFrom delimiter .fieldStart [] (String.ofList field.reverse :: record) cs
    else if c = '"' && (state = .recordStart || state = .fieldStart) then
      recordsFrom delimiter .quoted field record cs
    else if c = '"' && state = .quoteSeen then
      recordsFrom delimiter .quoted (c :: field) record cs
    else recordsFrom delimiter .bare (c :: field) record cs

/-- A byte order mark at the beginning is no part of the text. -/
def records (delimiter : Char) (text : String) : List (List String) :=
  match text.toList with
  | [] => []
  | c :: cs => recordsFrom delimiter .recordStart [] [] (if c.toNat = 0xFEFF then cs else c :: cs)

end LatexTable.Delimited
