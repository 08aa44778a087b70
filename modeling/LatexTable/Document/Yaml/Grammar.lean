import LatexTable.Document.Yaml.Tree
/-! The tree that the tokens of a YAML text make. -/
namespace LatexTable.Yaml

/-- What the handles of tags stand for. -/
abbrev Handles := List (String × String)

def defaultHandles : Handles := [("!", "!"), ("!!", "tag:yaml.org,2002:")]

/-- The tag that a handle and a suffix make. A tag without a handle is its suffix. -/
def tag? (handles : Handles) (handle suffix : String) : Option String :=
  if handle.isEmpty then some suffix else (handles.lookup handle).map (· ++ suffix)

/-- The anchor and the tag before a value, in any order. -/
def readProperties (handles : Handles) : List Token → Option (Properties × List Token)
  | .anchor name :: .tag handle suffix :: ts =>
    (tag? handles handle suffix).map fun tag => ({ anchor := some name, tag }, ts)
  | .tag handle suffix :: .anchor name :: ts =>
    (tag? handles handle suffix).map fun tag => ({ anchor := some name, tag }, ts)
  | .anchor name :: ts => some ({ anchor := some name }, ts)
  | .tag handle suffix :: ts => (tag? handles handle suffix).map fun tag => ({ tag }, ts)
  | ts => some ({}, ts)

/-- Whether no value stands before the token in a list below dashes. -/
def endsEntry (indentless : Bool) : List Token → Bool
  | .entry :: _ => true
  | .blockEnd :: _ => true
  | .name :: _ => indentless
  | .value :: _ => indentless
  | _ => false

/-- Whether no name or value of a field stands before the token. -/
def endsField : List Token → Bool
  | .name :: _ => true
  | .value :: _ => true
  | .blockEnd :: _ => true
  | _ => false

/-- Whether no item stands before the token in a list in brackets. -/
def endsItem : List Token → Bool
  | .comma :: _ => true
  | .closeList :: _ => true
  | _ => false

/-- Whether no name or value stands before the token in a record in braces. -/
def endsFlowField : List Token → Bool
  | .comma :: _ => true
  | .closeRecord :: _ => true
  | _ => false

mutual

/-- A value. In a block a list or record may begin; right behind a name or a colon its dashes need
no indentation. -/
def readNode (handles : Handles) : Nat → Bool → Bool → List Token → Option (Tree × List Token)
  | 0, _, _, _ => none
  | _, _, _, .reference name seen :: ts => some (.reference name seen, ts)
  | fuel + 1, block, indentless, ts =>
    match readProperties handles ts with
    | none => none
    | some (properties, rest) =>
      match rest with
      | .scalar style text :: ts => some (.scalar properties style text, ts)
      | .openList :: ts =>
        (readItems handles fuel true ts).map fun (items, ts) => (.list properties items, ts)
      | .openRecord :: ts =>
        (readFlowFields handles fuel true ts).map fun (fields, ts) =>
          (.record properties fields, ts)
      | .listStart :: ts =>
        if block then
          (readEntries handles fuel false ts).map fun (items, ts) => (.list properties items, ts)
        else none
      | .recordStart :: ts =>
        if block then
          (readFields handles fuel ts).map fun (fields, ts) => (.record properties fields, ts)
        else none
      | rest =>
        if indentless && rest.head? = some .entry then
          (readEntries handles fuel true rest).map fun (items, ts) => (.list properties items, ts)
        else if properties = {} then none
        else some (.scalar properties .plain "", rest)

/-- The entries of a list behind dashes. A list without indentation ends where its dashes do. -/
def readEntries (handles : Handles) : Nat → Bool → List Token → Option (List Tree × List Token)
  | 0, _, _ => none
  | fuel + 1, indentless, .entry :: ts => do
    let (item, ts) ←
      if endsEntry indentless ts then some (Tree.absent, ts)
      else readNode handles fuel true false ts
    let (items, ts) ← readEntries handles fuel indentless ts
    return (item :: items, ts)
  | _, true, ts => some ([], ts)
  | _, false, .blockEnd :: ts => some ([], ts)
  | _, false, _ => none

/-- The fields of a record below each other. -/
def readFields (handles : Handles) : Nat → List Token → Option (List (Tree × Tree) × List Token)
  | 0, _ => none
  | fuel + 1, .name :: ts => do
    let (key, ts) ←
      if endsField ts then some (Tree.absent, ts) else readNode handles fuel true true ts
    let (value, ts) ←
      match ts with
      | .value :: ts =>
        if endsField ts then some (Tree.absent, ts) else readNode handles fuel true true ts
      | ts => some (Tree.absent, ts)
    let (fields, ts) ← readFields handles fuel ts
    return ((key, value) :: fields, ts)
  | _, .blockEnd :: ts => some ([], ts)
  | _, _ => none

/-- A value behind a colon between brackets, if there is a colon. -/
def readFlowValue (handles : Handles) : Nat → (List Token → Bool) → List Token →
    Option (Tree × List Token)
  | 0, _, _ => none
  | fuel + 1, ends, .value :: ts =>
    if ends ts then some (Tree.absent, ts) else readNode handles fuel false false ts
  | _, _, ts => some (Tree.absent, ts)

/-- The items of a list in brackets, with commas between them. An item with a name is a record with
one field; where its name is missing, the token in its place is passed over. -/
def readItems (handles : Handles) : Nat → Bool → List Token → Option (List Tree × List Token)
  | 0, _, _ => none
  | _, _, .closeList :: ts => some ([], ts)
  | fuel + 1, first, ts =>
    match first, ts with
    | false, .comma :: .closeList :: ts => some ([], ts)
    | false, .comma :: ts => readItem handles fuel ts
    | false, _ => none
    | true, ts => readItem handles fuel ts

/-- An item and those behind it. -/
def readItem (handles : Handles) : Nat → List Token → Option (List Tree × List Token)
  | 0, _ => none
  | fuel + 1, ts => do
    let (item, ts) ←
      match ts with
      | .name :: ts => do
        let (key, ts) ←
          match ts with
          | .value :: ts => some (Tree.absent, ts)
          | ts =>
            if endsItem ts then some (Tree.absent, ts.drop 1)
            else readNode handles fuel false false ts
        let (value, ts) ← readFlowValue handles fuel endsItem ts
        some (.record {} [(key, value)], ts)
      | ts => readNode handles fuel false false ts
    let (items, ts) ← readItems handles fuel false ts
    return (item :: items, ts)

/-- The fields of a record in braces, with commas between them. -/
def readFlowFields (handles : Handles) : Nat → Bool → List Token →
    Option (List (Tree × Tree) × List Token)
  | 0, _, _ => none
  | _, _, .closeRecord :: ts => some ([], ts)
  | fuel + 1, first, ts =>
    match first, ts with
    | false, .comma :: .closeRecord :: ts => some ([], ts)
    | false, .comma :: ts => readFlowField handles fuel ts
    | false, _ => none
    | true, ts => readFlowField handles fuel ts

/-- A field and those behind it. Without a mark for its name it has no value. -/
def readFlowField (handles : Handles) : Nat → List Token → Option (List (Tree × Tree) × List Token)
  | 0, _ => none
  | fuel + 1, ts => do
    let (field, ts) ←
      match ts with
      | .name :: ts => do
        let (key, ts) ←
          match ts with
          | .value :: _ => some (Tree.absent, ts)
          | ts =>
            if endsFlowField ts then some (Tree.absent, ts)
            else readNode handles fuel false false ts
        let (value, ts) ← readFlowValue handles fuel endsFlowField ts
        some ((key, value), ts)
      | ts => do
        let (key, ts) ← readNode handles fuel false false ts
        some ((key, Tree.absent), ts)
    let (fields, ts) ← readFlowFields handles fuel false ts
    return (field :: fields, ts)

end

/-- The handles that the directives before a document give. A directive stands only once, and the
version has to be known. -/
def readDirectives : Bool → Handles → List Token → Option (Handles × List Token)
  | hasVersion, handles, .version major minor :: ts =>
    if hasVersion || major ≠ 1 || (minor ≠ 1 && minor ≠ 2) then none
    else readDirectives true handles ts
  | hasVersion, handles, .handle name lead :: ts =>
    if handles.any (·.1 = name) then none
    else readDirectives hasVersion (handles ++ [(name, lead)]) ts
  | _, handles, ts => some (handles, ts)

/-- Whether no value stands before the token in a document. -/
def endsDocument : List Token → Bool
  | [] => true
  | .version _ _ :: _ => true
  | .handle _ _ :: _ => true
  | .documentStart :: _ => true
  | .documentEnd :: _ => true
  | _ => false

/-- Whether the tokens have to begin with the mark of a document. -/
def beginsMarked : List Token → Bool
  | .version _ _ :: _ => true
  | .handle _ _ :: _ => true
  | .documentStart :: _ => true
  | _ => false

/-- Every step of the grammar takes a token or goes from one rule to the next. -/
def grammarFuel (ts : List Token) : Nat := 4 * ts.length + 4

/-- The only document of a text. -/
def readDocument (ts : List Token) : Option (Tree × List Token) :=
  if beginsMarked ts then do
    let (handles, ts) ← readDirectives false [] ts
    match ts with
    | .documentStart :: ts =>
      if endsDocument ts then some (Tree.absent, ts)
      else readNode (handles ++ defaultHandles) (grammarFuel ts) true false ts
    | _ => none
  else if ts.isEmpty then some (Tree.absent, [])
  else readNode defaultHandles (grammarFuel ts) true false ts

/-- The tree of a text; every reference needs an anchor before it. -/
def tree? (ts : List Token) : Option Tree := do
  let (tree, rest) ← readDocument ts
  let names := ts.filterMap fun
    | .anchor name => some name
    | _ => none
  let isKnown := ts.all fun
    | .reference name seen => (names.take seen).contains name
    | _ => true
  if isKnown && rest.all (· = .documentEnd) then some tree else none

end LatexTable.Yaml
