/-!
Reading the words behind a command: options with long names and letters, values behind them, and
operands.
-/
namespace LatexTable.CommandLine

/-- Why the words make no request: they are wrong, or they ask about the program itself. -/
inductive Stop where
  | misuse | help | version
  deriving DecidableEq, Repr

/-- What an option takes behind it. -/
inductive Takes where
  | nothing
  | text
  | oneOf (words : List String)
  deriving DecidableEq, Repr

structure OptionSpec where
  name : String
  letter : Option Char := none
  takes : Takes := .nothing
  repeatable : Bool := false
  /-- What an option asks for that makes no request. -/
  stop : Option Stop := none
  deriving DecidableEq, Repr

structure Arguments where
  flags : List String := []
  values : List (String × String) := []
  operands : List String := []
  deriving DecidableEq, Repr

def Takes.accepts (takes : Takes) (value : String) : Bool :=
  match takes with
  | .nothing => false
  | .text => true
  | .oneOf words => words.contains value

namespace Arguments

def addFlag (a : Arguments) (o : OptionSpec) : Except Stop Arguments :=
  match o.stop with
  | some stop => .error stop
  | none =>
    if a.flags.contains o.name && !o.repeatable then .error .misuse
    else .ok { a with flags := a.flags ++ [o.name] }

/-- An option has one value, and it has to be an accepted one. -/
def addValue (a : Arguments) (o : OptionSpec) (value : String) : Except Stop Arguments :=
  if (a.values.lookup o.name).isSome || !o.takes.accepts value then .error .misuse
  else .ok { a with values := a.values ++ [(o.name, value)] }

def addOperand (a : Arguments) (most : Nat) (word : String) : Except Stop Arguments :=
  if a.operands.length < most then .ok { a with operands := a.operands ++ [word] }
  else .error .misuse

end Arguments

/-- Whether a word is read as options; a single dash is an operand. -/
def isOptionWord (word : String) : Bool :=
  match word.toList with
  | '-' :: _ :: _ => true
  | _ => false

/-- The value behind a letter; an equals sign may stand between them. -/
def attachedValue (cs : List Char) : String :=
  match cs with
  | '=' :: rest => String.ofList rest
  | cs => String.ofList cs

/-- Letters behind a dash. The option whose value is still to come is returned too. -/
def readLetters (options : List OptionSpec) (a : Arguments) :
    List Char → Except Stop (Arguments × Option OptionSpec)
  | [] => .ok (a, none)
  | c :: cs =>
    match options.find? (·.letter = some c) with
    | none => .error .misuse
    | some o => do
      if o.takes = .nothing then
        let a ← a.addFlag o
        readLetters options a cs
      else if cs.isEmpty then return (a, some o)
      else
        let a ← a.addValue o (attachedValue cs)
        return (a, none)

/-- A long name behind two dashes, perhaps with an equals sign and a value. -/
def readLong (options : List OptionSpec) (a : Arguments) (cs : List Char) :
    Except Stop (Arguments × Option OptionSpec) :=
  let name := String.ofList (cs.takeWhile (· ≠ '='))
  match options.find? (·.name = name), cs.dropWhile (· ≠ '=') with
  | none, _ => .error .misuse
  | some o, [] =>
    if o.takes = .nothing then (a.addFlag o).map (·, none) else .ok (a, some o)
  | some o, _ :: value => (a.addValue o (String.ofList value)).map (·, none)

def readOption (options : List OptionSpec) (a : Arguments) (word : String) :
    Except Stop (Arguments × Option OptionSpec) :=
  match word.toList with
  | '-' :: '-' :: name => readLong options a name
  | '-' :: letters => readLetters options a letters
  | _ => .error .misuse

/-- Reads words, the first of which is the value of the pending option, if there is one. Behind two
dashes every word is an operand. -/
def readWords (options : List OptionSpec) (most : Nat) :
    Option OptionSpec → Arguments → List String → Except Stop Arguments
  | none, a, [] => .ok a
  | some _, _, [] => .error .misuse
  | some o, a, word :: rest => do
    if isOptionWord word then .error .misuse
    else
      let a ← a.addValue o word
      readWords options most none a rest
  | none, a, word :: rest => do
    if word = "--" then rest.foldlM (fun a word => a.addOperand most word) a
    else if isOptionWord word then
      let (a, pending) ← readOption options a word
      readWords options most pending a rest
    else
      let a ← a.addOperand most word
      readWords options most none a rest

end LatexTable.CommandLine
