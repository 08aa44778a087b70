import LatexTable.Document.Format
/-!
Named texts in directories, and documents kept in them. The store holds what stands in and around
one working directory, in which relative paths begin.
-/
namespace LatexTable
open Text

/-- A place is the list of names on the way to it; `..` stands for a directory around the working
directory and `/` for the outermost one. -/
abbrev FilePlace := List String

/-- A path as it is written: the directory that it begins in, the names on it, and whether a slash
ends it. -/
structure FilePath where
  origin : FilePlace := []
  names : List String
  slash : Bool := false
  deriving DecidableEq, Repr

def FilePath.ofText (s : String) : FilePath :=
  let parts := splitAt '/' s.toList
  { origin := if parts.length ≠ 1 && parts.head? = some [] then ["/"] else [],
    names := (parts.filter fun part => !part.isEmpty).map String.ofList,
    slash := parts.length ≠ 1 && parts.getLast? = some [] }

structure FileStore where
  texts : List (FilePlace × String) := []
  deriving DecidableEq, Repr

abbrev FileResult := Except FileFault

namespace FileStore

def text? (s : FileStore) (place : FilePlace) : Option String := s.texts.lookup place

def put (s : FileStore) (place : FilePlace) (text : String) : FileStore :=
  ⟨(place, text) :: s.texts.filter (·.1 ≠ place)⟩

/-- The working directory, those around it, and those on the way to a text exist. -/
def isDirectory (s : FileStore) (place : FilePlace) : Bool :=
  place.all (fun name => name = ".." || name = "/") ||
    s.texts.any fun entry => place.isPrefixOf entry.1 && place ≠ entry.1

/-- One name further. -/
def step (place : FilePlace) (name : String) : FilePlace :=
  if name = "." then place
  else if name = ".." then
    match place.getLast? with
    | none => [".."]
    | some "/" => place
    | some ".." => place ++ [".."]
    | some _ => place.dropLast
  else place ++ [name]

/-- The place to which a path leads when all directories on it exist. -/
def placeOf (path : FilePath) : FilePlace := path.names.foldl step path.origin

/-- The store with the given texts under the paths before them. -/
def ofTexts (texts : List (String × String)) : FileStore :=
  ⟨texts.map fun (path, text) => (placeOf (.ofText path), text)⟩

/-- Goes through directories. -/
def enter (s : FileStore) (place : FilePlace) (name : String) : FileResult FilePlace :=
  let next := step place name
  if s.isDirectory next then .ok next
  else if (s.text? next).isSome then .error .notDirectory
  else .error .notFound

/-- The directory that a path leads through last, and the last name of the path. -/
def locate (s : FileStore) (path : FilePath) : FileResult (FilePlace × String) := do
  match path.names.getLast? with
  | none => if path.origin.isEmpty then .error .notFound else return (path.origin, ".")
  | some last =>
    let directory ← path.names.dropLast.foldlM s.enter path.origin
    return (directory, last)

def read (s : FileStore) (path : FilePath) : FileResult String := do
  let (directory, last) ← s.locate path
  let place := step directory last
  if s.isDirectory place then .error .isDirectory
  else
    match s.text? place with
    | some text => if path.slash then .error .notDirectory else return text
    | none => .error .notFound

/-- Writes a text into a directory that exists. -/
def write (s : FileStore) (path : FilePath) (text : String) : FileResult FileStore := do
  let (directory, last) ← s.locate path
  let place := step directory last
  if path.slash || s.isDirectory place then .error .isDirectory
  else return s.put place text

end FileStore

namespace TableDocument

/-- Reads a document, whose format the path has to name. -/
def loadWith (libraries : DocumentFormat → TextLibrary) (store : FileStore) (path : String) :
    TableResult TableDocument :=
  match DocumentFormat.ofPath? path with
  | none => .error (.invalidDocument (.unknownFormat path))
  | some format =>
    match store.read (.ofText path) with
    | .error fault => .error (.file fault)
    | .ok text => parseWith (libraries format) text

/-- Writes a document. A path that names no format is written as TOML. -/
def saveWith (libraries : DocumentFormat → TextLibrary) (d : TableDocument) (store : FileStore)
    (path : String) : TableResult FileStore := do
  let text ← toTextWith (libraries ((DocumentFormat.ofPath? path).getD .toml)) d
  match store.write (.ofText path) text with
  | .error fault => .error (.file fault)
  | .ok store => .ok store

def load (store : FileStore) (path : String) : TableResult TableDocument :=
  loadWith DocumentFormat.library store path

def save (d : TableDocument) (store : FileStore) (path : String) : TableResult FileStore :=
  saveWith DocumentFormat.library d store path

end TableDocument
end LatexTable
