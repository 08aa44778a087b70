import LatexTable.CommandLine.Run
/-! The program: it reads the input of its request and delivers the response. -/
namespace LatexTable
open CommandLine

/-- Why the system refused to read a file. -/
def faultOfError : IO.Error → FileFault
  | .noFileOrDirectory .. => .notFound
  | .inappropriateType .. => .isDirectory
  | e => .other (toString e)

def readFile (path : String) : IO (FileResult String) := do
  try
    let text ← IO.FS.readFile path
    return .ok text
  catch e => return .error (faultOfError e)

def readInput : Input → IO (FileResult String)
  | .nothing => return .ok ""
  | .stream => do
    let stdin ← IO.getStdin
    let text ← stdin.readToEnd
    return .ok text
  | .file path => readFile path

def deliver (r : Response) : IO UInt32 := do
  match r.file with
  | none => IO.print r.output
  | some path => IO.FS.writeFile path r.output
  return r.exitCode.toUInt32

def answer (words : List String) : IO UInt32 := do
  match Request.ofWords words with
  | .error stop => deliver stop.response
  | .ok request =>
    let input ← readInput request.input
    match request.respond input with
    | .ok response => deliver response
    | .error e =>
      IO.eprintln e.message
      return 1

end LatexTable

def main (words : List String) : IO UInt32 := do
  try LatexTable.answer words
  catch e =>
    IO.eprintln e
    return 1
