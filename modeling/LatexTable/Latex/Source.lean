/-! Pieces of LaTeX source. -/
namespace LatexTable.Latex

def braced (s : String) : String := "\x7b" ++ s ++ "\x7d"

def bracketed (s : String) : String := "[" ++ s ++ "]"

def beginning (environment : String) : String := "\\begin" ++ braced environment

def ending (environment : String) : String := "\\end" ++ braced environment

/-- Lines, each with its line end. -/
def unlines (lines : List String) : String := String.join (lines.map (· ++ "\n"))

end LatexTable.Latex
