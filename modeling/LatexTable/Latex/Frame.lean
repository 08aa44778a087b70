import LatexTable.Latex.Source
import LatexTable.Options
/-! The lines before and after a table that does not run over pages. -/
namespace LatexTable.TableOptions
open Latex

def openingLines (o : TableOptions) : List String :=
  if o.longTable then []
  else if o.wantsFloat then
    (beginning "table" ++ "[htbp]") :: (if o.centering then ["\\centering"] else [])
  else if o.centering then [beginning "center"] else []

def closingLines (o : TableOptions) : List String :=
  if o.longTable then []
  else if o.wantsFloat then
    (o.captionText?.map fun caption => "\\caption" ++ braced caption).toList ++
      (o.labelText?.map fun label => "\\label" ++ braced label).toList ++ [ending "table"]
  else if o.centering then [ending "center"] else []

end LatexTable.TableOptions
