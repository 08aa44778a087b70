import LatexTable.Document.Yaml.Grammar
import LatexTable.Document.Yaml.Tokens
import LatexTable.Document.Yaml.Values
/-! Reading YAML text: its tokens, their tree, and the values of a shape in it. -/
namespace LatexTable.Yaml

/-- The value of a shape in a text. -/
def read (shape : Shape) (s : String) : Option Node := do
  let tokens ← tokens? s
  let tree ← tree? tokens
  tree.settle? shape

end LatexTable.Yaml
