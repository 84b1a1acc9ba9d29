import HandlebarsToTwig.Node.Parse
import HandlebarsToTwig.Render

/-! From template text to template text. -/
namespace HandlebarsToTwig

/-- Parses the template and emits it in the target dialect, both under the same depth limit. -/
def transpile (o : Options) (source : Text) : Except Error Text := do
  render o (← Node.ofSource source o.maxDepth)

end HandlebarsToTwig
