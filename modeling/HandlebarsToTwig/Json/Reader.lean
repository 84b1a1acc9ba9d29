import HandlebarsToTwig.Json.Fault
import HandlebarsToTwig.Text

/-! Readers that take a value off the front of a JSON text, so that the first fault in reading
order decides. -/
namespace HandlebarsToTwig.Json

abbrev Reader (α : Type) := Text → Except Fault (α × Text)

/-- Characters that may stand between two JSON tokens. -/
def isGap (c : Char) : Bool := c = ' ' || c = '\n' || c = '\t' || c = '\r'

def skipGap (s : Text) : Text := s.dropWhile isGap

/-- Takes `word` off the front of the text. -/
def expect : (word : Text) → Text → Except Fault Text
  | [], s => .ok s
  | _ :: _, [] => .error .cutShort
  | w :: word, c :: s => if w = c then expect word s else .error .malformed

/-- Takes one mark off the front of the text, after a gap. -/
def expectMark (mark : Char) (s : Text) : Except Fault Text := expect [mark] (skipGap s)

/-- Reads a text that holds one value and nothing else. -/
def readWhole {α : Type} (read : Reader α) (s : Text) : Except Fault α := do
  let (a, s) ← read s
  if (skipGap s).isEmpty then pure a else throw .malformed

end HandlebarsToTwig.Json
