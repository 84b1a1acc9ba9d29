import HandlebarsToTwig.Text

/-! Readers for configuration files, and what may stand between two values. Lines end in a single
newline character by the time they are read. -/
namespace HandlebarsToTwig.Toml

abbrev Reader (α : Type) := Text → Option (α × Text)

def isGap (c : Char) : Bool := c = ' ' || c = '\t'

def skipGap (s : Text) : Text := s.dropWhile isGap

/-- Characters that may stand in a comment or in a string as they are. -/
def isPlain (c : Char) : Bool := c = '\t' || (0x20 ≤ c.toNat && c.toNat != 0x7F)

/-- Line ends of two characters become one. -/
def unifyLines : Text → Text
  | '\r' :: '\n' :: s => '\n' :: unifyLines s
  | c :: s => c :: unifyLines s
  | [] => []

/-- What follows a comment, if one stands here. -/
def skipComment : Text → Text
  | '#' :: s => s.dropWhile isPlain
  | s => s

/-- The text after the end of the line, where only a comment may come before it. -/
def endLine (s : Text) : Option Text :=
  match skipComment (skipGap s) with
  | [] => some []
  | '\n' :: s => some s
  | _ => none

/-- Skips gaps, line ends and comments inside a list. -/
def skipLines : (inComment : Bool) → Text → Option Text
  | false, [] => some []
  | true, [] => none
  | false, c :: s =>
    if isGap c ∨ c = '\n' then skipLines false s
    else if c = '#' then skipLines true s
    else some (c :: s)
  | true, c :: s =>
    if c = '\n' then skipLines false s
    else if isPlain c then skipLines true s
    else none

end HandlebarsToTwig.Toml
