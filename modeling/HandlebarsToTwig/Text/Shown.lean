import HandlebarsToTwig.Text
import HandlebarsToTwig.Text.Hidden

/-! Text as it is shown between double quotes in listings. -/
namespace HandlebarsToTwig.Text

/-- A character in a listing: short escapes for the usual controls, the code point in braces for
all other characters that would not be visible. -/
def showChar (c : Char) : Text :=
  if c = '\x00' then ['\\', '0']
  else if c = '\t' then ['\\', 't']
  else if c = '\r' then ['\\', 'r']
  else if c = '\n' then ['\\', 'n']
  else if c = '"' ∨ c = '\\' then ['\\', c]
  else if isHidden c then ['\\', 'u', '{'] ++ Nat.toDigits 16 c.toNat ++ ['}']
  else [c]

def shown (s : Text) : Text := '"' :: s.flatMap showChar ++ ['"']

end HandlebarsToTwig.Text
