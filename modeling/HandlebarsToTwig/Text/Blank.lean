import HandlebarsToTwig.Text
import HandlebarsToTwig.Text.Ranges

/-! Blank characters (the Unicode property `White_Space`) and trimming. -/
namespace HandlebarsToTwig.Text

/-- The code points with the property `White_Space`, as closed ranges in ascending order. -/
def blankRanges : List (Nat × Nat) :=
  [(0x09, 0x0D), (0x20, 0x20), (0x85, 0x85), (0xA0, 0xA0), (0x1680, 0x1680), (0x2000, 0x200A),
   (0x2028, 0x2029), (0x202F, 0x202F), (0x205F, 0x205F), (0x3000, 0x3000)]

def isBlank (c : Char) : Bool := covers blankRanges c.toNat

def trimStart (s : Text) : Text := s.dropWhile isBlank

def trimEnd (s : Text) : Text := (s.reverse.dropWhile isBlank).reverse

def trim (s : Text) : Text := trimEnd (trimStart s)

/-- The first word, and what stands after it without surrounding blanks. -/
def firstWord (s : Text) : Text × Text :=
  (s.takeWhile (!isBlank ·), trim (s.dropWhile (!isBlank ·)))

end HandlebarsToTwig.Text
