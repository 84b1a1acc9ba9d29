/-! Classes of characters, given by ascending closed ranges of code points. -/
namespace HandlebarsToTwig.Text

/-- Whether one of the ranges holds the code point `n`. -/
def covers : (ranges : List (Nat × Nat)) → (n : Nat) → Bool
  | [], _ => false
  | (low, high) :: ranges, n => if n < low then false else n ≤ high || covers ranges n

end HandlebarsToTwig.Text
