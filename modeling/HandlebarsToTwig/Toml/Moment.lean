import HandlebarsToTwig.Text.Digit
import HandlebarsToTwig.Toml.Reader

/-! Dates and times of day. Only their form and their ranges matter. -/
namespace HandlebarsToTwig.Toml.Moment

/-- A number of exactly `width` digits between `low` and `high`. -/
def field (width low high : Nat) : Reader Nat := fun s =>
  let digits : Text := s.take width
  let n := Text.value 10 digits
  if digits.length = width ∧ digits.all (Text.isDigit 10) ∧ low ≤ n ∧ n ≤ high then
    some (n, s.drop width)
  else none

def mark (c : Char) (s : Text) : Option Text := Text.after? [c] s

def isLeap (year : Nat) : Bool := year % 4 = 0 && (year % 100 != 0 || year % 400 = 0)

def daysIn (year month : Nat) : Nat :=
  if month = 2 then if isLeap year then 29 else 28
  else if month ∈ [4, 6, 9, 11] then 30
  else 31

def date (s : Text) : Option Text := do
  let (year, s) ← field 4 0 9999 s
  let (month, s) ← field 2 1 12 (← mark '-' s)
  let (_, s) ← field 2 1 (daysIn year month) (← mark '-' s)
  pure s

/-- The fraction of a second, if there is one. -/
def skipFraction (s : Text) : Text :=
  match s with
  | '.' :: d :: rest => if Text.isDigit 10 d then rest.dropWhile (Text.isDigit 10) else s
  | _ => s

def time (s : Text) : Option Text := do
  let (_, s) ← field 2 0 23 s
  let (_, s) ← field 2 0 59 (← mark ':' s)
  let (_, s) ← field 2 0 60 (← mark ':' s)
  pure (skipFraction s)

/-- The distance from universal time. -/
def zone : Text → Option Text
  | [] => none
  | c :: s =>
    if c = 'Z' ∨ c = 'z' then some s
    else if c = '+' ∨ c = '-' then do
      let (_, s) ← field 2 0 23 s
      let (_, s) ← field 2 0 59 (← mark ':' s)
      pure s
    else none

/-- A time of day after a date, if there is one. -/
def skipTime (s : Text) : Text :=
  match s with
  | [] => []
  | c :: rest =>
    if c = 'T' ∨ c = 't' ∨ c = ' ' then
      match time rest with
      | some rest => (zone rest).getD rest
      | none => s
    else s

/-- The text after a date, a date with a time, or a time. -/
def read (s : Text) : Option Text :=
  match date s with
  | some s => some (skipTime s)
  | none => time s

end HandlebarsToTwig.Toml.Moment
