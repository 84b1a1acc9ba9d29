import HandlebarsToTwig.Number.Double
import HandlebarsToTwig.Text.Digit
import HandlebarsToTwig.Toml.Reader
import HandlebarsToTwig.Toml.Value

/-! Integers and floats. -/
namespace HandlebarsToTwig.Toml.Numeral

/-- A row of digits with single underscores between them; the underscores are left out. With
`needed`, a digit must come next. -/
def digits (base : Nat) : (needed : Bool) → Text → Option (Text × Text)
  | true, [] => none
  | false, [] => some ([], [])
  | needed, c :: s =>
    if Text.isDigit base c then
      (digits base false s).map fun (ds, rest) => (c :: ds, rest)
    else if needed then none
    else if c = '_' then digits base true s
    else some ([], c :: s)

/-- A sign, if there is one: whether it is a minus, and the text after it. -/
def sign : Text → Bool × Text
  | '-' :: s => (true, s)
  | '+' :: s => (false, s)
  | s => (false, s)

/-- A decimal whole number; a zero is its only digit. -/
def whole (s : Text) : Option (Bool × Text × Text) :=
  match sign s with
  | (negative, '0' :: s) => some (negative, ['0'], s)
  | (negative, s) => (digits 10 true s).map fun (ds, rest) => (negative, ds, rest)

def exponent : Text → Option (Int × Text)
  | [] => none
  | c :: s =>
    if c = 'e' ∨ c = 'E' then
      let (negative, s) := sign s
      (digits 10 true s).map fun (ds, rest) =>
        (if negative then -(Text.value 10 ds : Int) else Text.value 10 ds, rest)
    else none

/-- A float between the infinities. -/
def finite (s : Text) : Option Text := do
  let (negative, ds, s) ← whole s
  let (fraction, e, s) ←
    match s with
    | '.' :: s => do
      let (fraction, s) ← digits 10 true s
      match s with
      | [] => pure (fraction, 0, [])
      | c :: _ =>
        if c = 'e' ∨ c = 'E' then do
          let (e, s) ← exponent s
          pure (fraction, e, s)
        else pure (fraction, 0, s)
    | s => do
      let (e, s) ← exponent s
      pure ([], e, s)
  if !negative ∧ Double.overflows (Text.value 10 (ds ++ fraction)) (e - fraction.length) then none
  else pure s

def special (s : Text) : Option Text :=
  let s := (sign s).2
  (Text.after? "inf".toList s).or (Text.after? "nan".toList s)

/-- An integer of 64 bits. -/
def integer (s : Text) : Option (Int × Text) := do
  let (n, s) ←
    match s with
    | '0' :: 'x' :: s => (digits 16 true s).map fun (ds, s) => ((Text.value 16 ds : Int), s)
    | '0' :: 'o' :: s => (digits 8 true s).map fun (ds, s) => ((Text.value 8 ds : Int), s)
    | '0' :: 'b' :: s => (digits 2 true s).map fun (ds, s) => ((Text.value 2 ds : Int), s)
    | s => (whole s).map fun (negative, ds, s) =>
      (if negative then -(Text.value 10 ds : Int) else Text.value 10 ds, s)
  if -9223372036854775808 ≤ n ∧ n ≤ 9223372036854775807 then pure (n, s) else none

def read (s : Text) : Option (Value × Text) :=
  match (finite s).or (special s) with
  | some s => some (.float, s)
  | none => (integer s).map fun (n, s) => (.integer n, s)

end HandlebarsToTwig.Toml.Numeral
