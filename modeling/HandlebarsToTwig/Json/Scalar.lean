import HandlebarsToTwig.Json.Numeral
import HandlebarsToTwig.Json.Quoted

/-! Reading single values, and the fault of finding a value of another kind. -/
namespace HandlebarsToTwig.Json

def startsNumeral (c : Char) : Bool := c = '-' || c.isDigit

/-- The rest of a word value after its first letter. -/
def wordTail? : Char → Option Text
  | 'n' => some "ull".toList
  | 't' => some "rue".toList
  | 'f' => some "alse".toList
  | _ => none

/-- A value of an unwanted kind is of the wrong shape, unless it is faulty in itself. Lists and
objects are not looked into. -/
def mismatch : Text → Fault
  | [] => .cutShort
  | c :: s =>
    let checked : Except Fault Text :=
      match wordTail? c with
      | some word => expect word s
      | none =>
        if c = '"' then (Quoted.read s).map Prod.snd
        else if startsNumeral c then (Numeral.read (c :: s)).map Prod.snd
        else if c = '[' ∨ c = '{' then .ok s
        else .error .malformed
    match checked with
    | .ok _ => .wrongShape
    | .error fault => fault

def text : Reader Text := fun s =>
  match skipGap s with
  | '"' :: s => Quoted.read s
  | s => .error (mismatch s)

/-- A string, or `null` for none. -/
def text? : Reader (Option Text) := fun s =>
  match skipGap s with
  | 'n' :: s => (expect "ull".toList s).map (none, ·)
  | s => (text s).map fun (t, s) => (some t, s)

def natural : Reader Nat := fun s =>
  match skipGap s with
  | [] => .error .cutShort
  | c :: s =>
    if startsNumeral c then do
      let (n, s) ← Numeral.read (c :: s)
      match n.natural? with
      | some n => pure (n, s)
      | none => throw .wrongShape
    else .error (mismatch (c :: s))

end HandlebarsToTwig.Json
