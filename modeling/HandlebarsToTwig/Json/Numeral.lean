import HandlebarsToTwig.Json.Reader
import HandlebarsToTwig.Number.Double
import HandlebarsToTwig.Text.Digit

/-! Numbers: their grammar, the naturals among them, and which are too large to be read. -/
namespace HandlebarsToTwig.Json

structure Numeral where
  negative : Bool
  whole : Text
  fraction : Option Text
  exponent : Option Int
  deriving DecidableEq, Repr

namespace Numeral

/-- One digit or more. A text that ends where a digit is needed has the fault `atEnd`. -/
def digits (atEnd : Fault) (s : Text) : Except Fault (Text × Text) :=
  match s.takeWhile Char.isDigit, s.dropWhile Char.isDigit with
  | [], [] => .error atEnd
  | [], _ :: _ => .error .malformed
  | ds, rest => .ok (ds, rest)

def fractionPart (atEnd : Fault) : Text → Except Fault (Option Text × Text)
  | '.' :: s => (digits atEnd s).map fun (ds, s) => (some ds, s)
  | s => .ok (none, s)

def exponentPart (atEnd : Fault) (s : Text) : Except Fault (Option Int × Text) :=
  match s with
  | [] => .ok (none, s)
  | mark :: rest =>
    if mark = 'e' ∨ mark = 'E' then
      match rest with
      | '-' :: rest => (digits atEnd rest).map fun (ds, s) => (some (-(Text.value 10 ds : Int)), s)
      | '+' :: rest => (digits atEnd rest).map fun (ds, s) => (some (Text.value 10 ds : Int), s)
      | rest => (digits atEnd rest).map fun (ds, s) => (some (Text.value 10 ds : Int), s)
    else .ok (none, s)

/-- The numeral at the front of the text. -/
def scan (atEnd : Fault) (s : Text) : Except Fault (Numeral × Text) := do
  let negative := s.head? == some '-'
  let (whole, s) ← digits atEnd (if negative then s.tail else s)
  if whole.head? == some '0' && whole.length != 1 then throw .malformed
  let (fraction, s) ← fractionPart atEnd s
  let (exponent, s) ← exponentPart atEnd s
  pure (⟨negative, whole, fraction, exponent⟩, s)

/-- The first natural number that no longer fits a machine word of 64 bits. -/
def wordBound : Nat := Nat.pow 2 64

/-- Appends digits to a significand as long as it stays within a word; gives the digits left. -/
def absorb : Nat → Text → Nat × Text
  | n, [] => (n, [])
  | n, d :: ds =>
    let m := n * 10 + (Text.hexValue? d).getD 0
    if m < wordBound then absorb m ds else (n, d :: ds)

/-- The significand of at most one word, and the power of ten that goes with it. -/
def parts (n : Numeral) : Nat × Int :=
  let (significand, dropped) := absorb 0 n.whole
  let fraction := n.fraction.getD []
  let (significand, ignored) := absorb significand fraction
  (significand, dropped.length - (fraction.length - ignored.length : Nat) + n.exponent.getD 0)

/-- Whether the value is within double precision, computed as the rounded significand times the
rounded power of ten. -/
def inRange (n : Numeral) : Bool :=
  match n.parts with
  | (_, .negSucc _) => true
  | (significand, .ofNat e) =>
    significand == 0 || (e ≤ 308 && Double.round significand * Double.round (Nat.pow 10 e) < Double.bound)

/-- A numeral whose value is wanted. -/
def read (s : Text) : Except Fault (Numeral × Text) := do
  let (n, s) ← scan .cutShort s
  if n.inRange then pure (n, s) else throw .malformed

/-- A numeral whose value does not matter: it may be of any size. -/
def skip (s : Text) : Except Fault Text := (scan .malformed s).map Prod.snd

/-- The value of a natural number of one word, written without sign, fraction and exponent. -/
def natural? (n : Numeral) : Option Nat :=
  if n.negative ∨ n.fraction.isSome ∨ n.exponent.isSome ∨ wordBound ≤ Text.value 10 n.whole then none
  else some (Text.value 10 n.whole)

end Numeral

end HandlebarsToTwig.Json
