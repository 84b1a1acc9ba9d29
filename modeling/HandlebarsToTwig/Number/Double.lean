/-! The range of double precision. -/
namespace HandlebarsToTwig.Double

/-- The nearest number with 53 significant bits, an even one in case of a tie. -/
def round (n : Nat) : Nat :=
  let unit := Nat.pow 2 (n.log2 - 52)
  let q := n / unit
  let r := n % unit
  if unit < 2 * r ∨ (unit = 2 * r ∧ q % 2 = 1) then (q + 1) * unit else q * unit

/-- Numbers from here on round to infinity. -/
def bound : Nat := (Nat.pow 2 54 - 1) * Nat.pow 2 970

/-- Whether `m` times the `e`-th power of ten rounds to infinity. The number of digits settles all
but the powers near the bound. -/
def overflows (m : Nat) (e : Int) : Bool :=
  let digits := (Nat.toDigits 10 m).length
  if m = 0 ∨ digits + e < 300 then false
  else if 320 < digits + e then true
  else
    match e with
    | .ofNat k => bound ≤ m * Nat.pow 10 k
    | .negSucc k => bound * Nat.pow 10 (k + 1) ≤ m

end HandlebarsToTwig.Double
