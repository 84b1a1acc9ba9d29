import HandlebarsToTwig.Text.Digit
import HandlebarsToTwig.Toml.Reader

/-! Strings: between single or double quotes, on one line or between three quotes on several. First
the closing quotes are found, then what stands between is decoded. -/
namespace HandlebarsToTwig.Toml.Quoted

/-- The body of a string on one line, up to the closing `quote`. -/
def splitLine (quote : Char) (escapes : Bool) : Text → Option (Text × Text)
  | [] => none
  | c :: s =>
    if c = quote then some ([], s)
    else if escapes ∧ c = '\\' then
      match s with
      | [] => none
      | d :: s => (splitLine quote escapes s).map fun (body, rest) => (c :: d :: body, rest)
    else (splitLine quote escapes s).map fun (body, rest) => (c :: body, rest)

/-- The body of a string on several lines, up to three quotes. The body itself may end in one or two
quotes, so that up to five of them end it. `run` quotes stand right before the text. -/
def splitLines (quote : Char) (escapes : Bool) : (run : Nat) → Text → Option (Text × Text)
  | run, [] => if run < 3 then none else some (List.replicate (run - 3) quote, [])
  | run, c :: s =>
    if c = quote then
      if run = 4 then some ([quote, quote], s) else splitLines quote escapes (run + 1) s
    else if 3 ≤ run then some (List.replicate (run - 3) quote, c :: s)
    else
      let quotes := List.replicate run quote
      if escapes ∧ c = '\\' then
        match s with
        | [] => none
        | d :: s =>
          (splitLines quote escapes 0 s).map fun (body, rest) => (quotes ++ c :: d :: body, rest)
      else (splitLines quote escapes 0 s).map fun (body, rest) => (quotes ++ c :: body, rest)

/-- Where the decoding of a body stands. -/
inductive State
  | plain
  /-- After a backslash. -/
  | escape
  /-- In an escape that lacks `left` hexadecimal digits. -/
  | hex (left code : Nat)
  /-- In the blanks between a backslash and the end of its line. -/
  | folding
  /-- In the blanks and empty lines after that. -/
  | folded
  deriving DecidableEq, Repr

/-- The escapes of one letter. -/
def shortEscapes : List (Char × Char) :=
  [('b', '\x08'), ('f', '\x0c'), ('n', '\n'), ('r', '\r'), ('t', '\t'), ('"', '"'), ('\\', '\\')]

def char? (code : Nat) : Option Char :=
  if code.isValidChar then some (Char.ofNat code) else none

/-- The text that a body with escapes stands for. A body of several lines may hold line ends, and
fold them away after a backslash. -/
def decode (lines : Bool) : State → Text → Option Text
  | .plain, [] | .folded, [] => some []
  | _, [] => none
  | .escape, c :: s =>
    if c = 'u' then decode lines (.hex 4 0) s
    else if c = 'U' then decode lines (.hex 8 0) s
    else if lines ∧ c = '\n' then decode lines .folded s
    else if lines ∧ isGap c then decode lines .folding s
    else do
      let d ← shortEscapes.lookup c
      pure (d :: (← decode lines .plain s))
  | .hex left code, c :: s => do
    let code := code * 16 + (← Text.hexValue? c)
    if left ≤ 1 then pure ((← char? code) :: (← decode lines .plain s))
    else decode lines (.hex (left - 1) code) s
  | .folding, c :: s =>
    if isGap c then decode lines .folding s
    else if c = '\n' then decode lines .folded s
    else none
  | state, c :: s =>
    if state = .folded ∧ (isGap c ∨ c = '\n') then decode lines .folded s
    else if c = '\\' then decode lines .escape s
    else if isPlain c ∨ (lines ∧ c = '\n') then (decode lines .plain s).map (c :: ·)
    else none

/-- A body without escapes stands for itself. -/
def verbatim (lines : Bool) (body : Text) : Option Text :=
  if body.all fun c => isPlain c || (lines && c = '\n') then some body else none

/-- The line end right after the opening quotes does not count. -/
def skipLineEnd : Text → Text
  | '\n' :: s => s
  | s => s

def line : Reader Text
  | '"' :: s => do
    let (body, s) ← splitLine '"' true s
    pure (← decode false .plain body, s)
  | '\'' :: s => do
    let (body, s) ← splitLine '\'' false s
    pure (← verbatim false body, s)
  | _ => none

/-- A string of any kind. -/
def read : Reader Text
  | '"' :: '"' :: '"' :: s => do
    let (body, s) ← splitLines '"' true 0 (skipLineEnd s)
    pure (← decode true .plain body, s)
  | '\'' :: '\'' :: '\'' :: s => do
    let (body, s) ← splitLines '\'' false 0 (skipLineEnd s)
    pure (← verbatim true body, s)
  | s => line s

end HandlebarsToTwig.Toml.Quoted
