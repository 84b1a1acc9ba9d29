import HandlebarsToTwig.Json.Scalar

/-! Skipping a value that nobody asked for. It only has to be JSON: strings may hold single
surrogates, numbers may be of any size, and nesting has no limit. -/
namespace HandlebarsToTwig.Json

/-- A list or an object that has been entered. -/
inductive Frame
  | list
  | object
  deriving DecidableEq, Repr

def Frame.closer : Frame → Char
  | list => ']'
  | object => '}'

/-- A word, number or string. -/
def skipScalar : Text → Except Fault Text
  | [] => .error .cutShort
  | c :: s =>
    match wordTail? c with
    | some word => expect word s
    | none =>
      if c = '"' then Quoted.skip s
      else if startsNumeral c then Numeral.skip (c :: s)
      else .error .malformed

/-- What stands before the value of an item: in an object, its key and a colon. -/
def skipKey (frame : Frame) (s : Text) : Except Fault Text :=
  match frame with
  | .list => .ok s
  | .object => do expectMark ':' (← Quoted.skip (← expectMark '"' s))

/-- Where the skipping stands: before a value, behind the opening mark of the innermost frame, or
behind a value. -/
inductive Place
  | before
  | opened
  | behind
  deriving DecidableEq, Repr

/-- Skips up to the end of the outermost value. Every second step consumes a character, so `bound`
steps are enough if there are half as many characters. -/
def skipFrom : (bound : Nat) → Place → List Frame → Text → Except Fault Text
  | 0, _, _, _ => .error .malformed
  | bound + 1, .before, frames, s =>
    match skipGap s with
    | '[' :: s => skipFrom bound .opened (.list :: frames) s
    | '{' :: s => skipFrom bound .opened (.object :: frames) s
    | s => do skipFrom bound .behind frames (← skipScalar s)
  | _ + 1, _, [], s => .ok s
  | bound + 1, place, frame :: frames, s =>
    match skipGap s with
    | [] => .error .cutShort
    | c :: s =>
      if c = frame.closer then skipFrom bound .behind frames s
      else if place = .opened then do
        skipFrom bound .before (frame :: frames) (← skipKey frame (c :: s))
      else if c = ',' then do skipFrom bound .before (frame :: frames) (← skipKey frame s)
      else .error .malformed

def skipValue (s : Text) : Except Fault Text := skipFrom (2 * s.length + 2) .before [] s

end HandlebarsToTwig.Json
