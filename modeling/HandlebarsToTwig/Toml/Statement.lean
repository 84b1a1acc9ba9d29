import HandlebarsToTwig.Toml.Moment
import HandlebarsToTwig.Toml.Numeral
import HandlebarsToTwig.Toml.Quoted

/-! The statements of a configuration file: entries and headers. -/
namespace HandlebarsToTwig.Toml

/-- Keys may have fewer parts, and values may nest less deep, than this. -/
def nestingBound : Nat := 80

def isBare (c : Char) : Bool := c.isAlphanum || c = '_' || c = '-'

/-- One part of a key. -/
def keyPart : Reader Text := fun s =>
  match s with
  | '"' :: _ => Quoted.line s
  | '\'' :: _ => Quoted.line s
  | _ =>
    let part : Text := s.takeWhile isBare
    if part.isEmpty then none else some (part, s.dropWhile isBare)

/-- The parts of a key, divided by dots; `bound` exceeds their number. -/
def keyParts : (bound : Nat) → Reader (List Text)
  | 0, _ => none
  | bound + 1, s => do
    let (part, s) ← keyPart (skipGap s)
    match skipGap s with
    | '.' :: s =>
      let (parts, s) ← keyParts bound s
      pure (part :: parts, s)
    | s => pure ([part], s)

/-- A key, as the path to its table and its last part. -/
structure Key where
  path : List Text
  last : Text
  deriving DecidableEq, Repr

def key : Reader Key := fun s => do
  let (parts, s) ← keyParts (nestingBound - 1) s
  pure (⟨parts.dropLast, ← parts.getLast?⟩, s)

/-- The items of a list, after its opening mark or a comma; `bound` exceeds their number. -/
def listItems (value : Reader Value) : (bound : Nat) → Reader (List Value)
  | 0, _ => none
  | bound + 1, s => do
    match ← skipLines false s with
    | ']' :: s => pure ([], s)
    | s =>
      let (v, s) ← value s
      match ← skipLines false s with
      | ',' :: s =>
        let (vs, s) ← listItems value bound s
        pure (v :: vs, s)
      | ']' :: s => pure ([v], s)
      | _ => none

def entry (value : Reader Value) : Reader (Key × Value) := fun s => do
  let (k, s) ← key s
  let (v, s) ← value (skipGap (← Text.after? ['='] s))
  pure ((k, v), s)

/-- The entries of a table between braces, up to the closing one; `bound` exceeds their number. -/
def inlineEntries (value : Reader Value) : (bound : Nat) → Reader (List (Key × Value))
  | 0, _ => none
  | bound + 1, s => do
    let (e, s) ← entry value s
    match skipGap s with
    | ',' :: s =>
      let (es, s) ← inlineEntries value bound s
      pure (e :: es, s)
    | '}' :: s => pure ([e], s)
    | _ => none

def inlineTable (value : Reader Value) : Reader Value := fun s => do
  let (entries, s) ←
    match skipGap s with
    | '}' :: s => pure ([], s)
    | s => inlineEntries value s.length s
  let t ← entries.foldlM (fun t (k, v) => t.addEntry k.path k.last v) (⟨.inline, []⟩ : Table)
  pure (t.toValue, s)

/-- A value in which lists and tables nest at most `levels` deep. -/
def value : (levels : Nat) → Reader Value
  | levels, s =>
    match s with
    | [] => none
    | c :: rest =>
      if c = '"' ∨ c = '\'' then (Quoted.read s).map fun (t, s) => (.text t, s)
      else if c = '[' then
        match levels with
        | 0 => none
        | levels + 1 =>
          (listItems (value levels) s.length rest).map fun (vs, s) => (.list false vs, s)
      else if c = '{' then
        match levels with
        | 0 => none
        | levels + 1 => inlineTable (value levels) rest
      else if c = 't' then (Text.after? "true".toList s).map (.boolean, ·)
      else if c = 'f' then (Text.after? "false".toList s).map (.boolean, ·)
      else
        match Moment.read s with
        | some s => some (.moment, s)
        | none => Numeral.read s

inductive Statement
  | entry (key : Key) (value : Value)
  | header (key : Key)
  | listHeader (key : Key)
  deriving Repr

/-- A header, up to its closing mark. -/
def header : Reader Statement := fun s =>
  match s with
  | '[' :: '[' :: s => do
    let (k, s) ← key s
    pure (.listHeader k, ← Text.after? [']', ']'] s)
  | '[' :: s => do
    let (k, s) ← key s
    pure (.header k, ← Text.after? [']'] s)
  | _ => none

def statement : Reader Statement := fun s =>
  match s with
  | '[' :: _ => header s
  | _ => (entry (value (nestingBound - 1)) s).map fun ((k, v), s) => (.entry k v, s)

/-- All statements, each on a line of its own; `bound` exceeds the number of lines. -/
def statements : (bound : Nat) → Text → Option (List Statement)
  | 0, _ => none
  | bound + 1, s =>
    match skipGap s with
    | [] => some []
    | c :: rest =>
      if c = '#' ∨ c = '\n' then do statements bound (← endLine (c :: rest))
      else do
        let (st, s) ← statement (c :: rest)
        pure (st :: (← statements bound (← endLine s)))

end HandlebarsToTwig.Toml
