import HandlebarsToTwig.Header
import HandlebarsToTwig.Text

/-! Command lines: what they ask for, and which of them are refused. -/
namespace HandlebarsToTwig.Command

structure Transpilation where
  input : Text
  jsonTree : Bool
  config : Option Text
  output : Option Text
  header : Option Header
  deriving DecidableEq, Repr

inductive Request
  | transpile (job : Transpilation)
  | parse (input : Text)
  | lex (input : Text)
  deriving DecidableEq, Repr

/-- Why a command line asks for no work: it is refused, or wants help or the version. -/
inductive Stop
  | refused
  | help
  | version
  deriving DecidableEq, Repr

/-- Options without a value. -/
inductive Switch
  | verbose
  | jsonTree
  | help
  | version
  deriving DecidableEq, Repr

/-- Options with a value. -/
inductive Setting
  | config
  | output
  | title
  | see
  | componentVersion
  | date
  | author
  deriving DecidableEq, Repr

inductive Flag
  | switch (s : Switch)
  | setting (s : Setting)
  deriving DecidableEq, Repr

/-- The options that are known at some place, by their long and by their short names. -/
structure Vocabulary where
  long : List (Text × Flag)
  short : List (Char × Flag)

namespace Vocabulary

def inputOnly : Vocabulary where
  long := [("verbose".toList, .switch .verbose), ("help".toList, .switch .help)]
  short := [('v', .switch .verbose), ('h', .switch .help)]

/-- Before the name of the command. -/
def general : Vocabulary where
  long := ("version".toList, .switch .version) :: inputOnly.long
  short := ('V', .switch .version) :: inputOnly.short

def transpile : Vocabulary where
  long := inputOnly.long ++
    [("json-tree".toList, .switch .jsonTree), ("config".toList, .setting .config),
      ("output".toList, .setting .output), ("title".toList, .setting .title),
      ("see".toList, .setting .see), ("component-version".toList, .setting .componentVersion),
      ("date".toList, .setting .date), ("author".toList, .setting .author)]
  short := inputOnly.short ++ [('c', .setting .config), ('o', .setting .output)]

end Vocabulary

/-- The options and the input met so far. -/
structure Given where
  switches : List Switch := []
  settings : List (Setting × Text) := []
  input : Option Text := none
  deriving DecidableEq, Repr

namespace Given

/-- Turns a switch on, which can be done once. Help and version end the reading at once. -/
def turnOn (g : Given) (s : Switch) : Except Stop Given :=
  match s with
  | .help => .error .help
  | .version => .error .version
  | s =>
    if s ∈ g.switches then .error .refused else .ok { g with switches := s :: g.switches }

/-- Gives a setting its value, which can be done once. A path is not empty. -/
def set (g : Given) (s : Setting) (value : Text) : Except Stop Given :=
  if (g.settings.lookup s).isSome ∨ (value = [] ∧ (s = .config ∨ s = .output)) then
    .error .refused
  else .ok { g with settings := (s, value) :: g.settings }

/-- Takes the one input, which is a path. -/
def take (g : Given) (input : Text) : Except Stop Given :=
  if g.input.isSome ∨ input = [] then .error .refused else .ok { g with input := some input }

end Given

/-- Reads the letters after a single dash. A setting takes the letters after its own as its value,
less an equals sign in front; without any it is left waiting for the next argument. -/
def cluster (v : Vocabulary) (g : Given) : Text → Except Stop (Given × Option Setting)
  | [] => .ok (g, none)
  | c :: cs => do
    match v.short.lookup c with
    | none => throw .refused
    | some (.switch s) => cluster v (← g.turnOn s) cs
    | some (.setting s) =>
      match cs with
      | [] => pure (g, some s)
      | '=' :: value => pure (← g.set s value, none)
      | value => pure (← g.set s value, none)

/-- Reads a long option, whose value may be attached by an equals sign. -/
def longOption (v : Vocabulary) (g : Given) (body : Text) : Except Stop (Given × Option Setting) :=
  let (name, value) := match Text.cut? ['='] body with
    | some (name, value) => (name, some value)
    | none => (body, none)
  match v.long.lookup name, value with
  | some (.switch s), none => do pure (← g.turnOn s, none)
  | some (.setting s), some value => do pure (← g.set s value, none)
  | some (.setting s), none => .ok (g, some s)
  | _, _ => .error .refused

/-- The options in an argument, or none if it holds no options. -/
def options? (v : Vocabulary) (g : Given) (arg : Text) :
    Option (Except Stop (Given × Option Setting)) :=
  match arg with
  | '-' :: '-' :: body => some (longOption v g body)
  | '-' :: c :: cs => some (cluster v g (c :: cs))
  | _ => none

/-- Whether an argument can be the value of the setting before it. -/
def isValue (arg : Text) : Bool := arg = ['-'] || arg.head? != some '-'

/-- Reads the arguments after the name of a command. -/
def readArguments (v : Vocabulary) : Given → List Text → Except Stop Given
  | g, [] => .ok g
  | g, arg :: args =>
    if arg = ['-', '-'] then args.foldlM Given.take g
    else
      match options? v g arg with
      | none => do readArguments v (← g.take arg) args
      | some (.error stop) => .error stop
      | some (.ok (g, none)) => readArguments v g args
      | some (.ok (g, some s)) =>
        match args with
        | [] => .error .refused
        | value :: args =>
          if isValue value then do readArguments v (← g.set s value) args else .error .refused

def inputOf (g : Given) : Except Stop Text :=
  match g.input with
  | some input => .ok input
  | none => .error .refused

/-- What a transpilation is given. The parts of a header need a title. -/
def transpilationOf (g : Given) : Except Stop Transpilation := do
  let input ← inputOf g
  let get (s : Setting) : Option Text := g.settings.lookup s
  let parts : List Setting := [.see, .componentVersion, .date, .author]
  let header ←
    match get .title with
    | some title =>
      pure (some ⟨title, get .see, get .componentVersion, get .date, get .author⟩)
    | none => if parts.any (fun s => (get s).isSome) then throw .refused else pure none
  pure ⟨input, .jsonTree ∈ g.switches, get .config, get .output, header⟩

/-- Reads a whole command line. -/
def Request.ofArguments : Given → List Text → Except Stop Request
  | _, [] => .error .refused
  | g, arg :: args =>
    match options? .general g arg with
    | some (.error stop) => .error stop
    | some (.ok (g, none)) => ofArguments g args
    | some (.ok (_, some _)) => .error .refused
    | none =>
      if arg = "transpile".toList then do
        pure (.transpile (← transpilationOf (← readArguments .transpile {} args)))
      else if arg = "parse".toList then do
        pure (.parse (← inputOf (← readArguments .inputOnly {} args)))
      else if arg = "lex".toList then do
        pure (.lex (← inputOf (← readArguments .inputOnly {} args)))
      else if arg = "help".toList then .error .help
      else .error .refused

end HandlebarsToTwig.Command
