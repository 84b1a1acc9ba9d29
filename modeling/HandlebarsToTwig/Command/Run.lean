import HandlebarsToTwig.Command.Arguments
import HandlebarsToTwig.Command.Files
import HandlebarsToTwig.Lexeme.Listing
import HandlebarsToTwig.Node.Json
import HandlebarsToTwig.Options.Toml
import HandlebarsToTwig.Transpile

/-! Running a command: its steps in order, and what it prints. A step that fails ends the command,
and then nothing is printed but the error. What is logged on the way has no effect on a command and
is left out. -/
namespace HandlebarsToTwig.Command

/-- The characters in front of a byte offset. -/
def charsBefore : (offset : Nat) → Text → Text
  | _, [] => []
  | n, c :: s => if n = 0 then [] else c :: charsBefore (n - c.utf8Size) s

/-- The line and the column of a byte offset, both counted from one. -/
def position (source : Text) (offset : Nat) : Nat × Nat :=
  let lines := Text.pieces '\n' (charsBefore offset source)
  (lines.length, (lines.getLast?.getD []).length + 1)

/-- What other libraries put into words: the fault in a configuration file or in JSON, given its
text, and the refusal of a command line or the help that it asks for. -/
structure Wording where
  config : (source : Text) → Text := fun _ => []
  json : (source : Text) → Text := fun _ => []
  refusal : (arguments : List Text) → Text := fun _ => []
  help : (arguments : List Text) → Text := fun _ => []

/-- Why a command fails. -/
inductive Failure
  | configFile (path : Text) (fault : FileFault)
  | config (path source : Text) (error : Error)
  | standardInput (fault : FileFault)
  | inputFile (path : Text) (fault : FileFault)
  | template (path source : Text) (error : Error)
  | tree (source : Text) (error : Error)
  | outputFile (path : Text) (fault : FileFault)
  deriving DecidableEq, Repr

namespace Failure

/-- The parts of an error message, from the outermost context to the cause. -/
def chain (f : Failure) (w : Wording) : List Text :=
  match f with
  | configFile path fault => ["loading config ".toList ++ path, fault.message]
  | config path source error =>
    ("loading config ".toList ++ path) :: error.chain (w.config source)
  | standardInput fault => ["reading stdin".toList, fault.message]
  | inputFile path fault => ["reading ".toList ++ path, fault.message]
  | template path source error =>
    match error with
    | .tag _ offset =>
      let (line, column) := position source offset
      [path ++ ':' :: Error.decimal line ++ ':' :: Error.decimal column, error.message]
    | _ => [error.message]
  | tree source error => error.chain (w.json source)
  | outputFile path fault => ["writing ".toList ++ path, fault.message]

def message (f : Failure) (w : Wording) : Text := ": ".toList.intercalate (f.chain w)

end Failure

/-- What a command shows. The result goes to standard output. -/
structure Outcome where
  exitCode : UInt32
  printed : Text
  /-- The report of the error that ended the command, or of the command line that was refused. It is
  printed on the error stream; lines of a log that may stand in front of it there are no part of
  it. -/
  complaint : Text
  deriving DecidableEq, Repr

section

variable {m : Type → Type} [Monad m]

def readConfig (files : Files m) : Option Text → ExceptT Failure m Options
  | none => pure {}
  | some path => do
    match decoded (← files.read path) with
    | .error fault => throw (.configFile path fault)
    | .ok source =>
      match Options.ofToml source with
      | .error e => throw (.config path source e)
      | .ok options => pure options

def readInput (files : Files m) (path : Text) : ExceptT Failure m Text := do
  if isStandardInput path then
    match decoded (.ok (← files.standardInput)) with
    | .error fault => throw (.standardInput fault)
    | .ok source => pure source
  else
    match decoded (← files.read path) with
    | .error fault => throw (.inputFile path fault)
    | .ok source => pure source

/-- The tree of the input, from template text or from JSON. -/
def readTree (job : Transpilation) (options : Options) (source : Text) :
    Except Failure (List Node) :=
  if job.jsonTree then (Node.listOfJson source).mapError (.tree source)
  else (Node.ofSource source options.maxDepth).mapError (.template job.input source)

/-- The emitted template, with its header if there is one. -/
def produce (job : Transpilation) (options : Options) (source : Text) : Except Failure Text := do
  let body ← (render options (← readTree job options source)).mapError (.tree source)
  pure (match job.header with
    | some header => header.document body
    | none => body)

/-- Carries out a request and gives what is to be printed. -/
def Request.run (files : Files m) : Request → ExceptT Failure m Text
  | .transpile job => do
    let options ← readConfig files job.config
    let source ← readInput files job.input
    let content ← (produce job options source : Except Failure Text)
    match job.output with
    | none => pure (content ++ ['\n'])
    | some path =>
      match ← files.write path content with
      | .ok () => pure []
      | .error fault => throw (.outputFile path fault)
  | .parse input => do
    let source ← readInput files input
    match Node.ofSource source defaultMaxDepth with
    | .ok tree => pure (Node.listToPrettyJson tree ++ ['\n'])
    | .error e => throw (.template input source e)
  | .lex input => do
    let source ← readInput files input
    match Lexeme.ofSource source with
    | .ok ls => pure (Lexeme.listings ls)
    | .error e => throw (.template input source e)

/-- Runs a command line. -/
def run (files : Files m) (arguments : List Text) (wording : Wording := {}) : m Outcome := do
  match Request.ofArguments {} arguments with
  | .error .refused => pure ⟨2, [], wording.refusal arguments⟩
  | .error .help => pure ⟨0, wording.help arguments, []⟩
  | .error .version => pure ⟨0, "twigbars 0.1.0\n".toList, []⟩
  | .ok request =>
    match ← request.run files with
    | .ok printed => pure ⟨0, printed, []⟩
    | .error failure => pure ⟨1, [], "error: ".toList ++ failure.message wording ++ ['\n']⟩

end

end HandlebarsToTwig.Command
