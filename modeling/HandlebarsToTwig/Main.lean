import HandlebarsToTwig.Command.Run

/-! The command line program. -/
namespace HandlebarsToTwig.Command

def usage : Text :=
  ("usage: twigbars [-v] transpile [--json-tree] [-c FILE] [-o FILE] [--title TITLE " ++
    "[--see URL] [--component-version VERSION] [--date DATE] [--author AUTHOR]] INPUT\n" ++
    "       twigbars [-v] parse INPUT\n" ++
    "       twigbars [-v] lex INPUT\n" ++
    "       twigbars --version\n").toList

/-- The words of this program's own readers. -/
def wording : Wording where
  config _ := "the options cannot be read".toList
  json _ := "the nodes cannot be read".toList
  refusal _ := usage
  help _ := usage

/-- The number of a system error, which some operations report negated. -/
def errorNumber (code : UInt32) : UInt32 := min code (0 - code)

def FileFault.ofError (e : IO.Error) : FileFault :=
  match e with
  | .noFileOrDirectory .. => .missing
  | .inappropriateType _ code _ => if errorNumber code = 20 then .notDirectory else .isDirectory
  | .invalidArgument _ code _ =>
    if errorNumber code = 36 then .nameTooLong else .other (toString e).toList
  | e => .other (toString e).toList

def guarded {α : Type} (action : IO α) : IO (Except FileFault α) := do
  try
    pure (.ok (← action))
  catch e => pure (.error (.ofError e))

partial def readAll (stream : IO.FS.Stream) (bytes : ByteArray) : IO ByteArray := do
  let chunk ← stream.read 65536
  if chunk.isEmpty then pure bytes else readAll stream (bytes ++ chunk)

/-- The file system of the machine. -/
def machine : Files IO where
  standardInput := do readAll (← IO.getStdin) .empty
  read path := guarded (IO.FS.readBinFile (String.ofList path))
  write path content := guarded (IO.FS.writeFile (String.ofList path) (String.ofList content))

end HandlebarsToTwig.Command

open HandlebarsToTwig in
def main (arguments : List String) : IO UInt32 := do
  let outcome ← Command.run Command.machine (arguments.map String.toList) Command.wording
  IO.print (String.ofList outcome.printed)
  IO.eprint (String.ofList outcome.complaint)
  pure outcome.exitCode
