import HandlebarsToTwig.Text.Utf8

/-! The files that a command reads and writes, and how that can fail. -/
namespace HandlebarsToTwig.Command

inductive FileFault
  | missing
  | notDirectory
  | isDirectory
  /-- The path or one of the names in it is too long. -/
  | nameTooLong
  | notUtf8
  | other (message : Text)
  deriving DecidableEq, Repr

def FileFault.message : FileFault → Text
  | missing => "No such file or directory (os error 2)".toList
  | notDirectory => "Not a directory (os error 20)".toList
  | isDirectory => "Is a directory (os error 21)".toList
  | nameTooLong => "File name too long (os error 36)".toList
  | notUtf8 => "stream did not contain valid UTF-8".toList
  | other message => message

/-- What a command can do to its surroundings. -/
structure Files (m : Type → Type) where
  standardInput : m ByteArray
  read : (path : Text) → m (Except FileFault ByteArray)
  write : (path content : Text) → m (Except FileFault Unit)

/-- The text in a file. -/
def decoded (content : Except FileFault ByteArray) : Except FileFault Text := do
  match Text.decode? (← content) with
  | some s => pure s
  | none => throw .notUtf8

/-- Whether a path means standard input: a dash, perhaps with steps that lead nowhere after it. -/
def isStandardInput (path : Text) : Bool :=
  match Text.pieces '/' path with
  | first :: rest => first = ['-'] && rest.all fun piece => piece = [] || piece = ['.']
  | [] => false

end HandlebarsToTwig.Command
