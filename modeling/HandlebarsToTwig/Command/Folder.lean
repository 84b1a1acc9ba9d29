import HandlebarsToTwig.Command.Files

/-! A working folder with files and no other folders in it. -/
namespace HandlebarsToTwig.Command

structure Folder where
  standardInput : ByteArray
  files : List (Text × ByteArray)

namespace Folder

/-- Where a path leads. -/
inductive Spot
  /-- The working folder itself. -/
  | here
  /-- Some other folder, of which no files are known. -/
  | elsewhere
  | file (name : Text) (content : ByteArray)
  /-- A name in the working folder that no file has. -/
  | vacant (name : Text)

/-- How many bytes a name in a path may have. -/
def maxName : Nat := 255

/-- How many bytes a whole path may have. -/
def maxPath : Nat := 4095

/-- Where a name in the working folder leads. -/
def find (f : Folder) (name : Text) : Spot :=
  match f.files.lookup name with
  | some content => .file name content
  | none => .vacant name

/-- One step along a path. -/
def step (f : Folder) : Spot → (piece : Text) → Except FileFault Spot
  | .here, piece =>
    if piece = [] ∨ piece = ['.'] then .ok .here
    else if piece = ['.', '.'] then .ok .elsewhere
    else if maxName < piece.byteSize then .error .nameTooLong
    else .ok (f.find piece)
  | .elsewhere, piece =>
    if piece = [] ∨ piece = ['.'] ∨ piece = ['.', '.'] then .ok .elsewhere
    else if maxName < piece.byteSize then .error .nameTooLong
    else .error .missing
  | .file _ _, _ => .error .notDirectory
  | .vacant _, _ => .error .missing

/-- Goes along a path, step by step. -/
def walk (f : Folder) (path : Text) : Except FileFault Spot :=
  (Text.pieces '/' path).foldlM f.step (if path.head? = some '/' then .elsewhere else .here)

def read (f : Folder) (path : Text) : Except FileFault ByteArray := do
  if maxPath < path.byteSize then throw .nameTooLong
  match ← f.walk path with
  | .file _ content => pure content
  | .vacant _ => throw .missing
  | .here | .elsewhere => throw .isDirectory

/-- Gives a file its content, in place of what it may have. -/
def put (f : Folder) (name : Text) (content : ByteArray) : Folder :=
  { f with files := (name, content) :: f.files.filter (·.1 ≠ name) }

/-- The part of a path that leads to its last name, up to the slash before it. -/
def leading (path : Text) : Text :=
  let stem := path.reverse.dropWhile (· = '/')
  (stem.dropWhile (· ≠ '/')).reverse

/-- Writes a file. A path that ends in a slash can only mean a folder, whatever its last name is. -/
def write (f : Folder) (path content : Text) : Except FileFault Folder := do
  if maxPath < path.byteSize then throw .nameTooLong
  if path.getLast? = some '/' then
    let _ ← f.walk (leading path)
    throw .isDirectory
  match ← f.walk path with
  | .file name _ | .vacant name => pure (f.put name (Text.encode content))
  | .here | .elsewhere => throw .isDirectory

/-- A folder as the surroundings of a command. -/
def surroundings : Files (StateM Folder) where
  standardInput := do pure (← get).standardInput
  read path := do pure ((← get).read path)
  write path content := do
    match (← get).write path content with
    | .ok f => do
      set f
      pure (.ok ())
    | .error fault => pure (.error fault)

end Folder

end HandlebarsToTwig.Command
