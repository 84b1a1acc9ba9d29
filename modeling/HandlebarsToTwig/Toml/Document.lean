import HandlebarsToTwig.Toml.Statement

/-! Configuration files: the table that their statements add up to. -/
namespace HandlebarsToTwig.Toml

/-- The whole file so far, and the header under which entries now stand. -/
structure Document where
  root : Table := ⟨.declared, []⟩
  current : List Text := []
  deriving Repr

namespace Document

def add (d : Document) : Statement → Option Document
  | .entry k v => do
    let root ← d.root.change false (Table.addEntry k.path k.last v) d.current
    pure { d with root := root }
  | .header k => do
    let root ← d.root.openTable k.path k.last
    pure ⟨root, k.path ++ [k.last]⟩
  | .listHeader k => do
    let root ← d.root.extendList k.path k.last
    pure ⟨root, k.path ++ [k.last]⟩

def ofStatements (statements : List Statement) : Option Document := statements.foldlM add {}

/-- The byte order mark at the start of a file does not count. -/
def skipMark : Text → Text
  | '\uFEFF' :: s => s
  | s => s

end Document

/-- The entries of a configuration file. -/
def read (source : Text) : Option Entries := do
  let s := unifyLines (Document.skipMark source)
  let d ← Document.ofStatements (← statements (s.length + 1) s)
  pure d.root.entries

end HandlebarsToTwig.Toml
