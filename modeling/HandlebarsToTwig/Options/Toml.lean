import HandlebarsToTwig.Error
import HandlebarsToTwig.Options.Overlay
import HandlebarsToTwig.Text.Utf8
import HandlebarsToTwig.Toml.Document

/-! Options from a configuration file. -/
namespace HandlebarsToTwig
open Toml

def Toml.Value.text? : Value → Option Text
  | .text s => some s
  | _ => none

def Toml.Value.natural? : Value → Option Nat
  | .integer (.ofNat n) => some n
  | _ => none

namespace Dialect.Overlay

/-- The parts that have an entry; other entries are ignored. -/
def ofEntries (entries : Entries) : Option Overlay :=
  parts.foldlM (fun o part =>
    match entries.lookup part.name with
    | none => some o
    | some v => v.text?.map (part.set o)) {}

/-- The parts in order, as far as the list goes; further items are ignored. -/
def ofItems (items : List Value) : Option Overlay :=
  (parts.zip items).foldlM (fun o (part, v) => v.text?.map (part.set o)) {}

end Dialect.Overlay

/-- A dialect is given by a table or by a list. A moment counts as a table that names no part. -/
def Dialect.ofToml : Value → Option Dialect
  | .table _ entries => (Overlay.ofEntries entries).map (·.onto {})
  | .list _ items => (Overlay.ofItems items).map (·.onto {})
  | .moment => some {}
  | _ => none

namespace Options

def Overlay.ofEntries : Entries → Option Overlay
  | [] => some {}
  | (key, v) :: entries => do
    let o ← ofEntries entries
    if key = dialectName then pure { o with dialect := some (← Dialect.ofToml v) }
    else if key = maxDepthName then pure { o with maxDepth := some (← v.natural?) }
    else none

/-- Options from the text of a configuration file. A depth limit must be positive. -/
def ofToml (source : Text) : Except Error Options :=
  match (Toml.read source).bind Overlay.ofEntries with
  | none => .error (.config .unreadable)
  | some o =>
    let options := o.onto {}
    if options.maxDepth = 0 then .error (.config .zeroDepth) else .ok options

/-- Whatever is wrong with a configuration, it is the configuration that is reported. -/
theorem ofToml_eq_error {source : Text} {e : Error} (h : ofToml source = .error e) :
    ∃ fault, e = .config fault := by
  unfold ofToml at h
  split at h
  · cases h
    exact ⟨.unreadable, rfl⟩
  · dsimp only at h
    split at h
    · cases h
      exact ⟨.zeroDepth, rfl⟩
    · cases h

/-- Options from the content of a file, which is none if the file cannot be opened. -/
def ofFile (content : Option ByteArray) : Except Error Options :=
  match content.bind Text.decode? with
  | none => .error .unreadableFile
  | some source => ofToml source

end Options

end HandlebarsToTwig
