import HandlebarsToTwig.Error
import HandlebarsToTwig.Json.Record
import HandlebarsToTwig.Options.Overlay

/-! Reading options from JSON. -/
namespace HandlebarsToTwig
open Json

def Dialect.Overlay.slots : List (Slot Dialect.Overlay) :=
  Dialect.Overlay.parts.map fun part => Slot.of part.name part.get part.set text true

/-- A dialect; keys that name no part of it are skipped. -/
def Dialect.reader : Reader Dialect :=
  record (some Dialect.Overlay.slots) false {} fun o => some (o.onto {})

def Options.Overlay.slots : List (Slot Options.Overlay) :=
  [Slot.of dialectName dialect (fun o d => { o with dialect := some d }) Dialect.reader true,
    Slot.of maxDepthName maxDepth (fun o n => { o with maxDepth := some n }) natural true]

/-- Options; other keys are refused. -/
def Options.reader : Reader Options :=
  record (some Options.Overlay.slots) true {} fun o => some (o.onto {})

def Dialect.ofJson (json : Text) : Except Error Dialect :=
  (readWhole Dialect.reader json).mapError .json

def Options.ofJson (json : Text) : Except Error Options :=
  (readWhole Options.reader json).mapError .json

end HandlebarsToTwig
