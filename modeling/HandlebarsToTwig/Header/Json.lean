import HandlebarsToTwig.Error
import HandlebarsToTwig.Header
import HandlebarsToTwig.Json.Record

/-! Reading a component header from JSON. -/
namespace HandlebarsToTwig.Header
open Json

/-- The fields of a header that have been met, `null` among them. -/
structure Draft where
  title : Option Text := none
  see : Option (Option Text) := none
  version : Option (Option Text) := none
  date : Option (Option Text) := none
  author : Option (Option Text) := none

namespace Draft

def slots : List (Slot Draft) :=
  [Slot.of "title".toList title (fun d s => { d with title := some s }) text false,
    Slot.of "see".toList see (fun d s => { d with see := some s }) text? false,
    Slot.of "version".toList version (fun d s => { d with version := some s }) text? false,
    Slot.of "date".toList date (fun d s => { d with date := some s }) text? false,
    Slot.of "author".toList author (fun d s => { d with author := some s }) text? false]

def complete (d : Draft) : Option Header :=
  d.title.map fun title => ⟨title, d.see.join, d.version.join, d.date.join, d.author.join⟩

end Draft

def reader : Reader Header := record (some Draft.slots) false {} Draft.complete

def ofJson (json : Text) : Except Error Header := (readWhole reader json).mapError .json

end HandlebarsToTwig.Header
