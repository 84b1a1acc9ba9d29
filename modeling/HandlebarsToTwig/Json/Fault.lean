/-! Why a JSON text is refused. -/
namespace HandlebarsToTwig.Json

inductive Fault
  /-- The text ends inside a value. -/
  | cutShort
  /-- What was read so far is JSON, but not of the wanted shape. -/
  | wrongShape
  /-- What was read is not JSON, or nests or counts beyond the reader's limits. -/
  | malformed
  deriving DecidableEq, Repr

end HandlebarsToTwig.Json
