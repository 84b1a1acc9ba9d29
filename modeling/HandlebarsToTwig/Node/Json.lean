import HandlebarsToTwig.Error
import HandlebarsToTwig.Json.Document
import HandlebarsToTwig.Json.Record
import HandlebarsToTwig.Node

/-! Trees as JSON. A tree is read in two stages: first its records with all their optional fields,
then, when the whole text has been read, the nodes they describe. -/
namespace HandlebarsToTwig
open Json

/-- A node as it is described by a record. -/
inductive NodeRecord
  | mk (type : Text) (value name args : Option Text) (nodes : List NodeRecord)
  deriving Repr

namespace NodeRecord

/-- The fields of a record that have been met, `null` among them. -/
structure Draft where
  type : Option Text := none
  value : Option (Option Text) := none
  name : Option (Option Text) := none
  args : Option (Option Text) := none
  nodes : Option (List NodeRecord) := none

namespace Draft

def slots (children : Reader (List NodeRecord)) : List (Slot Draft) :=
  [Slot.of "type".toList type (fun d s => { d with type := some s }) text false,
    Slot.of "value".toList value (fun d s => { d with value := some s }) text? false,
    Slot.of "name".toList name (fun d s => { d with name := some s }) text? false,
    Slot.of "args".toList args (fun d s => { d with args := some s }) text? false,
    Slot.of "nodes".toList nodes (fun d ns => { d with nodes := some ns }) children true]

def complete (d : Draft) : Option NodeRecord :=
  d.type.map fun type => .mk type d.value.join d.name.join d.args.join (d.nodes.getD [])

end Draft

mutual

/-- A list of records, where lists and objects may still nest `levels` deep. -/
def listReader : (levels : Nat) → Reader (List NodeRecord)
  | 0 => list none
  | levels + 1 => list (some (reader levels))

def reader : (levels : Nat) → Reader NodeRecord
  | 0 => record none false {} Draft.complete
  | levels + 1 => record (some (Draft.slots (listReader levels))) false {} Draft.complete

end

/-- How deep lists and objects may nest in a text that is read. -/
def maxLevels : Nat := 127

def listOfJson (json : Text) : Except Error (List NodeRecord) :=
  (readWhole (listReader maxLevels) json).mapError .json

/-- The three kinds of nodes, by the long and the short name of their type. -/
def isText (type : Text) : Bool := type = "text".toList || type = "_t".toList
def isReference (type : Text) : Bool := type = "variable".toList || type = "_v".toList
def isBlock (type : Text) : Bool := type = "block".toList || type = "#".toList

/-- A field that a node of type `type` cannot do without. -/
def required (type field : Text) : Option Text → Except Error Text
  | some s => .ok s
  | none => .error (.missingField type field)

mutual

def toNode : NodeRecord → Except Error Node
  | .mk type value name args nodes =>
    if isText type then (required type "value".toList value).map Node.text
    else if isReference type then (required type "name".toList name).map Node.reference
    else if isBlock type then do
      let helper ← required type "name".toList name
      match BlockKind.ofName? helper with
      | none => throw (.unsupported helper)
      | some kind => pure (.block kind args (← toNodes nodes))
    else .error (.unsupported type)

def toNodes : List NodeRecord → Except Error (List Node)
  | [] => .ok []
  | r :: rs => do
    let n ← toNode r
    pure (n :: (← toNodes rs))

end

end NodeRecord

namespace Node

def listOfJson (json : Text) : Except Error (List Node) := do
  NodeRecord.toNodes (← NodeRecord.listOfJson json)

mutual

def toDocument : Node → Document
  | .text value => .object [("type".toList, .text "text".toList), ("value".toList, .text value)]
  | .reference name =>
    .object [("type".toList, .text "variable".toList), ("name".toList, .text name)]
  | .block kind args children =>
    .object <| [("type".toList, .text "block".toList), ("name".toList, .text kind.name)] ++
      (args.map fun s => ("args".toList, .text s)).toList ++
      [("nodes".toList, .list (toDocuments children))]

def toDocuments : List Node → List Document
  | [] => []
  | n :: ns => n.toDocument :: toDocuments ns

end

/-- The tree on one line. -/
def listToJson (tree : List Node) : Text := (Document.list (toDocuments tree)).compact

/-- The tree with one item to a line. -/
def listToPrettyJson (tree : List Node) : Text := (Document.list (toDocuments tree)).pretty 0

end Node

end HandlebarsToTwig
