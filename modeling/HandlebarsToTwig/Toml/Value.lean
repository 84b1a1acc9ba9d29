import HandlebarsToTwig.Text

/-! Values of a configuration file, and how its tables come into being. -/
namespace HandlebarsToTwig.Toml

/-- How a table was made. A later part of the file may only add to it accordingly. -/
inductive Origin
  /-- Written between braces: complete as it stands. -/
  | inline
  /-- Opened by a header of its own. -/
  | declared
  /-- On the way to a table that has a header. -/
  | implied
  /-- On the way to a key with dots. -/
  | dotted
  deriving DecidableEq, Repr

inductive Value
  | text (value : Text)
  | integer (value : Int)
  | float
  | boolean
  /-- A date, a time of day, or both. -/
  | moment
  /-- A list; the headers of an `extensible` one add tables to it. -/
  | list (extensible : Bool) (items : List Value)
  | table (origin : Origin) (entries : List (Text × Value))
  deriving Repr

abbrev Entries := List (Text × Value)

/-- A table that is being filled. -/
structure Table where
  origin : Origin
  entries : Entries := []
  deriving Repr

namespace Table

def toValue (t : Table) : Value := .table t.origin t.entries

def get? (t : Table) (key : Text) : Option Value := t.entries.lookup key

/-- Gives `key` a value in place of the one it may have. -/
def put (t : Table) (key : Text) (v : Value) : Table :=
  if (t.get? key).isSome then
    { t with entries := t.entries.map fun (k, old) => (k, if k = key then v else old) }
  else { t with entries := t.entries ++ [(key, v)] }

/-- Changes the table at the end of `path`, which is made up as needed. The path leads through
tables and into the newest table of extensible lists. A path of dotted keys does not enter a
table that has a header. -/
def change (dotted : Bool) (f : Table → Option Table) : (path : List Text) → Table → Option Table
  | [], t => f t
  | key :: path, t =>
    match t.get? key with
    | none => do
      let child ← change dotted f path ⟨if dotted then .dotted else .implied, []⟩
      pure (t.put key child.toValue)
    | some (.table origin entries) =>
      if origin = .inline ∨ (dotted ∧ origin = .declared) then none
      else do
        let child ← change dotted f path ⟨origin, entries⟩
        pure (t.put key child.toValue)
    | some (.list true items) =>
      match items.getLast? with
      | some (.table origin entries) => do
        let child ← change dotted f path ⟨origin, entries⟩
        pure (t.put key (.list true (items.dropLast ++ [child.toValue])))
      | _ => none
    | some _ => none

/-- Adds an entry for a key that is new. After a dotted path the table must be one that such paths
have made. -/
def addEntry (path : List Text) (key : Text) (v : Value) (t : Table) : Option Table :=
  change true (fun t =>
    if (path ≠ [] ∧ t.origin ≠ .dotted) ∨ (t.get? key).isSome then none
    else some (t.put key v)) path t

/-- Opens the table of a header: a new one, or one that was only implied so far. -/
def openTable (path : List Text) (key : Text) (t : Table) : Option Table :=
  change false (fun t =>
    match t.get? key with
    | none => some (t.put key (.table .declared []))
    | some (.table .implied entries) => some (t.put key (.table .declared entries))
    | some _ => none) path t

/-- Adds a new table to the list of a header with double brackets. -/
def extendList (path : List Text) (key : Text) (t : Table) : Option Table :=
  change false (fun t =>
    match t.get? key with
    | none => some (t.put key (.list true [.table .declared []]))
    | some (.list true items) => some (t.put key (.list true (items ++ [.table .declared []])))
    | some _ => none) path t

end Table

end HandlebarsToTwig.Toml
