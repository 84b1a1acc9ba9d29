import HandlebarsToTwig.Json.Quoted

/-! JSON documents of strings, lists and objects with ordered keys, and their two layouts. -/
namespace HandlebarsToTwig.Json

inductive Document
  | text (value : Text)
  | list (items : List Document)
  | object (fields : List (Text × Document))
  deriving Repr

namespace Document

mutual

/-- The layout without any blanks. -/
def compact : Document → Text
  | .text value => Quoted.write value
  | .list items => '[' :: compactItems items ++ [']']
  | .object fields => '{' :: compactFields fields ++ ['}']

def compactItems : List Document → Text
  | [] => []
  | [d] => d.compact
  | d :: ds => d.compact ++ ',' :: compactItems ds

def compactFields : List (Text × Document) → Text
  | [] => []
  | [(key, d)] => Quoted.write key ++ ':' :: d.compact
  | (key, d) :: fields => Quoted.write key ++ ':' :: d.compact ++ ',' :: compactFields fields

end

/-- A new line, indented by two spaces for each level. -/
def newline (level : Nat) : Text := '\n' :: List.replicate (2 * level) ' '

mutual

/-- The layout with one item to a line. -/
def pretty (level : Nat) : Document → Text
  | .text value => Quoted.write value
  | .list [] => ['[', ']']
  | .list items => '[' :: prettyItems (level + 1) items ++ newline level ++ [']']
  | .object [] => ['{', '}']
  | .object fields => '{' :: prettyFields (level + 1) fields ++ newline level ++ ['}']

def prettyItems (level : Nat) : List Document → Text
  | [] => []
  | [d] => newline level ++ d.pretty level
  | d :: ds => newline level ++ d.pretty level ++ ',' :: prettyItems level ds

def prettyFields (level : Nat) : List (Text × Document) → Text
  | [] => []
  | [(key, d)] => newline level ++ Quoted.write key ++ ':' :: ' ' :: d.pretty level
  | (key, d) :: fields =>
    newline level ++ Quoted.write key ++ ':' :: ' ' :: d.pretty level ++ ',' ::
      prettyFields level fields

end

end Document

end HandlebarsToTwig.Json
