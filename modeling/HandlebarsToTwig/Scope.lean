import HandlebarsToTwig.Text.Blank

/-! Loop scopes: which iterator an `each` block binds, and what a variable means inside it. -/
namespace HandlebarsToTwig

/-- One loop that is being emitted. -/
structure LoopScope where
  iterator : Text
  collection : Text
  deriving DecidableEq, Repr

/-- The loops around the current place, innermost first. -/
abbrev ScopeStack := List LoopScope

namespace ScopeStack

def enter (scopes : ScopeStack) (scope : LoopScope) : ScopeStack := scope :: scopes

def exit (scopes : ScopeStack) : ScopeStack := scopes.tail

/-- What a variable means in the innermost loop. The loop's own names stand for its index, `this`
for the iterator, and paths below `this` for paths below the iterator. -/
def resolve (scopes : ScopeStack) (loopIndex name : Text) : Text :=
  match scopes.head? with
  | none => name
  | some top =>
    if name = top.iterator then loopIndex
    else if name = "this".toList then top.iterator
    else
      match Text.after? "this.".toList name with
      | some path => top.iterator ++ '.' :: path
      | none => if name = top.collection then loopIndex else name

end ScopeStack

/-- The part of a path after its last dot. -/
def lastSegment (path : Text) : Text := (path.reverse.takeWhile (· ≠ '.')).reverse

/-- The loop variable for a collection path: the first character of its last segment. -/
def iteratorFor (args : Text) : Option Text :=
  (lastSegment (Text.trim args)).head?.map ([·])

end HandlebarsToTwig
