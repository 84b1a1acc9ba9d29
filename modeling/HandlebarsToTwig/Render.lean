import HandlebarsToTwig.Error
import HandlebarsToTwig.Node
import HandlebarsToTwig.Options
import HandlebarsToTwig.Scope

/-! Emitting a tree in the target dialect. The walk carries the open loop scopes, the number of
open blocks and the fragments written so far, and hands them back also when it fails. -/
namespace HandlebarsToTwig

structure Walk where
  scopes : ScopeStack := []
  depth : Nat := 0
  /-- Written fragments, newest first. -/
  written : List Text := []
  deriving DecidableEq, Repr

/-- How a block is emitted: the tags around its body, and the loop scope of the body if it has one. -/
structure Emission where
  opening : Text
  scope : Option LoopScope
  closing : Text
  deriving DecidableEq, Repr

/-- A loop without an iterator is not emitted at all. -/
def Emission.of? (d : Dialect) : BlockKind → (args : Option Text) → Option Emission
  | .when, args => some ⟨d.openIf (args.getD []), none, d.endIf⟩
  | .whenNot, args => some ⟨d.openIfNot (args.getD []), none, d.endIf⟩
  | .each, none => none
  | .each, some args =>
    (iteratorFor args).map fun iterator =>
      let iterable := Text.trim args
      ⟨d.openFor iterator iterable, some ⟨iterator, iterable⟩, d.endFor⟩

namespace Walk

def write (w : Walk) (fragment : Text) : Walk := { w with written := fragment :: w.written }

/-- Goes into the body of an emitted block. -/
def enter (w : Walk) (e : Emission) : Walk :=
  { scopes := match e.scope with
      | some scope => w.scopes.enter scope
      | none => w.scopes
    depth := w.depth + 1
    written := e.opening :: w.written }

/-- Comes back from the body of an emitted block. -/
def leave (w : Walk) (e : Emission) : Walk :=
  { w with
    scopes := if e.scope.isSome then w.scopes.exit else w.scopes
    depth := w.depth - 1 }

mutual

def node (o : Options) : Node → Walk → Except Error Unit × Walk
  | .text value, w => (.ok (), w.write value)
  | .reference name, w =>
    (.ok (), w.write (o.dialect.interpolate (w.scopes.resolve o.dialect.loopIndex name)))
  | .block kind args children, w =>
    if o.maxDepth ≤ w.depth then (.error (.tooDeep o.maxDepth), w)
    else
      match Emission.of? o.dialect kind args with
      | none => (.ok (), w)
      | some e =>
        match nodes o children (w.enter e) with
        | (.ok (), w) => (.ok (), (w.leave e).write e.closing)
        | (.error fault, w) => (.error fault, w.leave e)

def nodes (o : Options) : List Node → Walk → Except Error Unit × Walk
  | [], w => (.ok (), w)
  | n :: ns, w =>
    match node o n w with
    | (.ok (), w) => nodes o ns w
    | (.error fault, w) => (.error fault, w)

end

end Walk

/-- Fragments joined by single spaces. -/
def joined (fragments : List Text) : Text := [' '].intercalate fragments

/-- The whole tree in the target dialect. -/
def render (o : Options) (tree : List Node) : Except Error Text :=
  match Walk.nodes o tree {} with
  | (.ok (), w) => .ok (joined w.written.reverse)
  | (.error fault, _) => .error fault

end HandlebarsToTwig
