import HandlebarsToTwig.Text

/-! The tree of a template: texts, variable references and blocks. -/
namespace HandlebarsToTwig

inductive BlockKind
  | when
  | whenNot
  | each
  deriving DecidableEq, Repr

namespace BlockKind

/-- The helper that opens a block of this kind. -/
def name : BlockKind → Text
  | when => "if".toList
  | whenNot => "unless".toList
  | each => "each".toList

def ofName? (helper : Text) : Option BlockKind :=
  if helper = name when then some when
  else if helper = name whenNot then some whenNot
  else if helper = name each then some each
  else none

theorem ofName?_eq_some {helper : Text} {kind : BlockKind} :
    ofName? helper = some kind ↔ helper = kind.name := by
  constructor
  · intro h
    unfold ofName? at h
    split at h
    · simp_all
    · split at h
      · simp_all
      · split at h <;> simp_all
  · rintro rfl
    cases kind <;> decide

end BlockKind

inductive Node
  | text (value : Text)
  | reference (name : Text)
  | block (kind : BlockKind) (args : Option Text) (children : List Node)
  deriving Inhabited, Repr

/-- Induction over a tree: its first node goes with the nodes after it, and a block also with the
nodes inside it. -/
@[elab_as_elim]
theorem Node.listInduction {P : List Node → Prop} (nil : P [])
    (text : ∀ value ns, P ns → P (.text value :: ns))
    (reference : ∀ name ns, P ns → P (.reference name :: ns))
    (block : ∀ kind args children ns, P children → P ns → P (.block kind args children :: ns)) :
    ∀ tree, P tree
  | [] => nil
  | .text value :: ns => text value ns (listInduction nil text reference block ns)
  | .reference name :: ns => reference name ns (listInduction nil text reference block ns)
  | .block kind args children :: ns =>
    block kind args children ns (listInduction nil text reference block children)
      (listInduction nil text reference block ns)

end HandlebarsToTwig
