import HandlebarsToTwig.Proofs.Emission

/-! Rendering by its specification. The fragments of a tree and its depth are recursions over the
tree, written out for each kind of block, that know no more than the innermost loop; rendering joins
the fragments unless the depth exceeds the limit. -/
namespace HandlebarsToTwig

/-- The loop of an `each` block with these arguments. There is none without an iterator. -/
def LoopScope.of? (args : Option Text) : Option LoopScope :=
  args.bind fun path => (iteratorFor path).map fun iterator => ⟨iterator, Text.trim path⟩

theorem Emission.of?_each (d : Dialect) (args : Option Text) :
    Emission.of? d .each args =
      (LoopScope.of? args).map fun loop =>
        ⟨d.openFor loop.iterator loop.collection, some loop, d.endFor⟩ := by
  cases args with
  | none => rfl
  | some path => cases h : iteratorFor path <;> simp [Emission.of?, LoopScope.of?, h]

namespace Node

mutual

/-- What a node is emitted as, `top` being the innermost loop around it. -/
def emitted (d : Dialect) (top : Option LoopScope) : Node → List Text
  | .text value => [value]
  | .reference name => [d.interpolate (ScopeStack.resolve top.toList d.loopIndex name)]
  | .block .when args children =>
    d.openIf (args.getD []) :: listEmitted d top children ++ [d.endIf]
  | .block .whenNot args children =>
    d.openIfNot (args.getD []) :: listEmitted d top children ++ [d.endIf]
  | .block .each args children =>
    match LoopScope.of? args with
    | none => []
    | some loop =>
      d.openFor loop.iterator loop.collection :: listEmitted d (some loop) children ++ [d.endFor]

def listEmitted (d : Dialect) (top : Option LoopScope) : List Node → List Text
  | [] => []
  | n :: ns => n.emitted d top ++ listEmitted d top ns

end

mutual

/-- How deep the blocks of a node nest as far as they are emitted. A loop without an iterator counts
itself, but not its body. -/
def effectiveDepth : Node → Nat
  | .text _ => 0
  | .reference _ => 0
  | .block .each args children =>
    if (LoopScope.of? args).isSome then listEffectiveDepth children + 1 else 1
  | .block _ _ children => listEffectiveDepth children + 1

def listEffectiveDepth : List Node → Nat
  | [] => 0
  | n :: ns => max n.effectiveDepth (listEffectiveDepth ns)

end

theorem listEmitted_eq_listFragments (d : Dialect) (top : Option LoopScope) (tree : List Node) :
    listEmitted d top tree = listFragments d top tree := by
  induction tree using Node.listInduction generalizing top with
  | nil => rfl
  | text value ns ih => simp only [listEmitted, emitted, listFragments, fragments, ih]
  | reference name ns ih => simp only [listEmitted, emitted, listFragments, fragments, ih]
  | block kind args children ns ihc ihn =>
    rw [listEmitted, listFragments, ihn]
    congr 1
    cases kind with
    | when => simp only [emitted, fragments, Emission.of?, Option.none_or, ihc]
    | whenNot => simp only [emitted, fragments, Emission.of?, Option.none_or, ihc]
    | each =>
      rw [emitted, fragments, Emission.of?_each]
      cases LoopScope.of? args with
      | none => rfl
      | some loop => simp only [Option.map_some, Option.some_or, ihc]

/-- Which blocks the walk enters does not depend on the dialect. -/
theorem listEffectiveDepth_eq_listReach (d : Dialect) (tree : List Node) :
    listEffectiveDepth tree = listReach d tree := by
  induction tree using Node.listInduction with
  | nil => rfl
  | text value ns ih => simp only [listEffectiveDepth, effectiveDepth, listReach, reach, ih]
  | reference name ns ih => simp only [listEffectiveDepth, effectiveDepth, listReach, reach, ih]
  | block kind args children ns ihc ihn =>
    rw [listEffectiveDepth, listReach, ihn]
    congr 1
    cases kind with
    | when => simp only [effectiveDepth, reach, Emission.of?, ihc]
    | whenNot => simp only [effectiveDepth, reach, Emission.of?, ihc]
    | each =>
      rw [effectiveDepth, reach, Emission.of?_each]
      cases LoopScope.of? args with
      | none => rfl
      | some loop => simp only [Option.map_some, Option.isSome_some, if_true, ihc]

end Node

/-- Rendering equals its specification, for every tree and all options: a tree that is too deep, as
far as it is emitted, is refused with the limit, and every other one gives its fragments joined by
single spaces. -/
theorem render_eq_emitted (o : Options) (tree : List Node) :
    render o tree =
      if o.maxDepth < Node.listEffectiveDepth tree then .error (.tooDeep o.maxDepth)
      else .ok (joined (Node.listEmitted o.dialect none tree)) := by
  rw [Node.listEffectiveDepth_eq_listReach o.dialect, Node.listEmitted_eq_listFragments]
  split
  · next h => exact render_beyond h
  · next h => exact render_within (Nat.not_lt.1 h)

-- A loop without an iterator counts against the limit, but nothing in its body does.
example : render { maxDepth := 1 } [.block .each none [.block .when none []], .text ['x']] =
    .ok ['x'] := rfl

example : render { maxDepth := 0 } [.block .each none []] = .error (.tooDeep 0) := rfl

end HandlebarsToTwig
