import HandlebarsToTwig.Proofs.Grammar
import HandlebarsToTwig.Render

/-! What a tree is emitted as. The walk keeps a stack of scopes, a depth and a buffer, but its
fragments depend on the tree and on the innermost loop around it alone. -/
namespace HandlebarsToTwig

namespace Node

mutual

/-- The fragments of a node inside the loop `scope`, or outside of all loops. -/
def fragments (d : Dialect) (scope : Option LoopScope) : Node → List Text
  | .text value => [value]
  | .reference name => [d.interpolate (ScopeStack.resolve scope.toList d.loopIndex name)]
  | .block kind args children =>
    match Emission.of? d kind args with
    | none => []
    | some e => e.opening :: listFragments d (e.scope.or scope) children ++ [e.closing]

def listFragments (d : Dialect) (scope : Option LoopScope) : List Node → List Text
  | [] => []
  | n :: ns => n.fragments d scope ++ listFragments d scope ns

end

mutual

/-- How deep the walk goes at a node. A block that is not emitted is met but not entered. -/
def reach (d : Dialect) : Node → Nat
  | .text _ => 0
  | .reference _ => 0
  | .block kind args children =>
    match Emission.of? d kind args with
    | none => 1
    | some _ => listReach d children + 1

def listReach (d : Dialect) : List Node → Nat
  | [] => 0
  | n :: ns => max (n.reach d) (listReach d ns)

end

theorem listReach_le_listNesting (d : Dialect) (tree : List Node) :
    listReach d tree ≤ listNesting tree := by
  induction tree using Node.listInduction with
  | nil => simp [listReach]
  | text value ns ih => simpa [listReach, reach, listNesting, nesting] using ih
  | reference name ns ih => simpa [listReach, reach, listNesting, nesting] using ih
  | block kind args children ns ihc ihn =>
    simp only [listReach, reach, listNesting, nesting]
    split <;> omega

end Node

theorem ScopeStack.resolve_innermost (scopes : ScopeStack) (loopIndex name : Text) :
    ScopeStack.resolve scopes.head?.toList loopIndex name = scopes.resolve loopIndex name := by
  cases scopes <;> rfl

namespace Walk

/-- The walk after fragments have been written, the first of them first. -/
def wrote (w : Walk) (fragments : List Text) : Walk :=
  { w with written := fragments.reverse ++ w.written }

@[simp] theorem wrote_scopes (w : Walk) (fs : List Text) : (w.wrote fs).scopes = w.scopes := rfl

@[simp] theorem wrote_depth (w : Walk) (fs : List Text) : (w.wrote fs).depth = w.depth := rfl

@[simp] theorem wrote_nil (w : Walk) : w.wrote [] = w := rfl

@[simp] theorem wrote_wrote (w : Walk) (fs gs : List Text) :
    (w.wrote fs).wrote gs = w.wrote (fs ++ gs) := by
  simp [wrote]

theorem write_eq_wrote (w : Walk) (fragment : Text) : w.write fragment = w.wrote [fragment] := rfl

/-- Inside a block, the innermost loop is the block's own or else the one around it. -/
theorem enter_innermost (w : Walk) (e : Emission) :
    (w.enter e).scopes.head? = e.scope.or w.scopes.head? := by
  cases h : e.scope <;> simp [enter, h, ScopeStack.enter]

/-- Leaving a block restores the scopes and the depth from before it. -/
theorem leave_enter (w : Walk) (e : Emission) (fs : List Text) :
    ((w.enter e).wrote fs).leave e = w.wrote (e.opening :: fs) := by
  cases h : e.scope <;> simp [enter, leave, wrote, h, ScopeStack.enter, ScopeStack.exit]

/-- A walk with room for its nodes writes their fragments and changes nothing else. -/
theorem nodes_within {o : Options} {ns : List Node} {w : Walk}
    (h : w.depth + Node.listReach o.dialect ns ≤ o.maxDepth) :
    nodes o ns w = (.ok (), w.wrote (Node.listFragments o.dialect w.scopes.head? ns)) := by
  induction ns using Node.listInduction generalizing w with
  | nil => simp [nodes, Node.listFragments]
  | text value ns ih =>
    simp only [Node.listReach, Node.reach, Nat.zero_max] at h
    simp only [nodes, node, write_eq_wrote]
    rw [ih (by simpa using h), wrote_wrote]
    simp [Node.listFragments, Node.fragments]
  | reference name ns ih =>
    simp only [Node.listReach, Node.reach, Nat.zero_max] at h
    simp only [nodes, node, write_eq_wrote]
    rw [ih (by simpa using h), wrote_wrote]
    simp [Node.listFragments, Node.fragments, ScopeStack.resolve_innermost]
  | block kind args children ns ihc ihn =>
    simp only [Node.listReach, Node.reach] at h
    cases he : Emission.of? o.dialect kind args with
    | none =>
      simp only [he] at h
      have hdepth : ¬ o.maxDepth ≤ w.depth := by omega
      simp only [nodes, node, he, hdepth, if_false]
      rw [ihn (by omega)]
      simp [Node.listFragments, Node.fragments, he]
    | some e =>
      simp only [he] at h
      have hdepth : ¬ o.maxDepth ≤ w.depth := by omega
      have hchildren : (w.enter e).depth + Node.listReach o.dialect children ≤ o.maxDepth := by
        simp only [enter]
        omega
      simp only [nodes, node, he, hdepth, if_false, ihc hchildren, leave_enter, write_eq_wrote,
        wrote_wrote]
      rw [ihn (by rw [wrote_depth]; omega), wrote_wrote]
      simp [Node.listFragments, Node.fragments, he, enter_innermost]

/-- A walk without room for all its nodes stops at the first block that is too deep. -/
theorem nodes_beyond {o : Options} {ns : List Node} {w : Walk} (hw : w.depth ≤ o.maxDepth)
    (h : o.maxDepth < w.depth + Node.listReach o.dialect ns) :
    (nodes o ns w).1 = .error (.tooDeep o.maxDepth) := by
  induction ns using Node.listInduction generalizing w with
  | nil =>
    simp only [Node.listReach] at h
    omega
  | text value ns ih =>
    simp only [Node.listReach, Node.reach, Nat.zero_max] at h
    simp only [nodes, node, write_eq_wrote]
    exact ih hw h
  | reference name ns ih =>
    simp only [Node.listReach, Node.reach, Nat.zero_max] at h
    simp only [nodes, node, write_eq_wrote]
    exact ih hw h
  | block kind args children ns ihc ihn =>
    simp only [Node.listReach, Node.reach] at h
    by_cases hdepth : o.maxDepth ≤ w.depth
    · simp [nodes, node, hdepth]
    cases he : Emission.of? o.dialect kind args with
    | none =>
      simp only [he] at h
      simp only [nodes, node, he, hdepth, if_false]
      exact ihn hw (by omega)
    | some e =>
      simp only [he] at h
      have henter : (w.enter e).depth = w.depth + 1 := rfl
      by_cases hc : (w.enter e).depth + Node.listReach o.dialect children ≤ o.maxDepth
      · simp only [nodes, node, he, hdepth, if_false, nodes_within hc, leave_enter, write_eq_wrote,
          wrote_wrote]
        refine ihn (by rwa [wrote_depth]) ?_
        rw [wrote_depth]
        omega
      · have hfault := ihc (w := w.enter e) (by omega) (by omega)
        simp only [nodes, node, he, hdepth, if_false]
        generalize nodes o children (w.enter e) = r at hfault
        obtain ⟨result, w'⟩ := r
        subst hfault
        rfl

end Walk

/-- A tree is emitted as the join of its fragments, if the walk does not go too deep. -/
theorem render_within {o : Options} {tree : List Node}
    (h : Node.listReach o.dialect tree ≤ o.maxDepth) :
    render o tree = .ok (joined (Node.listFragments o.dialect none tree)) := by
  have hw : Walk.nodes o tree {} = _ := Walk.nodes_within (by simpa using h)
  rw [render, hw]
  simp [Walk.wrote]

/-- The walk goes no deeper than the blocks of a tree nest, so what the parser accepts under a limit
is emitted under it. -/
theorem render_of_ofSource {o : Options} {source : Text} {tree : List Node}
    (h : Node.ofSource source o.maxDepth = .ok tree) :
    render o tree = .ok (joined (Node.listFragments o.dialect none tree)) := by
  apply render_within
  exact Nat.le_trans (Node.listReach_le_listNesting o.dialect tree)
    (Node.listNesting_le_of_ofSource h)

theorem render_beyond {o : Options} {tree : List Node}
    (h : o.maxDepth < Node.listReach o.dialect tree) :
    render o tree = .error (.tooDeep o.maxDepth) := by
  have hfault : (Walk.nodes o tree {}).1 = _ :=
    Walk.nodes_beyond (Nat.zero_le _) (by simpa using h)
  unfold render
  generalize Walk.nodes o tree {} = r at hfault
  obtain ⟨result, w⟩ := r
  subst hfault
  rfl

theorem render_ok {o : Options} {tree : List Node} {out : Text} (h : render o tree = .ok out) :
    out = joined (Node.listFragments o.dialect none tree) := by
  by_cases hr : Node.listReach o.dialect tree ≤ o.maxDepth
  · rw [render_within hr] at h
    exact (Except.ok.inj h).symm
  · rw [render_beyond (Nat.not_le.1 hr)] at h
    simp at h

end HandlebarsToTwig
