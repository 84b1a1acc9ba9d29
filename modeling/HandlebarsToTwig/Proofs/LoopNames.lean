import HandlebarsToTwig.Proofs.Text
import HandlebarsToTwig.Proofs.WalkState

/-! What variables are called inside of loops. Every loop that is emitted binds one character as its
iterator, and with such an iterator none of the rules for names leaves a path that starts at `this`.
Each fragment of the output is traced back to the variable it was emitted for. -/
namespace HandlebarsToTwig

/-- An expression that does not refer to the current element as `this`. -/
def ThisFree (e : Text) : Prop := e ≠ "this".toList ∧ ¬ "this.".toList <+: e

instance (e : Text) : Decidable (ThisFree e) := inferInstanceAs (Decidable (_ ∧ _))

/-- The iterator of the loop is one character. -/
def LoopScope.IsShort (loop : LoopScope) : Prop := ∃ c, loop.iterator = [c]

theorem LoopScope.isShort_of_of? {args : Option Text} {loop : LoopScope}
    (h : LoopScope.of? args = some loop) : loop.IsShort := by
  obtain ⟨path, -, h⟩ := Option.bind_eq_some_iff.1 h
  obtain ⟨iterator, hi, rfl⟩ := Option.map_eq_some_iff.1 h
  obtain ⟨c, -, rfl⟩ := Option.map_eq_some_iff.1 hi
  exact ⟨c, rfl⟩

/-- A block that is emitted opens no scope, or one with a short iterator. -/
theorem Emission.isShort_of_of? {d : Dialect} {kind : BlockKind} {args : Option Text}
    {e : Emission} (h : Emission.of? d kind args = some e) : ∀ loop ∈ e.scope, loop.IsShort := by
  cases kind with
  | when | whenNot =>
    cases h
    simp
  | each =>
    rw [Emission.of?_each] at h
    obtain ⟨loop, hloop, rfl⟩ := Option.map_eq_some_iff.1 h
    rintro _ ⟨rfl⟩
    exact LoopScope.isShort_of_of? hloop

/-- The rules are tried in order: the iterator, `this`, a path below `this`, the collection. Only
the second and the third meet a name that starts at `this`, and both put the iterator there. -/
theorem ScopeStack.thisFree_resolve {loop : LoopScope} (hloop : loop.IsShort) {loopIndex : Text}
    (hindex : ThisFree loopIndex) (name : Text) (outer : ScopeStack) :
    ThisFree (ScopeStack.resolve (loop :: outer) loopIndex name) := by
  obtain ⟨c, hc⟩ := hloop
  simp only [resolve, List.head?_cons, hc]
  split
  · exact hindex
  · split
    · exact ⟨by simp, by simp⟩
    · next hthis =>
      split
      · next path _ =>
        refine ⟨by simp, ?_⟩
        simp [List.cons_prefix_cons]
      · next hbelow =>
        split
        · exact hindex
        · exact ⟨hthis, Text.after?_eq_none.1 hbelow⟩

namespace Node

mutual

/-- The fragments of a node inside of `loops`, outermost first. One that a variable is emitted as
comes with the name of the variable and the emitted loops around it. -/
def traced (d : Dialect) (loops : List LoopScope) :
    Node → List (Text × Option (Text × List LoopScope))
  | .text value => [(value, none)]
  | .reference name =>
    [(d.interpolate (ScopeStack.resolve loops.getLast?.toList d.loopIndex name),
      some (name, loops))]
  | .block kind args children =>
    match Emission.of? d kind args with
    | none => []
    | some e =>
      (e.opening, none) :: listTraced d (loops ++ e.scope.toList) children ++ [(e.closing, none)]

def listTraced (d : Dialect) (loops : List LoopScope) :
    List Node → List (Text × Option (Text × List LoopScope))
  | [] => []
  | n :: ns => n.traced d loops ++ listTraced d loops ns

end

/-- The fragments are those that are joined. -/
theorem map_fst_listTraced (d : Dialect) (loops : List LoopScope) (tree : List Node) :
    (listTraced d loops tree).map Prod.fst = listFragments d loops.getLast? tree := by
  induction tree using Node.listInduction generalizing loops with
  | nil => rfl
  | text value ns ih => simp [listTraced, traced, listFragments, fragments, ih]
  | reference name ns ih => simp [listTraced, traced, listFragments, fragments, ih]
  | block kind args children ns ihc ihn =>
    rw [listTraced, traced, listFragments, fragments, List.map_append, ihn]
    cases he : Emission.of? d kind args with
    | none => rfl
    | some e =>
      have hinner : (loops ++ e.scope.toList).getLast? = e.scope.or loops.getLast? := by
        cases e.scope <;> simp
      simp [ihc, hinner]

/-- The variables are those that are emitted. -/
theorem filterMap_snd_listTraced (d : Dialect) (loops : List LoopScope) (tree : List Node) :
    (listTraced d loops tree).filterMap Prod.snd = listMentions loops tree := by
  induction tree using Node.listInduction generalizing loops with
  | nil => rfl
  | text value ns ih => simp [listTraced, traced, listMentions, mentions, ih]
  | reference name ns ih => simp [listTraced, traced, listMentions, mentions, ih]
  | block kind args children ns ihc ihn =>
    rw [listTraced, traced, listMentions, mentions_block d, List.filterMap_append, ihn]
    cases he : Emission.of? d kind args with
    | none => rfl
    | some e => simp [ihc]

/-- What is known of a fragment: the innermost of the loops around a variable decides what it is
emitted as, and all of them bind one character. -/
theorem mem_listTraced {d : Dialect} {loops : List LoopScope} {tree : List Node}
    (hloops : ∀ loop ∈ loops, loop.IsShort) {fragment name : Text} {around : List LoopScope}
    (h : (fragment, some (name, around)) ∈ listTraced d loops tree) :
    fragment = d.interpolate (ScopeStack.resolve around.getLast?.toList d.loopIndex name) ∧
      ∀ loop ∈ around, loop.IsShort := by
  induction tree using Node.listInduction generalizing loops with
  | nil => simp [listTraced] at h
  | text value ns ih =>
    simp only [listTraced, traced, List.singleton_append, List.mem_cons, Prod.mk.injEq,
      reduceCtorEq, and_false, false_or] at h
    exact ih hloops h
  | reference other ns ih =>
    rw [listTraced, traced, List.singleton_append, List.mem_cons] at h
    rcases h with h | h
    · cases h
      exact ⟨rfl, hloops⟩
    · exact ih hloops h
  | block kind args children ns ihc ihn =>
    rw [listTraced, traced, List.mem_append] at h
    rcases h with h | h
    · split at h
      · cases h
      · next e he =>
        have hinner : ∀ loop ∈ loops ++ e.scope.toList, loop.IsShort := by
          rw [List.forall_mem_append]
          exact ⟨hloops, by simpa using Emission.isShort_of_of? he⟩
        have hchild : (fragment, some (name, around)) ∈
            listTraced d (loops ++ e.scope.toList) children := by simpa using h
        exact ihc hinner hchild
    · exact ihn hloops h

end Node

/-- No `this` survives inside of a loop, for every tree and all options whose index expression does
not bring one in. What is emitted is joined from fragments, and those of the variables are in order
the emitted variables of the tree, each with the emitted loops around it. Outside of all loops a
variable is emitted under its own name. Inside of at least one, whatever conditions stand between,
it is emitted as an expression that neither is `this` nor starts with `this.`. -/
theorem render_thisFree {o : Options} (hindex : ThisFree o.dialect.loopIndex) (tree : List Node) :
    let traced := Node.listTraced o.dialect [] tree
    (∀ out, render o tree = .ok out → out = joined (traced.map Prod.fst)) ∧
    traced.filterMap Prod.snd = Node.listMentions [] tree ∧
    ∀ fragment name loops, (fragment, some (name, loops)) ∈ traced →
      (loops = [] → fragment = o.dialect.varOpen ++ name ++ o.dialect.varClose) ∧
      (loops ≠ [] → ∃ e, fragment = o.dialect.varOpen ++ e ++ o.dialect.varClose ∧ ThisFree e) := by
  intro traced
  refine ⟨fun out h => ?_, Node.filterMap_snd_listTraced o.dialect [] tree, ?_⟩
  · rw [Node.map_fst_listTraced]
    exact render_ok h
  · intro fragment name loops hmem
    obtain ⟨rfl, hshort⟩ := Node.mem_listTraced (by simp) hmem
    constructor
    · rintro rfl
      rfl
    · intro hne
      refine ⟨_, rfl, ?_⟩
      rw [List.getLast?_eq_some_getLast hne, Option.toList_some]
      exact ScopeStack.thisFree_resolve (hshort _ (List.getLast_mem hne)) hindex name []

/-- A loop over items with a condition in it and a loop over the elements of each, whose iterators
are `i` and `t`. The item, a path below it, the iterator itself and the element are referred to from
inside, and from behind both loops `this` once more. -/
theorem render_thisFree_nested :
    let items : LoopScope := ⟨['i'], "properties.items".toList⟩
    let elements : LoopScope := ⟨['t'], "this".toList⟩
    let tree : List Node :=
      [.block .each (some " properties.items".toList)
        [.block .when none [.reference "this.x".toList, .reference ['i']],
          .block .each (some "this".toList) [.reference "this".toList]],
        .reference "this".toList]
    let shown := fun e : String => ({} : Dialect).interpolate e.toList
    let references := [(shown "i.x", "this.x".toList, [items]),
      (shown "loop.index0", ['i'], [items]), (shown "t", "this".toList, [items, elements]),
      (shown "this", "this".toList, [])]
    ThisFree ({} : Options).dialect.loopIndex ∧
    (Node.listTraced {} [] tree).filterMap (fun f => f.2.map (f.1, ·)) = references ∧
    (∀ v ∈ references, v.2.2 ≠ [] →
      ∃ e, v.1 = ['{', '{'] ++ e ++ ['}', '}'] ∧ ThisFree e) ∧
    ∀ v ∈ references, v.2.2 = [] → v.1 = ['{', '{'] ++ v.2.1 ++ ['}', '}'] := by
  intro items elements tree shown references
  have hindex : ThisFree ({} : Options).dialect.loopIndex := by decide
  have hreferences :
      (Node.listTraced {} [] tree).filterMap (fun f => f.2.map (f.1, ·)) = references := by
    decide +kernel
  have hmem : ∀ v ∈ references, (v.1, some v.2) ∈ Node.listTraced {} [] tree := by
    intro v hv
    rw [← hreferences, List.mem_filterMap] at hv
    obtain ⟨⟨fragment, origin⟩, hf, he⟩ := hv
    obtain ⟨mention, rfl, rfl⟩ := Option.map_eq_some_iff.1 he
    exact hf
  obtain ⟨-, -, h⟩ := render_thisFree hindex tree
  exact ⟨hindex, hreferences, fun v hv => (h _ _ _ (hmem v hv)).2,
    fun v hv => (h _ _ _ (hmem v hv)).1⟩

end HandlebarsToTwig
