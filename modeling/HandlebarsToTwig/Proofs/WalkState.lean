import HandlebarsToTwig.Proofs.Rendering

/-! What the walk over a tree leaves behind. It may start with any scopes, at any depth and on any
buffer; whether it ends well or stops at a block that is too deep, it hands back the scopes and the
depth it was given, and on the way a variable sees the loops around it on top of those scopes. -/
namespace HandlebarsToTwig

namespace Node

mutual

/-- The variables of a node that are emitted, in order, each with the emitted loops around it,
outermost first; `loops` are those around the node. -/
def mentions (loops : List LoopScope) : Node → List (Text × List LoopScope)
  | .text _ => []
  | .reference name => [(name, loops)]
  | .block .each args children =>
    match LoopScope.of? args with
    | none => []
    | some loop => listMentions (loops ++ [loop]) children
  | .block _ _ children => listMentions loops children

def listMentions (loops : List LoopScope) : List Node → List (Text × List LoopScope)
  | [] => []
  | n :: ns => n.mentions loops ++ listMentions loops ns

end

/-- Which variables of a block are emitted is told by how the block itself is. -/
theorem mentions_block (d : Dialect) (loops : List LoopScope) (kind : BlockKind)
    (args : Option Text) (children : List Node) :
    mentions loops (.block kind args children) =
      match Emission.of? d kind args with
      | none => []
      | some e => listMentions (loops ++ e.scope.toList) children := by
  cases kind with
  | when => simp [mentions, Emission.of?]
  | whenNot => simp [mentions, Emission.of?]
  | each =>
    rw [mentions, Emission.of?_each]
    cases LoopScope.of? args <;> rfl

end Node

namespace Walk

section

variable {o : Options} {kind : BlockKind} {args : Option Text} {children ns : List Node} {w : Walk}

theorem nodes_of_tooDeep (hdepth : o.maxDepth ≤ w.depth) :
    nodes o (.block kind args children :: ns) w = (.error (.tooDeep o.maxDepth), w) := by
  simp only [nodes, node, hdepth, if_true]

theorem nodes_of_dropped (hdepth : ¬ o.maxDepth ≤ w.depth)
    (he : Emission.of? o.dialect kind args = none) :
    nodes o (.block kind args children :: ns) w = nodes o ns w := by
  simp only [nodes, node, hdepth, if_false, he]

/-- Leaving a block undoes what entering it did, so the walk goes on with what has been written. -/
theorem nodes_of_passed {e : Emission} {fs : List Text} (hdepth : ¬ o.maxDepth ≤ w.depth)
    (he : Emission.of? o.dialect kind args = some e)
    (hc : nodes o children (w.enter e) = (.ok (), (w.enter e).wrote fs)) :
    nodes o (.block kind args children :: ns) w =
      nodes o ns (w.wrote (e.opening :: fs ++ [e.closing])) := by
  simp only [nodes, node, hdepth, if_false, he, hc, leave_enter, write_eq_wrote, wrote_wrote]

/-- A fault inside of a block leaves the block too. -/
theorem nodes_of_failed {e : Emission} {fault : Error} {fs : List Text}
    (hdepth : ¬ o.maxDepth ≤ w.depth) (he : Emission.of? o.dialect kind args = some e)
    (hc : nodes o children (w.enter e) = (.error fault, (w.enter e).wrote fs)) :
    nodes o (.block kind args children :: ns) w = (.error fault, w.wrote (e.opening :: fs)) := by
  simp only [nodes, node, hdepth, if_false, he, hc, leave_enter]

end

/-- The walk only writes: its scopes and its depth are in the end what they were in the beginning,
also when it stops at a block that is too deep. -/
theorem nodes_wrote (o : Options) (ns : List Node) (w : Walk) :
    ∃ result fs, nodes o ns w = (result, w.wrote fs) ∧
      (result = .ok () ∨ result = .error (.tooDeep o.maxDepth)) := by
  induction ns using Node.listInduction generalizing w with
  | nil => exact ⟨.ok (), [], rfl, .inl rfl⟩
  | text value ns ih =>
    obtain ⟨result, fs, hfs, hresult⟩ := ih (w.write value)
    rw [write_eq_wrote, wrote_wrote] at hfs
    exact ⟨result, _, hfs, hresult⟩
  | reference name ns ih =>
    obtain ⟨result, fs, hfs, hresult⟩ :=
      ih (w.write (o.dialect.interpolate (w.scopes.resolve o.dialect.loopIndex name)))
    rw [write_eq_wrote, wrote_wrote] at hfs
    exact ⟨result, _, hfs, hresult⟩
  | block kind args children ns ihc ihn =>
    by_cases hdepth : o.maxDepth ≤ w.depth
    · exact ⟨_, [], nodes_of_tooDeep hdepth, .inr rfl⟩
    cases he : Emission.of? o.dialect kind args with
    | none =>
      rw [nodes_of_dropped hdepth he]
      exact ihn w
    | some e =>
      obtain ⟨_, fs, hc, rfl | rfl⟩ := ihc (w.enter e)
      · rw [nodes_of_passed hdepth he hc]
        obtain ⟨result, gs, hgs, hresult⟩ := ihn (w.wrote (e.opening :: fs ++ [e.closing]))
        rw [wrote_wrote] at hgs
        exact ⟨result, _, hgs, hresult⟩
      · exact ⟨_, _, nodes_of_failed hdepth he hc, .inr rfl⟩

mutual

/-- The walk at a node, together with the variables that it emits, each with the scopes at that
moment. -/
def watchedNode (o : Options) : Node → Walk → (Except Error Unit × Walk) × List (Text × ScopeStack)
  | .text value, w => ((.ok (), w.write value), [])
  | .reference name, w =>
    ((.ok (), w.write (o.dialect.interpolate (w.scopes.resolve o.dialect.loopIndex name))),
      [(name, w.scopes)])
  | .block kind args children, w =>
    if o.maxDepth ≤ w.depth then ((.error (.tooDeep o.maxDepth), w), [])
    else
      match Emission.of? o.dialect kind args with
      | none => ((.ok (), w), [])
      | some e =>
        match watchedNodes o children (w.enter e) with
        | ((.ok (), w), seen) => ((.ok (), (w.leave e).write e.closing), seen)
        | ((.error fault, w), seen) => ((.error fault, w.leave e), seen)

def watchedNodes (o : Options) :
    List Node → Walk → (Except Error Unit × Walk) × List (Text × ScopeStack)
  | [], w => ((.ok (), w), [])
  | n :: ns, w =>
    match watchedNode o n w with
    | ((.ok (), w), seen) => ((watchedNodes o ns w).1, seen ++ (watchedNodes o ns w).2)
    | ((.error fault, w), seen) => ((.error fault, w), seen)

end

/-- Watching does not change the walk. -/
theorem watchedNodes_fst (o : Options) (ns : List Node) (w : Walk) :
    (watchedNodes o ns w).1 = nodes o ns w := by
  induction ns using Node.listInduction generalizing w with
  | nil => rfl
  | text value ns ih => exact ih _
  | reference name ns ih => exact ih _
  | block kind args children ns ihc ihn =>
    by_cases hdepth : o.maxDepth ≤ w.depth
    · simp only [watchedNodes, watchedNode, nodes, node, hdepth, if_true]
    cases he : Emission.of? o.dialect kind args with
    | none => simp only [watchedNodes, watchedNode, nodes, node, he, hdepth, if_false, ihn]
    | some e =>
      simp only [watchedNodes, watchedNode, nodes, node, he, hdepth, if_false, ← ihc]
      rcases watchedNodes o children (w.enter e) with ⟨⟨_ | _, inner⟩, seen⟩
      · rfl
      · exact ihn _

section

variable {o : Options} {kind : BlockKind} {args : Option Text} {children ns : List Node} {w : Walk}

theorem watchedNodes_of_tooDeep (hdepth : o.maxDepth ≤ w.depth) :
    (watchedNodes o (.block kind args children :: ns) w).2 = [] := by
  simp only [watchedNodes, watchedNode, hdepth, if_true]

theorem watchedNodes_of_dropped (hdepth : ¬ o.maxDepth ≤ w.depth)
    (he : Emission.of? o.dialect kind args = none) :
    (watchedNodes o (.block kind args children :: ns) w).2 = (watchedNodes o ns w).2 := by
  simp only [watchedNodes, watchedNode, hdepth, if_false, he, List.nil_append]

theorem watchedNodes_of_passed {e : Emission} {fs : List Text} (hdepth : ¬ o.maxDepth ≤ w.depth)
    (he : Emission.of? o.dialect kind args = some e)
    (hc : nodes o children (w.enter e) = (.ok (), (w.enter e).wrote fs)) :
    (watchedNodes o (.block kind args children :: ns) w).2 =
      (watchedNodes o children (w.enter e)).2 ++
        (watchedNodes o ns (w.wrote (e.opening :: fs ++ [e.closing]))).2 := by
  rw [← watchedNodes_fst] at hc
  simp only [watchedNodes, watchedNode, hdepth, if_false, he]
  generalize watchedNodes o children (w.enter e) = r at hc
  obtain ⟨_, seen⟩ := r
  subst hc
  simp only [leave_enter, write_eq_wrote, wrote_wrote]

theorem watchedNodes_of_failed {e : Emission} {fault : Error} {fs : List Text}
    (hdepth : ¬ o.maxDepth ≤ w.depth) (he : Emission.of? o.dialect kind args = some e)
    (hc : nodes o children (w.enter e) = (.error fault, (w.enter e).wrote fs)) :
    (watchedNodes o (.block kind args children :: ns) w).2 =
      (watchedNodes o children (w.enter e)).2 := by
  rw [← watchedNodes_fst] at hc
  simp only [watchedNodes, watchedNode, hdepth, if_false, he]
  generalize watchedNodes o children (w.enter e) = r at hc
  obtain ⟨_, seen⟩ := r
  subst hc
  rfl

end

/-- What was seen up to the result `r` is the front part of what there is to see, and all of it
unless the walk has failed. -/
def SeenOf {α : Type} (r : Except Error Unit) (seen all : List α) : Prop :=
  seen <+: all ∧ (r = .ok () → seen = all)

theorem SeenOf.append {α : Type} {r : Except Error Unit} {seen all more rest : List α}
    (h : SeenOf (.ok ()) seen all) (hmore : SeenOf r more rest) :
    SeenOf r (seen ++ more) (all ++ rest) := by
  obtain rfl := h.2 rfl
  refine ⟨(List.prefix_append_right_inj seen).2 hmore.1, fun hr => ?_⟩
  rw [hmore.2 hr]

theorem SeenOf.of_error {α : Type} {e : Error} {seen all : List α}
    (h : SeenOf (.error e) seen all) (rest : List α) : SeenOf (.error e) seen (all ++ rest) := by
  refine ⟨h.1.trans (List.prefix_append all rest), ?_⟩
  intro hr
  cases hr

/-- On the way, a variable is emitted with the scopes of the loops around it on top of those that
the walk was given, which are `base` and above them `loops`. -/
theorem watchedNodes_seenOf {o : Options} {ns : List Node} {w : Walk} {loops : List LoopScope}
    {base : ScopeStack} (hw : w.scopes = loops.foldl ScopeStack.enter base) :
    SeenOf (nodes o ns w).1 (watchedNodes o ns w).2
      ((Node.listMentions loops ns).map fun m => (m.1, m.2.foldl ScopeStack.enter base)) := by
  induction ns using Node.listInduction generalizing w loops with
  | nil => exact ⟨List.prefix_rfl, fun _ => rfl⟩
  | text value ns ih => exact ih hw
  | reference name ns ih =>
    rw [Node.listMentions, Node.mentions, List.map_append]
    have hhere :
        SeenOf (.ok ()) [(name, w.scopes)] [(name, loops.foldl ScopeStack.enter base)] := by
      rw [hw]
      exact ⟨List.prefix_rfl, fun _ => rfl⟩
    exact hhere.append (ih hw)
  | block kind args children ns ihc ihn =>
    rw [Node.listMentions, Node.mentions_block o.dialect, List.map_append]
    by_cases hdepth : o.maxDepth ≤ w.depth
    · rw [nodes_of_tooDeep hdepth, watchedNodes_of_tooDeep hdepth]
      exact SeenOf.of_error ⟨List.nil_prefix, by simp⟩ _
    cases he : Emission.of? o.dialect kind args with
    | none =>
      rw [nodes_of_dropped hdepth he, watchedNodes_of_dropped hdepth he]
      exact ihn hw
    | some e =>
      have henter : (w.enter e).scopes = (loops ++ e.scope.toList).foldl ScopeStack.enter base := by
        cases hs : e.scope <;> simp [enter, hs, hw]
      have hinner := ihc henter
      obtain ⟨_, fs, hc, rfl | rfl⟩ := nodes_wrote o children (w.enter e)
      · rw [nodes_of_passed hdepth he hc, watchedNodes_of_passed hdepth he hc]
        rw [hc] at hinner
        exact hinner.append (ihn hw)
      · rw [nodes_of_failed hdepth he hc, watchedNodes_of_failed hdepth he hc]
        rw [hc] at hinner
        exact hinner.of_error _

/-- The walk restores its state, from whatever state it starts. It ends well or with the limit of
depth as its fault; in either case the scopes and the depth are those of the beginning, and the
buffer still begins with what was in it. The variables it emits on the way are the emitted ones of
the tree in order, all of them if it ends well, and each finds the scopes of the beginning extended
by those of the emitted loops around it, from the outermost to the innermost. -/
theorem nodes_restores (o : Options) (tree : List Node) (w : Walk) :
    ((nodes o tree w).1 = .ok () ∨ (nodes o tree w).1 = .error (.tooDeep o.maxDepth)) ∧
    (nodes o tree w).2.scopes = w.scopes ∧ (nodes o tree w).2.depth = w.depth ∧
    w.written.reverse <+: (nodes o tree w).2.written.reverse ∧
    (watchedNodes o tree w).1 = nodes o tree w ∧
    SeenOf (nodes o tree w).1 (watchedNodes o tree w).2
      ((Node.listMentions [] tree).map fun m => (m.1, m.2.foldl ScopeStack.enter w.scopes)) := by
  obtain ⟨result, fs, hfs, hresult⟩ := nodes_wrote o tree w
  have hbuffer : (w.wrote fs).written.reverse = w.written.reverse ++ fs := by simp [wrote]
  refine ⟨by rwa [hfs], by rw [hfs, wrote_scopes], by rw [hfs, wrote_depth], ?_,
    watchedNodes_fst o tree w, watchedNodes_seenOf rfl⟩
  rw [hfs, hbuffer]
  exact List.prefix_append _ _

end Walk

end HandlebarsToTwig
