import HandlebarsToTwig.Proofs.Alphabetic
import HandlebarsToTwig.Proofs.DepthLimit
import HandlebarsToTwig.Proofs.Image
import HandlebarsToTwig.Proofs.Rendering
import HandlebarsToTwig.Proofs.Stream

/-! What the loops of an emitted template are called. A loop takes the first character of the last
segment of its path as its variable, whatever this character is; it is left out only if there is
none. So a loop binds an identifier exactly if that segment begins with one. -/
namespace HandlebarsToTwig

/-- The character that a path gives a loop as its variable. -/
def initial? (path : Text) : Option Char := (lastSegment (Text.trim path)).head?

theorem dot_notMem_lastSegment (path : Text) : '.' ∉ lastSegment path := by
  intro h
  have hdot := List.mem_takeWhile_imp (List.mem_reverse.1 h)
  simp at hdot

theorem initial?_ne_dot (path : Text) : initial? path ≠ some '.' := by
  intro h
  exact dot_notMem_lastSegment _ (List.mem_of_head? h)

/-- A path without a last segment is empty or ends in a dot. -/
theorem initial?_eq_none {path : Text} :
    initial? path = none ↔ Text.trim path = [] ∨ (Text.trim path).getLast? = some '.' := by
  rw [initial?, List.head?_eq_none_iff, lastSegment, List.reverse_eq_nil_iff,
    ← List.head?_reverse, ← @List.reverse_eq_nil_iff _ (Text.trim path)]
  cases (Text.trim path).reverse <;> simp

/-- The tag that opens a loop with these arguments. -/
def loopTag? (d : Dialect) (args : Option Text) : Option Text :=
  args.bind fun path => (initial? path).map fun c => d.openFor [c] (Text.trim path)

/-- The same for loops that are left out unless they bind an identifier. -/
def identifiedTag? (d : Dialect) (args : Option Text) : Option Text :=
  args.bind fun path =>
    ((initial? path).filter Text.isIdentifier).map fun c => d.openFor [c] (Text.trim path)

theorem LoopScope.of?_some (path : Text) :
    LoopScope.of? (some path) = (initial? path).map fun c => ⟨[c], Text.trim path⟩ := by
  rw [LoopScope.of?, Option.bind_some, iteratorFor, Option.map_map]
  rfl

theorem map_opening_of?_each (d : Dialect) (args : Option Text) :
    (Emission.of? d .each args).map Emission.opening = loopTag? d args := by
  cases args with
  | none => rfl
  | some path =>
    rw [Emission.of?_each, LoopScope.of?_some, Option.map_map, Option.map_map]
    rfl

/-- Leaving out the loops that bind no identifier makes a difference to those loops only. -/
theorem loopTag?_eq_identifiedTag?_iff (d : Dialect) (args : Option Text) :
    loopTag? d args = identifiedTag? d args ↔
      ∀ path ∈ args, ∀ c ∈ initial? path, Text.isIdentifier c := by
  cases args with
  | none => simp [loopTag?, identifiedTag?]
  | some path =>
    cases hc : initial? path with
    | none => simp [loopTag?, identifiedTag?, hc]
    | some c =>
      cases hi : Text.isIdentifier c <;> simp [loopTag?, identifiedTag?, hc, hi, Option.filter]

namespace Stream

variable {d : Dialect} {stack : List Frame}

/-- A pass over two lists of tokens is a pass over the first and then one over the second. -/
theorem run_of_append {xs ys : List Token} {fragments : List (Option Text)} {final : List Frame}
    (h : run d stack (xs ++ ys) = some (fragments, final)) :
    ∃ fs mid gs, run d stack xs = some (fs, mid) ∧ run d mid ys = some (gs, final) ∧
      fragments = fs ++ gs := by
  induction xs generalizing stack fragments with
  | nil => exact ⟨[], stack, fragments, rfl, h, rfl⟩
  | cons token xs ih =>
    obtain ⟨f, next, rest, hstep, hrest, rfl⟩ := run_cons.1 h
    obtain ⟨fs, mid, gs, hx, hy, rfl⟩ := ih hrest
    exact ⟨f :: fs, mid, gs, run_cons.2 ⟨f, next, fs, hstep, hx, rfl⟩, hy, rfl⟩

/-- What the opening tag of a loop yields, wherever it stands. -/
theorem run_each {before after : List Token} {args : Option Text} {fragments : List (Option Text)}
    {final : List Frame}
    (h : run d stack (before ++ .opening BlockKind.each.name args :: after) =
      some (fragments, final)) :
    ∃ fs around fragment gs, fragments = fs ++ fragment :: gs ∧
      run d stack before = some (fs, around) ∧
      fragment = if dropping around then none else loopTag? d args := by
  obtain ⟨fs, around, rest, hbefore, hrest, rfl⟩ := run_of_append h
  obtain ⟨fragment, next, gs, hstep, -, rfl⟩ := run_cons.1 hrest
  refine ⟨fs, around, fragment, gs, rfl, hbefore, ?_⟩
  cases hs : dropping around with
  | true =>
    simp only [step, hs, if_true, Option.some.injEq, Prod.mk.injEq] at hstep
    exact hstep.1.symm
  | false =>
    rw [← map_opening_of?_each]
    rcases opened_cases (d := d) .each args with ⟨he, ho⟩ | ⟨e, role, he, ho, -⟩
    all_goals
      simp only [step, hs, ho, he, Bool.false_eq_true, if_false, Option.map_some, Option.some.injEq,
        Prod.mk.injEq] at hstep ⊢
      exact hstep.1.symm

end Stream

/-- A template with one loop and nothing in it, over any path that can be written in a tag. -/
theorem exists_transpile_loop {o : Options} (ho : 0 < o.maxDepth) {path : Text}
    (hpiece : IsPiece path) {c : Char} (hc : initial? path = some c) :
    ∃ source, transpile o source = .ok (joined [o.dialect.openFor [c] path, o.dialect.endFor]) := by
  let tree : List Node := [.block .each (some path) []]
  have hexpressible : Node.ListExpressible tree := by
    simp [tree, Node.ListExpressible, Node.Expressible, hpiece, Node.isText]
  have hnesting : Node.listNesting tree ≤ o.maxDepth := by
    simp only [tree, Node.listNesting, Node.nesting]
    omega
  have hsource := Node.ofSource_eq_ok_of_expressible hexpressible hnesting
  have hfragments : Node.listFragments o.dialect none tree =
      [o.dialect.openFor [c] path, o.dialect.endFor] := by
    have hemission := Emission.of?_each o.dialect (some path)
    rw [LoopScope.of?_some, hc, hpiece.trimmed] at hemission
    simp [tree, Node.listFragments, Node.fragments, hemission]
  refine ⟨Token.written false (Node.listTokens tree), ?_⟩
  rw [transpile_eq_map, hsource, ← hfragments]
  rfl

/-- A segment can begin with any character but the dot, also with a blank or a brace. -/
theorem exists_isPiece_initial? {c : Char} (hc : c ≠ '.') :
    ∃ path, IsPiece path ∧ initial? path = some c := by
  let path : Text := ['a', '.', c, 'b']
  have htrim : Text.trim path = path := by
    have hstart : Text.trimStart path = path := List.dropWhile_cons_of_neg (by decide)
    have hend : Text.trimEnd path = path :=
      List.rdropWhile_concat_neg Text.isBlank ['a', '.', c] 'b' (by decide)
    exact Text.trim_eq_self.2 ⟨hstart, hend⟩
  refine ⟨path, ⟨by simp [path], htrim, ?_⟩, ?_⟩
  · simp [path, Lexeme.tagClose, List.infix_cons_iff, List.cons_prefix_cons]
  · rw [initial?, htrim]
    simp [lastSegment, path, hc]

/-- What loops bind, for all templates and all options under which they are translated. The output
is joined from what one pass over the lexemes yields. There, the opening tag of a loop yields a
`for` tag whose variable is the first character of the last segment of its path. It yields nothing
if the path is absent, empty or ends in a dot, or if the loop stands inside of one that is left out.
This is what binding only identifiers would yield exactly if the character, when there is one, is
alphabetic or an underscore. But any character except the dot occurs as such a variable. -/
theorem transpile_loops_identified_iff (o : Options) (source : Text) :
    (∀ out, transpile o source = .ok out →
      ∃ lexemes fragments, Lexeme.ofSource source = .ok lexemes ∧
        Stream.run o.dialect [] (lexemes.map Lexeme.token) = some (fragments, []) ∧
        out = joined fragments.reduceOption ∧
        ∀ before args after,
          lexemes.map Lexeme.token = before ++ .opening BlockKind.each.name args :: after →
          ∃ fs around fragment gs, fragments = fs ++ fragment :: gs ∧
            Stream.run o.dialect [] before = some (fs, around) ∧
            (Stream.dropping around = true → fragment = none) ∧
            (Stream.dropping around = false → fragment = loopTag? o.dialect args ∧
              (fragment = identifiedTag? o.dialect args ↔
                ∀ path ∈ args, ∀ c ∈ initial? path, Text.isIdentifier c))) ∧
    (∀ path, initial? path = none ↔
      Text.trim path = [] ∨ (Text.trim path).getLast? = some '.') ∧
    (0 < o.maxDepth → ∀ c,
      (∃ path, initial? path = some c ∧ ∃ loop,
        transpile o loop = .ok (joined [o.dialect.openFor [c] path, o.dialect.endFor])) ↔
      c ≠ '.') := by
  refine ⟨fun out h => ?_, fun path => initial?_eq_none, fun ho c => ⟨?_, fun hc => ?_⟩⟩
  · obtain ⟨ls, fragments, hls, hrun, hout⟩ := exists_run_of_transpile h
    refine ⟨ls, fragments, hls, hrun, hout, fun before args after hsplit => ?_⟩
    rw [hsplit] at hrun
    obtain ⟨fs, around, fragment, gs, hfs, hbefore, rfl⟩ := Stream.run_each hrun
    refine ⟨fs, around, _, gs, hfs, hbefore, fun hs => by rw [if_pos hs], fun hs => ?_⟩
    rw [hs, if_neg Bool.false_ne_true]
    exact ⟨rfl, loopTag?_eq_identifiedTag?_iff o.dialect args⟩
  · rintro ⟨path, hpath, -⟩ rfl
    exact initial?_ne_dot path hpath
  · obtain ⟨path, hpiece, hpath⟩ := exists_isPiece_initial? hc
    exact ⟨path, hpath, exists_transpile_loop ho hpiece hpath⟩

/-- A loop inside of a loop, whose variable is the underscore, with a loop in front of it that is
left out. -/
theorem transpile_loops_identified_underscore :
    let opening (s : String) := TagFault.tagged '#' s.toList
    let closing := TagFault.tagged '/' "each".toList
    let source := opening "each rows" ++ opening "each rows." ++ closing ++
      opening "each this._cells " ++ "{{this}}".toList ++ closing ++ closing
    let path : Text := "this._cells".toList
    transpile {} source =
      .ok "{% for r in rows %} {% for _ in this._cells %} {{_}} {% endfor %} {% endfor %}".toList ∧
    initial? path = some '_' ∧ Text.isIdentifier '_' ∧
    ∃ lexemes fragments fs gs, Lexeme.ofSource source = .ok lexemes ∧
      Stream.run {} [] (lexemes.map Lexeme.token) = some (fragments, []) ∧
      fragments = fs ++ identifiedTag? {} (some path) :: gs := by
  intro opening closing source path
  have h : transpile {} source = .ok
      "{% for r in rows %} {% for _ in this._cells %} {{_}} {% endfor %} {% endfor %}".toList := by
    decide +kernel
  have hpath : initial? path = some '_' := by decide
  have hidentifier : Text.isIdentifier '_' := by decide
  obtain ⟨lexemes, fragments, hls, hrun, -, heach⟩ :=
    (transpile_loops_identified_iff {} source).1 _ h
  let before : List Token := [.opening "each".toList (some "rows".toList),
    .opening "each".toList (some "rows.".toList), .closing "each".toList]
  let after : List Token :=
    [.reference "this".toList, .closing "each".toList, .closing "each".toList]
  have htokens :
      lexemes.map Lexeme.token = before ++ .opening "each".toList (some path) :: after := by
    have htokens : (Lexeme.ofSource source).map (·.map Lexeme.token) =
        .ok (before ++ .opening "each".toList (some path) :: after) := by decide +kernel
    rw [hls] at htokens
    exact Except.ok.inj htokens
  obtain ⟨fs, around, fragment, gs, hfragments, hbefore, -, hemitted⟩ := heach _ _ _ htokens
  have haround : (Stream.run {} [] before).map (Stream.dropping ·.2) = some false := by
    decide +kernel
  rw [hbefore] at haround
  have hfragment := (hemitted (Option.some.inj haround)).2.2 (by
    rintro _ ⟨rfl⟩ c hc
    rw [hpath] at hc
    cases hc
    exact hidentifier)
  exact ⟨h, hpath, hidentifier, lexemes, fragments, fs, gs, hls, hrun, hfragment ▸ hfragments⟩

/-- An index, the elements of the parent and a blank behind a dot: loops over these paths are
emitted with a bracket, a slash and a blank for a variable. -/
theorem transpile_loops_unidentified :
    let source (path : Text) := TagFault.tagged '#' ("each ".toList ++ path) ++ ['x'] ++
      TagFault.tagged '/' "each".toList
    let paths : List (Text × Char) :=
      [("[0]".toList, '['), ("../items".toList, '/'), ("a. b".toList, ' ')]
    ∀ loop ∈ paths, initial? loop.1 = some loop.2 ∧ Text.isIdentifier loop.2 = false ∧
      transpile {} (source loop.1) = .ok ("\x7b% for ".toList ++ loop.2 :: " in ".toList ++
        loop.1 ++ " %\x7d x \x7b% endfor %\x7d".toList) := by
  decide +kernel

end HandlebarsToTwig
