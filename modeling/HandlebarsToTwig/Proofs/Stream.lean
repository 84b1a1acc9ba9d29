import HandlebarsToTwig.Proofs.Emission
import HandlebarsToTwig.Proofs.Grammar
import HandlebarsToTwig.Transpile
import Mathlib.Control.Monad.Basic
import Mathlib.Data.List.ReduceOption

/-! Translation in one pass. The tokens of a template are read once from left to right, with a stack
of open blocks and without a tree; what they yield is what the parser and the emitter produce
together. -/
namespace HandlebarsToTwig

namespace Stream

/-- What becomes of a block that is open. -/
inductive Role
  | conditional
  | loop (scope : LoopScope)
  /-- A loop without an iterator, or a block inside such a loop. -/
  | dropped
  deriving DecidableEq, Repr

/-- A block whose closing tag has not come yet. -/
structure Frame where
  helper : Text
  role : Role
  deriving DecidableEq, Repr

def Frame.scope? (f : Frame) : Option LoopScope :=
  match f.role with
  | .loop scope => some scope
  | _ => none

/-- Whether everything up to the next closing tag is dropped; the innermost block comes first. -/
def dropping (stack : List Frame) : Bool := stack.head?.any (·.role = .dropped)

/-- The innermost loop that is emitted. -/
def innermost (stack : List Frame) : Option LoopScope := stack.findSome? Frame.scope?

/-- What becomes of a block with this opening tag, and the fragment that the tag yields. -/
def opened (d : Dialect) (helper : Text) (args : Option Text) : Option (Role × Option Text) :=
  if helper = "if".toList then some (.conditional, some (d.openIf (args.getD [])))
  else if helper = "unless".toList then some (.conditional, some (d.openIfNot (args.getD [])))
  else if helper = "each".toList then
    match args, args.bind iteratorFor with
    | some path, some iterator =>
      some (.loop ⟨iterator, Text.trim path⟩, some (d.openFor iterator (Text.trim path)))
    | _, _ => some (.dropped, none)
  else none

/-- The fragment that a closing tag yields. -/
def closed (d : Dialect) : Role → Option Text
  | .conditional => some d.endIf
  | .loop _ => some d.endFor
  | .dropped => none

/-- One step: the fragment that a token yields, none if it is dropped, and the stack after it. There
is no step for a token that cannot stand here. -/
def step (d : Dialect) (stack : List Frame) : Token → Option (Option Text × List Frame)
  | .text value => some (if dropping stack then none else some value, stack)
  | .reference name =>
    let resolved := ScopeStack.resolve (innermost stack).toList d.loopIndex name
    some (if dropping stack then none else some (d.interpolate resolved), stack)
  | .opening helper args =>
    if dropping stack then some (none, ⟨helper, .dropped⟩ :: stack)
    else (opened d helper args).map fun (role, fragment) => (fragment, ⟨helper, role⟩ :: stack)
  | .closing helper =>
    match stack with
    | f :: stack => if f.helper = helper then some (closed d f.role, stack) else none
    | [] => none
  | _ => none

/-- The whole pass: what each token yields, in order, and the stack at the end. -/
def run (d : Dialect) : List Frame → List Token → Option (List (Option Text) × List Frame)
  | stack, [] => some ([], stack)
  | stack, token :: tokens => do
    let (fragment, stack) ← step d stack token
    let (fragments, stack) ← run d stack tokens
    pure (fragment :: fragments, stack)

variable {d : Dialect} {stack : List Frame}

theorem run_cons {token : Token} {tokens : List Token} {fragments : List (Option Text)}
    {final : List Frame} :
    run d stack (token :: tokens) = some (fragments, final) ↔
      ∃ f next fs, step d stack token = some (f, next) ∧ run d next tokens = some (fs, final) ∧
        fragments = f :: fs := by
  simp only [run, bind, Option.bind_eq_some_iff, pure, Option.some.injEq, Prod.mk.injEq, Prod.exists]
  constructor
  · rintro ⟨f, next, hs, fs, _, hr, rfl, rfl⟩
    exact ⟨f, next, fs, hs, hr, rfl⟩
  · rintro ⟨f, next, fs, hs, hr, rfl⟩
    exact ⟨f, next, hs, fs, final, hr, rfl, rfl⟩

theorem run_append {xs ys : List Token} {fs gs : List (Option Text)} {next final : List Frame}
    (hx : run d stack xs = some (fs, next)) (hy : run d next ys = some (gs, final)) :
    run d stack (xs ++ ys) = some (fs ++ gs, final) := by
  induction xs generalizing stack fs with
  | nil =>
    obtain ⟨rfl, rfl⟩ := Prod.mk.inj (Option.some.inj hx)
    exact hy
  | cons token xs ih =>
    obtain ⟨f, mid, fs, hs, hr, rfl⟩ := run_cons.1 hx
    exact run_cons.2 ⟨f, mid, fs ++ gs, hs, ih hr, rfl⟩

/-- Every token is accounted for. -/
theorem run_length {tokens : List Token} {fragments : List (Option Text)} {final : List Frame}
    (h : run d stack tokens = some (fragments, final)) : fragments.length = tokens.length := by
  induction tokens generalizing stack fragments with
  | nil =>
    obtain ⟨rfl, rfl⟩ := Prod.mk.inj (Option.some.inj h)
    rfl
  | cons token tokens ih =>
    obtain ⟨f, next, fs, hs, hr, rfl⟩ := run_cons.1 h
    simp [ih hr]

/-- The tokens of a block in a pass: its opening tag, its body, its closing tag. -/
theorem run_block {kind : BlockKind} {args : Option Text} {children : List Node} {role : Role}
    {f : Option Text} {fs : List (Option Text)}
    (ho : step d stack (.opening kind.name args) = some (f, ⟨kind.name, role⟩ :: stack))
    (hb : run d (⟨kind.name, role⟩ :: stack) (Node.listTokens children) =
      some (fs, ⟨kind.name, role⟩ :: stack)) :
    run d stack (Node.tokens (.block kind args children)) =
      some (f :: fs ++ [closed d role], stack) := by
  rw [Node.tokens, List.cons_append]
  refine run_cons.2 ⟨f, _, fs ++ [closed d role], ho, run_append hb ?_, rfl⟩
  exact run_cons.2 ⟨_, _, [], by simp [step], rfl, rfl⟩

/-- Inside a dropped block nothing is emitted, and the stack comes back. -/
theorem run_dropping (tree : List Node) (hs : dropping stack) :
    ∃ fs, run d stack (Node.listTokens tree) = some (fs, stack) ∧ fs.reduceOption = [] := by
  induction tree using Node.listInduction generalizing stack with
  | nil => exact ⟨[], rfl, rfl⟩
  | text value ns ih =>
    obtain ⟨fs, hr, hf⟩ := ih hs
    exact ⟨none :: fs, run_cons.2 ⟨none, stack, fs, by simp [step, hs], hr, rfl⟩, by simpa using hf⟩
  | reference name ns ih =>
    obtain ⟨fs, hr, hf⟩ := ih hs
    exact ⟨none :: fs, run_cons.2 ⟨none, stack, fs, by simp [step, hs], hr, rfl⟩, by simpa using hf⟩
  | block kind args children ns ihc ihn =>
    have hd : dropping (⟨kind.name, .dropped⟩ :: stack) := by simp [dropping]
    have ho : step d stack (.opening kind.name args) =
        some (none, ⟨kind.name, .dropped⟩ :: stack) := by simp [step, hs]
    obtain ⟨fs, hc, hf⟩ := ihc hd
    obtain ⟨gs, hn, hg⟩ := ihn hs
    exact ⟨_, run_append (run_block ho hc) hn, by simp [List.reduceOption_append, hf, hg, closed]⟩

/-- A block is dropped if it has no emission; else its two tags yield those of the emission, and
its frame holds the emission's scope. -/
theorem opened_cases (kind : BlockKind) (args : Option Text) :
    (Emission.of? d kind args = none ∧ opened d kind.name args = some (.dropped, none)) ∨
      ∃ e role, Emission.of? d kind args = some e ∧
        opened d kind.name args = some (role, some e.opening) ∧ closed d role = some e.closing ∧
        role ≠ .dropped ∧ (Frame.mk kind.name role).scope? = e.scope := by
  cases kind with
  | when => exact .inr ⟨_, .conditional, rfl, rfl, rfl, by simp, rfl⟩
  | whenNot => exact .inr ⟨_, .conditional, rfl, rfl, rfl, by simp, rfl⟩
  | each =>
    cases args with
    | none => exact .inl ⟨rfl, rfl⟩
    | some path =>
      have hopened : opened d BlockKind.each.name (some path) =
          (iteratorFor path).elim (some (.dropped, none)) fun iterator =>
            some (.loop ⟨iterator, Text.trim path⟩, some (d.openFor iterator (Text.trim path))) := by
        have hif : BlockKind.each.name ≠ "if".toList := by decide
        have hunless : BlockKind.each.name ≠ "unless".toList := by decide
        have heach : BlockKind.each.name = "each".toList := rfl
        unfold opened
        rw [if_neg hif, if_neg hunless, if_pos heach, Option.bind_some]
        cases iteratorFor path <;> rfl
      cases h : iteratorFor path with
      | none => exact .inl ⟨by simp [Emission.of?, h], by rw [hopened, h, Option.elim_none]⟩
      | some iterator =>
        refine .inr ⟨_, .loop ⟨iterator, Text.trim path⟩, by simp [Emission.of?, h]; rfl, ?_⟩
        rw [hopened, h]
        exact ⟨rfl, rfl, by simp, rfl⟩

/-- Outside of dropped blocks the pass yields the fragments of the tree, and the stack comes
back. -/
theorem run_emitting (tree : List Node) (hs : dropping stack = false) :
    ∃ fs, run d stack (Node.listTokens tree) = some (fs, stack) ∧
      fs.reduceOption = Node.listFragments d (innermost stack) tree := by
  induction tree using Node.listInduction generalizing stack with
  | nil => exact ⟨[], rfl, rfl⟩
  | text value ns ih =>
    obtain ⟨fs, hr, hf⟩ := ih hs
    refine ⟨some value :: fs, run_cons.2 ⟨_, stack, fs, by simp [step, hs], hr, rfl⟩, ?_⟩
    simp [hf, Node.listFragments, Node.fragments]
  | reference name ns ih =>
    obtain ⟨fs, hr, hf⟩ := ih hs
    refine ⟨_, run_cons.2 ⟨_, stack, fs, by simp [step, hs]; rfl, hr, rfl⟩, ?_⟩
    simp [hf, Node.listFragments, Node.fragments]
  | block kind args children ns ihc ihn =>
    obtain ⟨gs, hn, hg⟩ := ihn hs
    rcases opened_cases (d := d) kind args with ⟨he, ho⟩ | ⟨e, role, he, ho, hc, hrole, hscope⟩
    · have hd : dropping (⟨kind.name, .dropped⟩ :: stack) := by simp [dropping]
      obtain ⟨fs, hr, hf⟩ := run_dropping (d := d) children hd
      have hstep : step d stack (.opening kind.name args) =
          some (none, ⟨kind.name, .dropped⟩ :: stack) := by simp [step, hs, ho]
      refine ⟨_, run_append (run_block hstep hr) hn, ?_⟩
      simp [List.reduceOption_append, hf, hg, closed, Node.listFragments, Node.fragments, he]
    · have hd : dropping (⟨kind.name, role⟩ :: stack) = false := by simp [dropping, hrole]
      obtain ⟨fs, hr, hf⟩ := ihc hd
      have hstep : step d stack (.opening kind.name args) =
          some (some e.opening, ⟨kind.name, role⟩ :: stack) := by simp [step, hs, ho]
      have hinner : innermost (⟨kind.name, role⟩ :: stack) = e.scope.or (innermost stack) := by
        cases h : e.scope <;> simp [innermost, hscope, h]
      refine ⟨_, run_append (run_block hstep hr) hn, ?_⟩
      simp [List.reduceOption_append, hf, hg, hc, hinner, Node.listFragments, Node.fragments, he]

end Stream

/-- The output is joined from what one pass over the lexemes yields. -/
theorem exists_run_of_transpile {o : Options} {source out : Text}
    (h : transpile o source = .ok out) :
    ∃ lexemes fragments, Lexeme.ofSource source = .ok lexemes ∧
      Stream.run o.dialect [] (lexemes.map Lexeme.token) = some (fragments, []) ∧
      out = joined fragments.reduceOption := by
  unfold transpile at h
  cases ht : Node.ofSource source o.maxDepth with
  | error e => simp [ht, bind, Except.bind] at h
  | ok tree =>
    have hr : render o tree = .ok out := by simpa [ht, bind, Except.bind] using h
    obtain ⟨ls, hls, htokens, -⟩ := Node.ofSource_eq_ok_iff.1 ht
    have hs : Stream.dropping [] = false := rfl
    obtain ⟨fs, hrun, hfs⟩ := Stream.run_emitting (d := o.dialect) tree hs
    refine ⟨ls, fs, hls, htokens ▸ hrun, ?_⟩
    rw [render_ok hr, hfs]
    rfl

/-- Every output is the join, by single spaces, of what one pass over the lexemes yields. The pass
accounts for every lexeme in order, and only those of dropped loops yield nothing. -/
theorem transpile_eq_joined_stream {o : Options} {source out : Text}
    (h : transpile o source = .ok out) :
    ∃ lexemes fragments, Lexeme.ofSource source = .ok lexemes ∧
      Stream.run o.dialect [] (lexemes.map Lexeme.token) = some (fragments, []) ∧
      fragments.length = lexemes.length ∧ out = joined fragments.reduceOption := by
  obtain ⟨lexemes, fragments, hlexemes, hrun, hout⟩ := exists_run_of_transpile h
  have hlength : fragments.length = lexemes.length := by
    rw [Stream.run_length hrun, List.length_map]
  exact ⟨lexemes, fragments, hlexemes, hrun, hlength, hout⟩

/-- A loop without a path inside two nested loops, and a reference to the outer element after the
inner loop. -/
theorem transpile_eq_joined_stream_nested :
    let opening (s : String) := TagFault.tagged '#' s.toList
    let closing (s : String) := TagFault.tagged '/' s.toList
    let source := opening "each rows" ++ opening "if this.on" ++ opening "each" ++ "gone".toList ++
      closing "each" ++ opening "each cells" ++ "{{this}}".toList ++ closing "each" ++
      "{{this}}".toList ++ closing "if" ++ closing "each"
    let out := ("{% for r in rows %} {% if this.on %} {% for c in cells %} {{c}} {% endfor %} " ++
      "{{r}} {% endif %} {% endfor %}").toList
    transpile {} source = .ok out ∧
      ∃ lexemes fragments, Lexeme.ofSource source = .ok lexemes ∧
        Stream.run {} [] (lexemes.map Lexeme.token) = some (fragments, []) ∧
        fragments.length = lexemes.length ∧ out = joined fragments.reduceOption := by
  intro opening closing source out
  have h : transpile {} source = .ok out := by decide +kernel
  exact ⟨h, transpile_eq_joined_stream h⟩

end HandlebarsToTwig
