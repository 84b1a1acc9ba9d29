import HandlebarsToTwig.Proofs.Emission
import HandlebarsToTwig.Proofs.FirstFault
import HandlebarsToTwig.Transpile
import Mathlib.Control.Monad.Basic

/-! The depth limit. The parser counts the open blocks and the emitter the blocks around the current
node, and whatever the parser lets through the emitter does too. A higher limit changes no answer
but those that report the limit itself. -/
namespace HandlebarsToTwig

namespace OpenBlocks

variable {limit limit' : Nat} {opened : OpenBlocks}

/-- Only an opening tag looks at the limit. -/
theorem step_of_limit_le (h : limit ≤ limit') {l : Lexeme}
    (hne : step limit opened l ≠ .error (.tooDeep limit)) :
    step limit' opened l = step limit opened l := by
  cases hl : l.token with
  | opening helper args =>
    cases hk : BlockKind.ofName? helper with
    | none => simp [step, hl, Token.unsupported?, mem_knownHelpers, hk]
    | some kind =>
      obtain rfl := BlockKind.ofName?_eq_some.1 hk
      simp only [step_of_known hl] at hne ⊢
      by_cases hfull : limit ≤ opened.length
      · exact absurd (if_pos hfull) hne
      · rw [if_neg hfull, if_neg (by omega)]
  | _ => simp only [step, hl, Token.unsupported?]

theorem run_of_limit_le (h : limit ≤ limit') {ls : List Lexeme}
    (hne : run limit opened ls ≠ .error (.tooDeep limit)) :
    run limit' opened ls = run limit opened ls := by
  induction ls generalizing opened with
  | nil => rfl
  | cons l ls ih =>
    simp only [run, List.foldlM_cons] at hne ⊢
    have hstep : step limit' opened l = step limit opened l := by
      apply step_of_limit_le h
      intro hdeep
      rw [hdeep] at hne
      exact hne rfl
    rw [hstep]
    cases hs : step limit opened l with
    | error e => rfl
    | ok next =>
      rw [hs] at hne
      exact ih hne

/-- Both passes stop at the same lexeme with the same fault, unless the lower limit stops one. -/
theorem check_of_limit_le (h : limit ≤ limit') {ls : List Lexeme}
    (hne : check limit opened ls ≠ .error (.tooDeep limit)) :
    check limit' opened ls = check limit opened ls := by
  have hrun : run limit' opened ls = run limit opened ls := by
    apply run_of_limit_le h
    intro hdeep
    apply hne
    rw [check, hdeep]
    rfl
  rw [check, check, hrun]

end OpenBlocks

variable {source : Text} {limit limit' : Nat}

theorem Node.ofSource_of_limit_le (h : limit ≤ limit')
    (hne : Node.ofSource source limit ≠ .error (.tooDeep limit)) :
    Node.ofSource source limit' = Node.ofSource source limit := by
  cases hs : Node.ofSource source limit with
  | ok tree =>
    have hn := Node.listNesting_le_of_ofSource hs
    exact Node.ofSource_of_listNesting_le hs (Nat.le_trans hn h)
  | error e =>
    rw [Ne, Node.ofSource_eq_error_iff] at hne
    rw [Node.ofSource_eq_error_iff] at hs ⊢
    cases hl : Lexeme.ofSource source with
    | error e' => rwa [hl] at hs
    | ok ls =>
      rw [hl] at hs hne
      exact (OpenBlocks.check_of_limit_le h hne).trans hs

/-- Under a lower limit than that of a parse, only nesting can be at fault. -/
theorem Node.ofSource_of_le_limit (h : limit ≤ limit') {tree : List Node}
    (ht : Node.ofSource source limit' = .ok tree) :
    Node.ofSource source limit =
      if limit < Node.listNesting tree then .error (.tooDeep limit) else .ok tree := by
  by_cases hdeep : limit < Node.listNesting tree
  · rw [if_pos hdeep]
    by_cases hs : Node.ofSource source limit = .error (.tooDeep limit)
    · exact hs
    · -- Both limits would give this tree, but it does not fit under the lower one.
      have htree := (Node.ofSource_of_limit_le h hs).symm.trans ht
      have hn := Node.listNesting_le_of_ofSource htree
      omega
  · rw [if_neg hdeep]
    exact Node.ofSource_of_listNesting_le ht (Nat.not_lt.1 hdeep)

/-- Emitting never fails behind the parser: the output is made of the tree's fragments. -/
theorem transpile_eq_map (o : Options) (source : Text) :
    transpile o source = (Node.ofSource source o.maxDepth).map fun tree =>
      joined (Node.listFragments o.dialect none tree) := by
  unfold transpile
  cases ht : Node.ofSource source o.maxDepth with
  | error e => rfl
  | ok tree => exact render_of_ofSource ht

/-- A condition in a loop without a path, which the parser reads and the emitter leaves out. -/
def droppedCondition : Text :=
  TagFault.tagged '#' "each".toList ++ TagFault.tagged '#' "if a".toList ++
    TagFault.tagged '/' "if".toList ++ TagFault.tagged '/' "each".toList ++ "y".toList

theorem ofSource_droppedCondition :
    Node.ofSource droppedCondition 2 =
      .ok [.block .each none [.block .when (some ['a']) []], .text ['y']] :=
  Node.ofSource_eq_ok_iff_map.2 ⟨by decide +kernel, by decide⟩

/-- The two depth checks agree, for every template and all options: a tree that the parser gives
under the limit is emitted under it, so a template is refused exactly when the parser refuses it,
and for the same reason. -/
theorem transpile_eq_error_iff (o : Options) (source : Text) :
    (∀ tree, Node.ofSource source o.maxDepth = .ok tree →
      ∃ out, render o tree = .ok out ∧ transpile o source = .ok out) ∧
    ∀ e, transpile o source = .error e ↔ Node.ofSource source o.maxDepth = .error e := by
  constructor
  · intro tree ht
    refine ⟨_, render_of_ofSource ht, ?_⟩
    rw [transpile_eq_map, ht]
    rfl
  · intro e
    rw [transpile_eq_map]
    cases Node.ofSource source o.maxDepth <;> simp [Except.map]

/-- The emitter alone would pass the tree of this template under a limit of one, but the parser does
not, and its error is the answer. -/
theorem transpile_eq_error_iff_dropped :
    let tree : List Node := [.block .each none [.block .when (some ['a']) []], .text ['y']]
    (Node.ofSource droppedCondition 2 = .ok tree ∧
      ∃ out, render { maxDepth := 2 } tree = .ok out ∧
        transpile { maxDepth := 2 } droppedCondition = .ok out) ∧
    render { maxDepth := 1 } tree = .ok ['y'] ∧
    Node.ofSource droppedCondition 1 = .error (.tooDeep 1) ∧
    transpile { maxDepth := 1 } droppedCondition = .error (.tooDeep 1) := by
  intro tree
  have hrefused : Node.ofSource droppedCondition 1 = .error (.tooDeep 1) :=
    Node.ofSource_of_le_limit (by decide) ofSource_droppedCondition
  refine ⟨⟨ofSource_droppedCondition, ?_⟩, rfl, hrefused, ?_⟩
  · exact (transpile_eq_error_iff { maxDepth := 2 } droppedCondition).1 tree
      ofSource_droppedCondition
  · exact ((transpile_eq_error_iff { maxDepth := 1 } droppedCondition).2 _).2 hrefused

/-- A higher limit keeps every answer that does not report the lower one, be it an output or any
other error. Where the higher limit gives an output, the lower one gives the same, or reports itself
exactly if the blocks of the tree nest deeper than it allows. -/
theorem transpile_of_limit_le (d : Dialect) (source : Text) {limit limit' : Nat}
    (h : limit ≤ limit') :
    (transpile ⟨d, limit⟩ source ≠ .error (.tooDeep limit) →
      transpile ⟨d, limit'⟩ source = transpile ⟨d, limit⟩ source) ∧
    ∀ out, transpile ⟨d, limit'⟩ source = .ok out →
      ∃ tree, Node.ofSource source limit' = .ok tree ∧
        transpile ⟨d, limit⟩ source =
          if limit < Node.listNesting tree then .error (.tooDeep limit) else .ok out := by
  simp only [transpile_eq_map]
  constructor
  · intro hne
    have hparse : Node.ofSource source limit ≠ .error (.tooDeep limit) := by
      intro hdeep
      rw [hdeep] at hne
      exact hne rfl
    rw [Node.ofSource_of_limit_le h hparse]
  · intro out hout
    cases ht : Node.ofSource source limit' with
    | error e =>
      rw [ht] at hout
      cases hout
    | ok tree =>
      rw [ht] at hout
      refine ⟨tree, rfl, ?_⟩
      rw [Node.ofSource_of_le_limit h ht]
      split
      · rfl
      · exact hout

/-- A block that is never closed stays one under every limit; a condition that is dropped with its
loop counts against the lower limit all the same. -/
theorem transpile_of_limit_le_two :
    let unclosed := TagFault.tagged '#' "if a".toList
    (transpile ⟨{}, 1⟩ unclosed ≠ .error (.tooDeep 1) ∧
      transpile ⟨{}, 2⟩ unclosed = transpile ⟨{}, 1⟩ unclosed) ∧
    transpile ⟨{}, 2⟩ droppedCondition = .ok ['y'] ∧
    transpile ⟨{}, 1⟩ droppedCondition = .error (.tooDeep 1) := by
  intro unclosed
  have hle : 1 ≤ 2 := by decide
  have hne : transpile ⟨{}, 1⟩ unclosed ≠ .error (.tooDeep 1) := by decide +kernel
  have hout : transpile ⟨{}, 2⟩ droppedCondition = .ok ['y'] := by
    rw [transpile_eq_map, ofSource_droppedCondition]
    rfl
  obtain ⟨tree, htree, hlower⟩ := (transpile_of_limit_le {} droppedCondition hle).2 _ hout
  obtain rfl := Except.ok.inj (htree.symm.trans ofSource_droppedCondition)
  exact ⟨⟨hne, (transpile_of_limit_le {} unclosed hle).1 hne⟩, hout, hlower⟩

end HandlebarsToTwig
