import HandlebarsToTwig.Proofs.FirstFault
import Mathlib.Control.Monad.Basic

/-! A parser that is asked again after a fault. Each call gives up the lexemes up to the one at
fault and leaves no block counted as open, so the next call reads what is left as a fresh parser
would. -/
namespace HandlebarsToTwig

namespace OpenBlocks

/-- The pass over `ls` from the open blocks `opened` meets the fault `e`, and `rest` comes behind
the lexeme at fault. A block without a closing tag is noticed at the end, when no lexeme is left. -/
inductive Stops (limit : Nat) (opened : OpenBlocks) (e : Error) :
    (ls rest : List Lexeme) → Prop
  | fault {before rest : List Lexeme} {l : Lexeme} {reached : OpenBlocks} :
    run limit opened before = .ok reached → step limit reached l = .error e →
    Stops limit opened e (before ++ l :: rest) rest
  | unclosed {ls : List Lexeme} {reached : OpenBlocks} :
    run limit opened ls = .ok reached → finish reached = .error e → Stops limit opened e ls []

variable {limit : Nat} {opened : OpenBlocks}

theorem run_append (before after : List Lexeme) :
    run limit opened (before ++ after) =
      run limit opened before >>= fun reached => run limit reached after := by
  simp only [run, List.foldlM_append]

theorem run_of_append {before after : List Lexeme} {reached : OpenBlocks}
    (h : run limit opened before = .ok reached) :
    run limit opened (before ++ after) = run limit reached after := by
  rw [run_append, h]
  rfl

theorem run_singleton (l : Lexeme) : run limit opened [l] = step limit opened l := by
  simp only [run, List.foldlM_cons, List.foldlM_nil, bind_pure]

namespace Stops

variable {e : Error} {ls rest : List Lexeme}

/-- Lexemes that the pass goes through without a fault can stand in front. -/
theorem prepend {before : List Lexeme} {reached : OpenBlocks}
    (hrun : run limit opened before = .ok reached) (h : Stops limit reached e ls rest) :
    Stops limit opened e (before ++ ls) rest := by
  cases h with
  | fault hr hs =>
    rw [← List.append_assoc]
    exact .fault ((run_of_append hrun).trans hr) hs
  | unclosed hr hf => exact .unclosed ((run_of_append hrun).trans hr) hf

theorem isSuffix (h : Stops limit opened e ls rest) : rest <:+ ls := by
  cases h with
  | @fault before _ l _ _ _ => exact (List.suffix_cons l rest).trans (List.suffix_append before _)
  | unclosed _ _ => exact List.nil_suffix

/-- A fault takes at least one lexeme with it: without any, no block can have been opened. -/
theorem length_lt (h : Stops limit [] e ls rest) : rest.length < ls.length := by
  cases h with
  | fault _ _ =>
    rw [List.length_append, List.length_cons]
    omega
  | unclosed hr hf =>
    apply List.length_pos_iff.2
    rintro rfl
    cases hr
    cases hf

end Stops

/-- How far a reading of the body of the innermost open block gets, or at top level of everything:
up to the lexeme at fault, or through the closing tag of the block, or to the end. -/
def Accounts (limit : Nat) (opened : OpenBlocks) (ls : List Lexeme) (r : Reading) : Prop :=
  match r.result with
  | .error e => Stops limit opened e ls r.rest
  | .ok _ => ∃ consumed, ls = consumed ++ r.rest ∧ run limit opened consumed = .ok opened.tail ∧
      (opened = [] → r.rest = [])

namespace Accounts

variable {ls : List Lexeme} {r : Reading}

theorem isSuffix (h : Accounts limit opened ls r) : r.rest <:+ ls := by
  unfold Accounts at h
  split at h
  · exact h.isSuffix
  · obtain ⟨consumed, rfl, -⟩ := h
    exact List.suffix_append consumed r.rest

/-- What leaves the open blocks as they are can stand in front. -/
theorem prepend {before : List Lexeme} (hrun : run limit opened before = .ok opened)
    (h : Accounts limit opened ls r) (ns : List Node) :
    Accounts limit opened (before ++ ls) (r.prepend ns) := by
  obtain ⟨e | _, rest, depth⟩ := r
  · exact Stops.prepend hrun h
  · obtain ⟨consumed, hls, hc, hend⟩ := h
    refine ⟨before ++ consumed, ?_, (run_of_append hrun).trans hc, hend⟩
    rw [hls, List.append_assoc]
    rfl

end Accounts

/-- A lexeme at fault is the last one that is read. -/
theorem accounts_of_fault {l : Lexeme} {e : Error} (h : step limit opened l = .error e)
    (ls : List Lexeme) (depth : Nat) :
    Accounts limit opened (l :: ls) ⟨.error e, ls, depth⟩ := by
  have hempty : run limit opened [] = .ok opened := rfl
  exact Stops.fault hempty h

/-- The parser reads exactly the lexemes that the pass goes through up to the fault, or up to the
end of the body. -/
theorem body_accounts (limit : Nat) (opened : OpenBlocks) (ls : List Lexeme) :
    Accounts limit opened ls (Reading.body limit opened.length opened.head? ls).1 := by
  -- As for the first fault, the induction follows the parser and the stack varies with it.
  generalize hd : opened.length = depth
  generalize he : opened.head? = enclosing
  induction depth, enclosing, ls using Reading.body_induction generalizing opened with
  | ended depth enclosing =>
    subst he
    cases opened with
    | nil => exact ⟨[], rfl, rfl, fun _ => rfl⟩
    | cons b outer =>
      have hempty : run limit (b :: outer) [] = .ok (b :: outer) := rfl
      exact Stops.unclosed hempty rfl
  | text depth enclosing l ls value r hl ih | reference depth enclosing l ls name r hl ih =>
    have hrun : run limit opened [l] = .ok opened := by
      simp only [run_singleton, step, hl, Token.unsupported?]
    exact (ih opened hd he).prepend hrun _
  | unknownHelper depth enclosing l ls helper args hl hk =>
    apply accounts_of_fault
    simp [step, hl, Token.unsupported?, mem_knownHelpers, hk]
  | tooDeep depth enclosing l ls kind args hl hlimit =>
    subst hd
    exact accounts_of_fault ((step_of_known hl).trans (if_pos hlimit)) ls _
  | failedBlock depth enclosing l ls kind args e rest hl hlimit ih =>
    subst hd
    have hstep := (step_of_known hl).trans (if_neg (Nat.not_le.2 hlimit))
    have hinner := ih (⟨kind.name, l.offset⟩ :: opened) rfl rfl
    exact Stops.prepend ((run_singleton l).trans hstep) hinner
  | block depth enclosing l ls kind args children rest r hl hlimit ihc ihn =>
    subst hd
    have hstep := (step_of_known hl).trans (if_neg (Nat.not_le.2 hlimit))
    have hrun := (run_singleton l).trans hstep
    obtain ⟨consumed, hls, hc, -⟩ := ihc (⟨kind.name, l.offset⟩ :: opened) rfl rfl
    -- The opening tag, the body and its closing tag together leave the stack as it was.
    have hblock : run limit opened ([l] ++ consumed) = .ok opened := (run_of_append hrun).trans hc
    have hsplit : l :: ls = [l] ++ consumed ++ rest := congrArg (l :: ·) hls
    rw [hsplit]
    exact (ihn opened rfl he).prepend hblock [.block kind args children]
  | closing depth enclosing l ls helper hl =>
    subst he
    cases opened with
    | nil => exact accounts_of_fault (by simp only [step, hl, Token.unsupported?]) ls _
    | cons b outer =>
      by_cases h : b.helper = helper
      · have hrun : run limit (b :: outer) [l] = .ok outer := by
          simp only [run_singleton, step, hl, Token.unsupported?, h, if_true]
        simp only [List.head?_cons, Reading.atClose, h, if_true]
        exact ⟨[l], rfl, hrun, fun hnil => absurd hnil (List.cons_ne_nil b outer)⟩
      · simp only [List.head?_cons, Reading.atClose, h, if_false]
        exact accounts_of_fault (by simp only [step, hl, Token.unsupported?, h, if_false]) ls _
  | unsupported depth enclosing l ls kind hl =>
    exact accounts_of_fault (step_of_unsupported hl) ls _

end OpenBlocks

namespace Parser

/-- The parser after it has been asked a number of times. -/
def after (p : Parser) : (calls : Nat) → Parser
  | 0 => p
  | calls + 1 => (p.after calls).parse.2

variable {limit : Nat}

/-- A call leaves a parser that is as good as new. -/
theorem parse_fresh (ls : List Lexeme) :
    (mk ls limit).parse.2 = mk (mk ls limit).parse.2.pending limit := by
  have hdepth : (Reading.body limit 0 none ls).1.depth = 0 := Reading.body_depth limit 0 none ls
  simp only [parse, mk, hdepth]

theorem after_fresh (ls : List Lexeme) (calls : Nat) :
    (mk ls limit).after calls = mk ((mk ls limit).after calls).pending limit := by
  induction calls with
  | zero => rfl
  | succ calls ih =>
    rw [after, ih]
    exact parse_fresh _

/-- A parser with nothing left to read finds an empty template, and stays as it is. -/
theorem parse_nil (limit : Nat) : (mk [] limit).parse = (.ok [], mk [] limit) := by
  simp [parse, mk, Reading.body, Reading.atEnd]

theorem after_of_nil {p : Parser} {calls : Nat} (h : p.after calls = mk [] limit) (more : Nat) :
    p.after (calls + more) = mk [] limit := by
  induction more with
  | zero => exact h
  | succ more ih => rw [← Nat.add_assoc, after, ih, parse_nil]

/-- A fresh parser fails with the first fault of the lexemes. -/
theorem parse_eq_error_iff {ls : List Lexeme} {e : Error} :
    (mk ls limit).parse.1 = .error e ↔ OpenBlocks.check limit [] ls = .error e := by
  rw [OpenBlocks.check_eq_body]
  simp only [parse, mk]
  cases (Reading.body limit 0 none ls).1.result <;> simp [Except.map]

/-- What one call does to a fresh parser: it gives up lexemes from the front, at least one if it
fails and then up to the one at fault, and all of them if it succeeds. -/
theorem parse_cases (limit : Nat) (ls : List Lexeme) :
    (mk ls limit).parse.2.pending <:+ ls ∧
    (∀ e, (mk ls limit).parse.1 = .error e →
      OpenBlocks.Stops limit [] e ls (mk ls limit).parse.2.pending) ∧
    ∀ tree, (mk ls limit).parse.1 = .ok tree → (mk ls limit).parse.2 = mk [] limit := by
  have haccounts : OpenBlocks.Accounts limit [] ls
      ⟨(mk ls limit).parse.1, (mk ls limit).parse.2.pending, (mk ls limit).parse.2.depth⟩ :=
    OpenBlocks.body_accounts limit [] ls
  refine ⟨haccounts.isSuffix, fun e he => ?_, fun tree ht => ?_⟩
  · rw [he] at haccounts
    exact haccounts
  · rw [ht] at haccounts
    obtain ⟨-, -, -, hend⟩ := haccounts
    have hend : (mk ls limit).parse.2.pending = [] := hend rfl
    rw [parse_fresh, hend]

/-- A parser stays sound however often it is asked, for every template that can be read into lexemes
and under every limit. No block counts as open between two calls, and a call leaves an end of the
lexemes it was given, from which the next one reads as a fresh parser does. A call that fails has
taken the lexemes up to and including the one at fault, all of them if a block is never closed, and
in any case one. After a call that succeeds, all later ones find an empty template. -/
theorem after_sound {source : Text} {p : Parser} (h : ofSource source limit = .ok p)
    (calls : Nat) :
    let before := p.after calls
    let next := p.after (calls + 1)
    (before.depth = 0 ∧ next.depth = 0) ∧ next.pending <:+ before.pending ∧
    next.parse = (mk next.pending limit).parse ∧
    (∀ e, before.parse.1 = .error e →
      OpenBlocks.Stops limit [] e before.pending next.pending ∧
        next.pending.length < before.pending.length) ∧
    ∀ tree, before.parse.1 = .ok tree →
      ∀ later, calls < later → (p.after later).parse.1 = .ok [] := by
  intro before next
  obtain ⟨ls, rfl⟩ : ∃ ls, p = mk ls limit := by
    unfold ofSource at h
    cases hs : Lexeme.ofSource source with
    | error e => simp [hs, Except.map] at h
    | ok ls => exact ⟨ls, by simpa [hs, Except.map, eq_comm] using h⟩
  have hbefore : before = mk before.pending limit := after_fresh ls calls
  have hnext : next = mk next.pending limit := after_fresh ls (calls + 1)
  have hcall : (mk before.pending limit).parse.2 = next := by
    rw [← hbefore]
    rfl
  obtain ⟨hsuffix, hfails, hreads⟩ := parse_cases limit before.pending
  rw [hcall] at hsuffix hfails hreads
  rw [← hbefore] at hfails hreads
  refine ⟨⟨congrArg Parser.depth hbefore, congrArg Parser.depth hnext⟩, hsuffix,
    congrArg parse hnext, fun e he => ⟨hfails e he, (hfails e he).length_lt⟩, ?_⟩
  intro tree ht later hlater
  obtain ⟨more, rfl⟩ := Nat.exists_eq_add_of_lt hlater
  have hend : (mk ls limit).after (calls + 1 + more) = mk [] limit :=
    after_of_nil (hreads tree ht) more
  rw [Nat.add_right_comm, hend, parse_nil]

/-- A closing tag of another helper, and behind it a block without one: two calls fail, and all
later ones succeed. -/
theorem after_sound_two_faults :
    let source := ['a'] ++ TagFault.tagged '#' "if b".toList ++ TagFault.tagged '/' "each".toList ++
      TagFault.tagged '#' "if c".toList ++ ['x']
    let p := mk
      [⟨.text ['a'], 0, false, false⟩, ⟨.opening "if".toList (some ['b']), 1, false, false⟩,
        ⟨.closing "each".toList, 10, false, false⟩,
        ⟨.opening "if".toList (some ['c']), 19, false, false⟩, ⟨.text ['x'], 28, false, false⟩] 1
    ofSource source 1 = .ok p ∧
    (p.parse.1 = .error (.tag (.mismatchedClose "if".toList "each".toList) 10) ∧
      (p.after 1).depth = 0 ∧ (p.after 1).pending.length < p.pending.length) ∧
    ((p.after 1).parse.1 = .error (.tag (.unclosedBlock "if".toList) 19) ∧
      (p.after 2).depth = 0 ∧ (p.after 2).pending.length < (p.after 1).pending.length) ∧
    (p.after 2).parse.1 = .ok [] ∧ ∀ later, 2 < later → (p.after later).parse.1 = .ok [] := by
  intro source p
  have hls : Lexeme.ofSource source = .ok p.pending := by decide +kernel
  have h : ofSource source 1 = .ok p := by
    rw [ofSource, hls]
    rfl
  have hafter₁ : p.after 1 = mk (p.pending.drop 3) 1 := by decide +kernel
  have hafter₂ : p.after 2 = mk [] 1 := by decide +kernel
  have hfirst : p.parse.1 = .error (.tag (.mismatchedClose "if".toList "each".toList) 10) :=
    parse_eq_error_iff.2 (by decide)
  have hsecond : (p.after 1).parse.1 = .error (.tag (.unclosedBlock "if".toList) 19) := by
    rw [hafter₁]
    exact parse_eq_error_iff.2 (by decide)
  have hthird : (p.after 2).parse.1 = .ok [] := by rw [hafter₂, parse_nil]
  obtain ⟨⟨-, hd₁⟩, -, -, hf₁, -⟩ := after_sound h 0
  obtain ⟨⟨-, hd₂⟩, -, -, hf₂, -⟩ := after_sound h 1
  obtain ⟨-, -, -, -, hlater⟩ := after_sound h 2
  exact ⟨h, ⟨hfirst, hd₁, (hf₁ _ hfirst).2⟩, ⟨hsecond, hd₂, (hf₂ _ hsecond).2⟩, hthird,
    hlater [] hthird⟩

end Parser

end HandlebarsToTwig
