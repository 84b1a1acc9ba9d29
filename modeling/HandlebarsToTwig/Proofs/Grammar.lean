import HandlebarsToTwig.Node.Parse

/-! The grammar of templates. A tree is written as one list of tokens, and the parser accepts a list
of lexemes exactly when its tokens are those of a tree that nests within the limit. -/
namespace HandlebarsToTwig

/-- What an error calls a token that cannot stand anywhere in a tree. -/
def Token.unsupported? : Token → Option Text
  | .alternative => some "else".toList
  | .comment _ => some ['!']
  | .unescaped _ => some ['&']
  | .inclusion _ => some ['>']
  | .inverse _ => some ['^']
  | _ => none

namespace Node

mutual

/-- The tokens of a node: a block is written as its opening tag, its body and its closing tag. -/
def tokens : Node → List Token
  | .text value => [.text value]
  | .reference name => [.reference name]
  | .block kind args children =>
    .opening kind.name args :: listTokens children ++ [.closing kind.name]

def listTokens : List Node → List Token
  | [] => []
  | n :: ns => n.tokens ++ listTokens ns

end

mutual

/-- How many blocks stand around the innermost place of a node. -/
def nesting : Node → Nat
  | .text _ => 0
  | .reference _ => 0
  | .block _ _ children => listNesting children + 1

def listNesting : List Node → Nat
  | [] => 0
  | n :: ns => max n.nesting (listNesting ns)

end

theorem listTokens_append (tree more : List Node) :
    listTokens (tree ++ more) = listTokens tree ++ listTokens more := by
  induction tree with
  | nil => rfl
  | cons n ns ih => simp [listTokens, ih]

theorem listNesting_append (tree more : List Node) :
    listNesting (tree ++ more) = max (listNesting tree) (listNesting more) := by
  induction tree with
  | nil => simp [listNesting]
  | cons n ns ih => simp [listNesting, ih, Nat.max_assoc]

end Node

namespace Reading
open Node

/-- Puts nodes in front of those that were read. -/
def prepend (ns : List Node) (r : Reading) : Reading :=
  { r with result := r.result.map (ns ++ ·) }

@[simp] theorem prepend_nil (r : Reading) : r.prepend [] = r := by
  obtain ⟨_ | _, _, _⟩ := r <;> rfl

theorem prepend_prepend (ms ns : List Node) (r : Reading) :
    (r.prepend ns).prepend ms = r.prepend (ms ++ ns) := by
  obtain ⟨_ | _, _, _⟩ := r <;> simp [prepend, Except.map]

theorem prepend_eq_ok {ns tree : List Node} {r : Reading} {rest : List Lexeme} {depth : Nat} :
    r.prepend ns = ⟨.ok tree, rest, depth⟩ ↔ ∃ ms, r = ⟨.ok ms, rest, depth⟩ ∧ tree = ns ++ ms := by
  obtain ⟨_ | ms, _, _⟩ := r
  · simp [prepend, Except.map]
  · simp only [prepend, Except.map, mk.injEq, Except.ok.injEq]
    grind

theorem Within.weaken_cons {m n : Nat} (node : Node) (r : Within m) (h : m ≤ n) :
    ((r.cons node).weaken h).1 = r.1.prepend [node] := rfl

/-- The body of the enclosing block ends at the front of `after`, and `rest` follows it. -/
def Closes : (enclosing : Option Enclosing) → (after rest : List Lexeme) → Prop
  | none, after, rest => after = [] ∧ rest = []
  | some e, after, rest => ∃ l, after = l :: rest ∧ l.token = .closing e.helper

variable {limit depth : Nat} {enclosing : Option Enclosing}

theorem body_of_text {l : Lexeme} {value : Text} (h : l.token = .text value) (ls : List Lexeme) :
    (body limit depth enclosing (l :: ls)).1 =
      (body limit depth enclosing ls).1.prepend [.text value] := by
  rw [body, h, Within.weaken_cons]

theorem body_of_reference {l : Lexeme} {name : Text} (h : l.token = .reference name)
    (ls : List Lexeme) :
    (body limit depth enclosing (l :: ls)).1 =
      (body limit depth enclosing ls).1.prepend [.reference name] := by
  rw [body, h, Within.weaken_cons]

/-- A block whose body can be read is one node, and the reading goes on behind its closing tag; else
the reading ends. The block is open no longer in either case. -/
theorem body_of_opening {l : Lexeme} {kind : BlockKind} {args : Option Text}
    {result : Except Error (List Node)} {ls rest : List Lexeme}
    (h : l.token = .opening kind.name args) (hd : depth < limit) :
    (body limit (depth + 1) (some ⟨kind.name, l.offset⟩) ls).1 = ⟨result, rest, depth + 1⟩ →
    (body limit depth enclosing (l :: ls)).1 =
      match result with
      | .error e => ⟨.error e, rest, depth⟩
      | .ok children =>
        (body limit depth enclosing rest).1.prepend [.block kind args children] := by
  intro hb
  rw [body, h]
  simp only [BlockKind.ofName?_eq_some.2 rfl, Nat.not_le.2 hd, if_false]
  generalize body limit (depth + 1) (some ⟨kind.name, l.offset⟩) ls = r at hb
  obtain ⟨r, hr⟩ := r
  subst hb
  cases result <;> rfl

/-- Induction along the reading of a body, with one case for what each next lexeme can lead to. A
reading ends with as many open blocks as it began with: every block that has raised the count has
lowered it again, so the cases of a block say so of its body. -/
@[elab_as_elim]
theorem body_induction {limit : Nat}
    {motive : (depth : Nat) → (enclosing : Option Enclosing) → List Lexeme → Reading → Prop}
    (ended : ∀ depth enclosing, motive depth enclosing [] ⟨atEnd enclosing, [], depth⟩)
    (text : ∀ depth enclosing l ls value r, l.token = .text value → motive depth enclosing ls r →
      motive depth enclosing (l :: ls) (r.prepend [.text value]))
    (reference : ∀ depth enclosing l ls name r, l.token = .reference name →
      motive depth enclosing ls r → motive depth enclosing (l :: ls) (r.prepend [.reference name]))
    (unknownHelper : ∀ depth enclosing l ls helper args, l.token = .opening helper args →
      BlockKind.ofName? helper = none →
      motive depth enclosing (l :: ls) ⟨.error (.unsupported helper), ls, depth⟩)
    (tooDeep : ∀ depth enclosing l ls (kind : BlockKind) args, l.token = .opening kind.name args →
      limit ≤ depth → motive depth enclosing (l :: ls) ⟨.error (.tooDeep limit), ls, depth⟩)
    (failedBlock : ∀ depth enclosing l ls (kind : BlockKind) args e rest,
      l.token = .opening kind.name args → depth < limit →
      motive (depth + 1) (some ⟨kind.name, l.offset⟩) ls ⟨.error e, rest, depth + 1⟩ →
      motive depth enclosing (l :: ls) ⟨.error e, rest, depth⟩)
    (block : ∀ depth enclosing l ls (kind : BlockKind) args children rest r,
      l.token = .opening kind.name args → depth < limit →
      motive (depth + 1) (some ⟨kind.name, l.offset⟩) ls ⟨.ok children, rest, depth + 1⟩ →
      motive depth enclosing rest r →
      motive depth enclosing (l :: ls) (r.prepend [.block kind args children]))
    (closing : ∀ depth enclosing l ls helper, l.token = .closing helper →
      motive depth enclosing (l :: ls) ⟨atClose helper l.offset enclosing, ls, depth⟩)
    (unsupported : ∀ depth enclosing l ls kind, l.token.unsupported? = some kind →
      motive depth enclosing (l :: ls) ⟨.error (.unsupported kind), ls, depth⟩)
    (depth : Nat) (enclosing : Option Enclosing) (ls : List Lexeme) :
    motive depth enclosing ls (body limit depth enclosing ls).1 := by
  suffices h : (body limit depth enclosing ls).1.depth = depth ∧
      motive depth enclosing ls (body limit depth enclosing ls).1 from h.2
  -- What is left over behind a block is no part of the list that its body begins with, only not
  -- longer; so the induction is on a bound for the number of lexemes.
  obtain ⟨n, hn⟩ : ∃ n, ls.length < n := ⟨ls.length + 1, Nat.lt_succ_self _⟩
  induction n generalizing depth enclosing ls with
  | zero => exact absurd hn (Nat.not_lt_zero _)
  | succ n ih =>
    cases ls with
    | nil =>
      rw [body]
      exact ⟨rfl, ended depth enclosing⟩
    | cons l ls =>
      have hls : ls.length < n := Nat.lt_of_succ_lt_succ hn
      obtain ⟨hdepth, hnext⟩ := ih depth enclosing ls hls
      cases hl : l.token with
      | text value =>
        rw [body_of_text hl]
        exact ⟨hdepth, text depth enclosing l ls value _ hl hnext⟩
      | reference name =>
        rw [body_of_reference hl]
        exact ⟨hdepth, reference depth enclosing l ls name _ hl hnext⟩
      | opening helper args =>
        cases hk : BlockKind.ofName? helper with
        | none =>
          rw [body, hl]
          simp only [hk]
          exact ⟨rfl, unknownHelper depth enclosing l ls helper args hl hk⟩
        | some kind =>
          obtain rfl := BlockKind.ofName?_eq_some.1 hk
          rcases Nat.lt_or_ge depth limit with hlimit | hlimit
          · obtain ⟨hraised, hinner⟩ := ih (depth + 1) (some ⟨kind.name, l.offset⟩) ls hls
            have hle := (body limit (depth + 1) (some ⟨kind.name, l.offset⟩) ls).2
            cases hbody : (body limit (depth + 1) (some ⟨kind.name, l.offset⟩) ls).1 with
            | mk result rest raised =>
              rw [hbody] at hraised hinner hle
              obtain rfl : raised = depth + 1 := hraised
              rw [body_of_opening hl hlimit hbody]
              cases result with
              | error e =>
                exact ⟨rfl, failedBlock depth enclosing l ls kind args e rest hl hlimit hinner⟩
              | ok children =>
                obtain ⟨hdepth, hnext⟩ := ih depth enclosing rest (Nat.lt_of_le_of_lt hle hls)
                exact ⟨hdepth, block depth enclosing l ls kind args children rest _ hl hlimit
                  hinner hnext⟩
          · rw [body, hl]
            simp only [hk, if_pos hlimit]
            exact ⟨rfl, tooDeep depth enclosing l ls kind args hl hlimit⟩
      | closing helper =>
        rw [body, hl]
        exact ⟨rfl, closing depth enclosing l ls helper hl⟩
      | alternative | comment _ | unescaped _ | inclusion _ | inverse _ =>
        rw [body, hl]
        exact ⟨rfl, unsupported depth enclosing l ls _ (by rw [hl]; rfl)⟩

/-- However the reading of a body ends, the count of open blocks is then what it was before. -/
theorem body_depth (limit depth : Nat) (enclosing : Option Enclosing) (ls : List Lexeme) :
    (body limit depth enclosing ls).1.depth = depth := by
  induction depth, enclosing, ls using body_induction with
  | text depth enclosing l ls value r hl ih => exact ih
  | reference depth enclosing l ls name r hl ih => exact ih
  | block depth enclosing l ls kind args children rest r hl hlimit ihc ihn => exact ihn
  | _ => rfl

theorem body_of_closes {after rest : List Lexeme} (h : Closes enclosing after rest) :
    (body limit depth enclosing after).1 = ⟨.ok [], rest, depth⟩ := by
  cases enclosing with
  | none =>
    obtain ⟨rfl, rfl⟩ := h
    rw [body]
    rfl
  | some e =>
    obtain ⟨l, rfl, hl⟩ := h
    rw [body, hl]
    simp [stop, atClose]

/-- Lexemes with the tokens of a tree are read as that tree, whatever block they stand in and
whatever comes after them. -/
theorem body_append {tree : List Node} {before : List Lexeme} (after : List Lexeme)
    (hb : before.map Lexeme.token = listTokens tree) (hd : depth + listNesting tree ≤ limit) :
    (body limit depth enclosing (before ++ after)).1 =
      (body limit depth enclosing after).1.prepend tree := by
  induction tree using Node.listInduction generalizing before after depth enclosing with
  | nil =>
    obtain rfl := List.map_eq_nil_iff.1 hb
    simp
  | text value ns ih =>
    obtain ⟨l, ls, rfl, hl, hs⟩ := List.map_eq_cons_iff.1 hb
    simp only [listNesting, nesting, Nat.zero_max] at hd
    rw [List.cons_append, body_of_text hl, ih after hs hd, prepend_prepend]
    rfl
  | reference name ns ih =>
    obtain ⟨l, ls, rfl, hl, hs⟩ := List.map_eq_cons_iff.1 hb
    simp only [listNesting, nesting, Nat.zero_max] at hd
    rw [List.cons_append, body_of_reference hl, ih after hs hd, prepend_prepend]
    rfl
  | block kind args children ns ihc ihn =>
    simp only [listTokens, tokens, List.cons_append, List.append_assoc, List.nil_append] at hb
    simp only [listNesting, nesting] at hd
    obtain ⟨l, ls, rfl, hl, hs⟩ := List.map_eq_cons_iff.1 hb
    obtain ⟨inside, ls, rfl, hi, hs⟩ := List.map_eq_append_iff.1 hs
    obtain ⟨c, ls, rfl, hc, hs⟩ := List.map_eq_cons_iff.1 hs
    have hclose : Closes (some ⟨kind.name, l.offset⟩) (c :: (ls ++ after)) (ls ++ after) :=
      ⟨c, rfl, hc⟩
    have hbody : (body limit (depth + 1) (some ⟨kind.name, l.offset⟩)
        (inside ++ c :: (ls ++ after))).1 = ⟨.ok children, ls ++ after, depth + 1⟩ := by
      rw [ihc (c :: (ls ++ after)) hi (by omega), body_of_closes hclose]
      simp [prepend, Except.map]
    have hdepth : depth + listNesting ns ≤ limit := by omega
    rw [List.cons_append, List.append_assoc, List.cons_append,
      body_of_opening hl (by omega) hbody]
    dsimp only
    rw [ihn after hs hdepth, prepend_prepend]
    rfl

/-- A body that can be read holds the tokens of its nodes, and then its closing tag. -/
theorem tokens_of_body {ls rest : List Lexeme} {tree : List Node} {final : Nat} (hd : depth ≤ limit)
    (h : (body limit depth enclosing ls).1 = ⟨.ok tree, rest, final⟩) :
    ∃ before after, ls = before ++ after ∧ before.map Lexeme.token = listTokens tree ∧
      Closes enclosing after rest ∧ depth + listNesting tree ≤ limit := by
  induction depth, enclosing, ls using body_induction generalizing tree rest final with
  | ended depth enclosing =>
    cases enclosing with
    | none => simp_all [atEnd, Closes, listTokens, listNesting]
    | some e => simp [atEnd] at h
  | text depth enclosing l ls value r hl ih | reference depth enclosing l ls name r hl ih =>
    obtain ⟨ns, hr, rfl⟩ := prepend_eq_ok.1 h
    obtain ⟨before, after, rfl, hb, hc, hn⟩ := ih hd hr
    refine ⟨l :: before, after, rfl, ?_, hc, ?_⟩
    · simp [hl, hb, listTokens, tokens]
    · simpa [listNesting, nesting] using hn
  | block depth enclosing l ls kind args children rest' r hl hlimit ihc ihn =>
    obtain ⟨ns, hr, rfl⟩ := prepend_eq_ok.1 h
    obtain ⟨inside, _, rfl, hi, ⟨c, rfl, hcl⟩, hin⟩ := ihc hlimit rfl
    obtain ⟨before, after, rfl, hb, hc, hn⟩ := ihn hd hr
    refine ⟨l :: inside ++ c :: before, after, by simp, ?_, hc, ?_⟩
    · simp [hl, hi, hcl, hb, listTokens, tokens]
    · simp only [List.cons_append, List.nil_append, listNesting, nesting]
      omega
  | closing depth enclosing l ls helper hl =>
    cases enclosing with
    | none => simp [atClose] at h
    | some e =>
      simp only [atClose] at h
      split at h
      · next he =>
        simp only [mk.injEq, Except.ok.injEq] at h
        obtain ⟨rfl, rfl, -⟩ := h
        exact ⟨[], l :: ls, rfl, rfl, ⟨l, rfl, by rw [hl, he]⟩, hd⟩
      · simp at h
  | unknownHelper | tooDeep | failedBlock | unsupported => simp at h

theorem body_eq_ok_iff {ls : List Lexeme} {tree : List Node} :
    (body limit 0 none ls).1.result = .ok tree ↔
      ls.map Lexeme.token = listTokens tree ∧ listNesting tree ≤ limit := by
  constructor
  · intro h
    have hb : (body limit 0 none ls).1 =
        ⟨.ok tree, (body limit 0 none ls).1.rest, (body limit 0 none ls).1.depth⟩ := by rw [← h]
    obtain ⟨before, after, hls, ht, ⟨ha, _⟩, hn⟩ := tokens_of_body (Nat.zero_le limit) hb
    rw [hls, ha, List.append_nil]
    exact ⟨ht, by omega⟩
  · rintro ⟨ht, hn⟩
    have hb : (body limit 0 none (ls ++ [])).1 = (body limit 0 none []).1.prepend tree :=
      body_append [] ht (by omega)
    rw [List.append_nil, body_of_closes (show Closes none [] [] from ⟨rfl, rfl⟩)] at hb
    rw [hb]
    simp [prepend, Except.map]

end Reading

/-- A token list is written for one tree only: a parser with room for both trees finds the same
tree for either of them. -/
theorem Node.listTokens_injective : Function.Injective Node.listTokens := by
  intro s t h
  let lexemes := (Node.listTokens s).map fun token => (⟨token, 0, false, false⟩ : Lexeme)
  let limit := max (Node.listNesting s) (Node.listNesting t)
  have hs : lexemes.map Lexeme.token = Node.listTokens s := by
    simp [lexemes, Function.comp_def]
  have hps := Reading.body_eq_ok_iff.2 ⟨hs, (Nat.le_max_left _ _ : _ ≤ limit)⟩
  have hpt := Reading.body_eq_ok_iff.2 ⟨hs.trans h, (Nat.le_max_right _ _ : _ ≤ limit)⟩
  exact Except.ok.inj (hps.symm.trans hpt)

/-- The tree of a template is the one whose tokens are the template's, if it nests within the
limit. -/
theorem Node.ofSource_eq_ok_iff {source : Text} {limit : Nat} {tree : List Node} :
    Node.ofSource source limit = .ok tree ↔
      ∃ ls, Lexeme.ofSource source = .ok ls ∧ ls.map Lexeme.token = Node.listTokens tree ∧
        Node.listNesting tree ≤ limit := by
  unfold Node.ofSource Parser.ofSource
  cases hl : Lexeme.ofSource source with
  | error e => simp [Except.map, bind, Except.bind]
  | ok ls =>
    simp only [Except.map, bind, Except.bind, Parser.parse, Except.ok.injEq, exists_eq_left']
    exact Reading.body_eq_ok_iff

theorem Node.listNesting_le_of_ofSource {source : Text} {limit : Nat} {tree : List Node}
    (h : Node.ofSource source limit = .ok tree) : Node.listNesting tree ≤ limit := by
  obtain ⟨_, _, _, hn⟩ := Node.ofSource_eq_ok_iff.1 h
  exact hn

/-- A template has the same tree under every limit that leaves room for it. -/
theorem Node.ofSource_of_listNesting_le {source : Text} {limit limit' : Nat} {tree : List Node}
    (h : Node.ofSource source limit = .ok tree) (hn : Node.listNesting tree ≤ limit') :
    Node.ofSource source limit' = .ok tree := by
  obtain ⟨ls, hls, htokens, -⟩ := Node.ofSource_eq_ok_iff.1 h
  exact Node.ofSource_eq_ok_iff.2 ⟨ls, hls, htokens, hn⟩

/-- The same for the token list of the template, as one value. -/
theorem Node.ofSource_eq_ok_iff_map {source : Text} {limit : Nat} {tree : List Node} :
    Node.ofSource source limit = .ok tree ↔
      (Lexeme.ofSource source).map (List.map Lexeme.token) = .ok (Node.listTokens tree) ∧
        Node.listNesting tree ≤ limit := by
  rw [Node.ofSource_eq_ok_iff]
  cases Lexeme.ofSource source <;> simp [Except.map]

/-- The parser accepts exactly its grammar: a fresh parser gives a tree if and only if its lexemes
are the tokens of that tree, none left out and none added, and the blocks of the tree nest within
the limit. No token list has two trees. -/
theorem Parser.parse_eq_ok_iff_tokens (lexemes : List Lexeme) (limit : Nat) (tree : List Node) :
    ((Parser.mk lexemes limit).parse.1 = .ok tree ↔
      lexemes.map Lexeme.token = Node.listTokens tree ∧ Node.listNesting tree ≤ limit) ∧
    Function.Injective Node.listTokens :=
  ⟨Reading.body_eq_ok_iff, Node.listTokens_injective⟩

end HandlebarsToTwig
