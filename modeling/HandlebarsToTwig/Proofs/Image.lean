import HandlebarsToTwig.Proofs.Grammar
import HandlebarsToTwig.Proofs.WhitespaceControl

/-! The trees that templates have. Everything read from a template meets the conditions on texts,
names and arguments stated here, and a tree that meets them is written as a template that is read
as this tree. -/
namespace HandlebarsToTwig

namespace Node

def isText : Node → Bool
  | .text _ => true
  | _ => false

mutual

/-- The conditions under which a node can be written: on its texts, names and arguments. -/
def Expressible : Node → Prop
  | .text value => IsPlain value
  | .reference name => IsName name
  | .block _ args children => (∀ s ∈ args, IsPiece s) ∧ ListExpressible children

/-- The conditions on all nodes, and that no text stands next to another one. -/
def ListExpressible : List Node → Prop
  | [] => True
  | n :: ns =>
    n.Expressible ∧ (n.isText → ∀ m ∈ ns.head?, m.isText = false) ∧ ListExpressible ns

end

/-- The first node is a text if and only if the first token is one. -/
theorem head?_listTokens (tree : List Node) :
    (∀ t ∈ (listTokens tree).head?, t.isText = false) ↔ ∀ n ∈ tree.head?, n.isText = false := by
  cases tree with
  | nil => simp [listTokens]
  | cons n ns => cases n <;> simp [listTokens, tokens, isText, Token.isText]

/-- A tree can be written if its tokens can, one after the other. -/
theorem listExpressible_iff (tree : List Node) :
    ListExpressible tree ↔
      (∀ t ∈ listTokens tree, t.Expressible) ∧ (listTokens tree).IsChain Token.Apart := by
  induction tree using Node.listInduction with
  | nil => simp [ListExpressible, listTokens]
  | text value ns ih =>
    have hapart : (Token.text value :: listTokens ns).IsChain Token.Apart ↔
        (∀ n ∈ ns.head?, n.isText = false) ∧ (listTokens ns).IsChain Token.Apart := by
      rw [List.isChain_cons, ← head?_listTokens]
      rfl
    have hhead : ((text value).isText → ∀ n ∈ ns.head?, n.isText = false) ↔
        ∀ n ∈ ns.head?, n.isText = false := forall_prop_of_true rfl
    simp only [ListExpressible, hhead, ih, listTokens, tokens, List.singleton_append,
      List.forall_mem_cons, hapart, and_assoc, and_left_comm]
    rfl
  | reference name ns ih =>
    have hapart := Token.isChain_apart_cons (t := .reference name) rfl (listTokens ns)
    simp only [ListExpressible, ih, listTokens, tokens, List.singleton_append,
      List.forall_mem_cons, hapart, and_assoc]
    simp [Expressible, Token.Expressible, isText]
  | block kind args children ns ihc ihn =>
    have hopen := Token.isChain_apart_cons (t := .opening kind.name args) rfl
    have hclose := Token.isChain_apart_append_cons (t := .closing kind.name) rfl
    simp only [ListExpressible, Expressible, ihc, ihn, listTokens, tokens, List.cons_append,
      List.append_assoc, List.nil_append, List.forall_mem_cons, List.forall_mem_append, hopen,
      hclose]
    constructor
    · rintro ⟨⟨ha, hc, hcc⟩, -, hn, hnc⟩
      exact ⟨⟨ha, hc, trivial, hn⟩, hcc, hnc⟩
    · rintro ⟨⟨ha, hc, -, hn⟩, hcc, hnc⟩
      exact ⟨⟨ha, hc, hcc⟩, by simp [isText], hn, hnc⟩

end Node

namespace Token
open Lexeme

/-- The tokens of trees: texts, variables, and the tags of known blocks. -/
def Structural : Token → Prop
  | text _ | reference _ => True
  | opening helper _ | closing helper => ∃ kind, helper = BlockKind.name kind
  | _ => False

/-- What the tag of a token holds. -/
def content : Token → Text
  | reference name => name
  | opening helper args => '#' :: helper ++ args.elim [] (' ' :: ·)
  | closing helper => '/' :: helper
  | _ => []

end Token

theorem Node.structural_of_mem_listTokens {tree : List Node} {t : Token}
    (h : t ∈ Node.listTokens tree) : t.Structural := by
  induction tree using Node.listInduction with
  | nil => simp [listTokens] at h
  | text value ns ih =>
    rcases List.mem_cons.1 h with rfl | h
    · trivial
    · exact ih h
  | reference name ns ih =>
    rcases List.mem_cons.1 h with rfl | h
    · trivial
    · exact ih h
  | block kind args children ns ihc ihn =>
    simp only [listTokens, tokens, List.mem_append, List.mem_cons, List.cons_append,
      List.not_mem_nil, or_false] at h
    rcases h with rfl | (hc | rfl) | hn
    · exact ⟨kind, rfl⟩
    · exact ihc hc
    · exact ⟨kind, rfl⟩
    · exact ihn hn

theorem BlockKind.name_plain (kind : BlockKind) :
    ∀ c ∈ kind.name, Text.isBlank c = false ∧ c ≠ '}' := by
  have h : kind.name.all (fun c => !Text.isBlank c && c != '}') = true := by
    cases kind <;> decide
  intro c hc
  simpa using List.all_eq_true.1 h c hc

theorem BlockKind.isPiece_cons_name {sigil : Char} (kind : BlockKind)
    (hs : Text.isBlank sigil = false ∧ sigil ≠ '}') : IsPiece (sigil :: kind.name) :=
  IsPiece.of_all (List.cons_ne_nil _ _) (List.forall_mem_cons.2 ⟨hs, kind.name_plain⟩)

namespace Lexeme

theorem classify_opening (kind : BlockKind) {args : Option Text} (ha : ∀ s ∈ args, IsPiece s) :
    classify ('#' :: kind.name ++ args.elim [] (' ' :: ·)) = .ok (.opening kind.name args) := by
  have hname : ∀ c ∈ kind.name, Text.isBlank c = false := fun c hc => (kind.name_plain c hc).1
  have hne : kind.name ≠ [] := by cases kind <;> decide
  cases args with
  | none =>
    simp [classify, Text.trim_of_all hname, Text.firstWord_of_all hname, hne, Text.nonempty?]
  | some a =>
    have hp := ha a rfl
    have htrim := Text.trim_append_space_append (Text.trim_of_all hname) hp.trimmed hne hp.nonempty
    simp [classify, htrim, Text.firstWord_append hname hp.trimmed, hne, Text.nonempty?, hp.nonempty]

theorem classify_closing (kind : BlockKind) :
    classify ('/' :: kind.name) = .ok (.closing kind.name) := by
  cases kind <;> decide

/-- The content of a token's tag is read as that token. -/
theorem classify_content {t : Token} (hs : t.Structural) (he : t.Expressible)
    (ht : t.isText = false) : IsPiece t.content ∧ classify t.content = .ok t := by
  cases t with
  | reference name => exact ⟨he.toIsPiece, classify_of_isName he⟩
  | opening helper args =>
    obtain ⟨kind, rfl⟩ := hs
    refine ⟨?_, classify_opening kind he⟩
    have hp : IsPiece ('#' :: kind.name) := kind.isPiece_cons_name (by decide)
    cases args with
    | none => simpa [Token.content] using hp
    | some a => exact hp.append_space_append (he a rfl)
  | closing helper =>
    obtain ⟨kind, rfl⟩ := hs
    exact ⟨kind.isPiece_cons_name (by decide), classify_closing kind⟩
  | text value => simp [Token.isText] at ht
  | _ => exact hs.elim

end Lexeme

namespace Token
open Lexeme

/-- Spaces keep the content apart from the delimiters. A mark drops the blanks in front of the
tag. -/
def interior (marked : Bool) (content : Text) : Text :=
  (if marked then ['~'] else []) ++ ' ' :: (content ++ [' '])

def enclose (marked : Bool) (content : Text) : Text :=
  tagOpen ++ interior marked content ++ tagClose

theorem interior_unclosed {content : Text} (h : ¬ tagClose <:+: content) (marked : Bool) :
    ¬ tagClose <:+: interior marked content ++ ['}'] := by
  have hmark : ¬ tagClose <:+: (if marked then ['~'] else []) := by cases marked <;> decide
  have hlast : ¬ tagClose <:+: ['}'] := Text.double_not_infix_singleton '}' '}'
  rw [tagClose] at h hmark hlast ⊢
  rw [interior, List.append_assoc, List.cons_append, List.append_assoc, List.singleton_append,
    Text.double_infix_append_cons (by decide), Text.double_infix_append_cons (by decide)]
  exact not_or.2 ⟨hmark, not_or.2 ⟨h, hlast⟩⟩

/-- Whether a text would run into the tag behind it. -/
def collides (value : Text) (ts : List Token) : Bool :=
  value.getLast? == some '{' && !ts.isEmpty

def pad (padded : Bool) (value : Text) : Text := if padded then value ++ [' '] else value

/-- A text that ends in an opening brace is kept apart from the tag behind it by a space, which that
tag drops again. -/
def written (marked : Bool) : List Token → Text
  | [] => []
  | text value :: ts => pad (collides value ts) value ++ written (collides value ts) ts
  | t :: ts => enclose marked t.content ++ written false ts

theorem written_of_tag {t : Token} (h : t.isText = false) (marked : Bool) (ts : List Token) :
    written marked (t :: ts) = enclose marked t.content ++ written false ts := by
  cases t <;> first | rfl | simp [isText] at h

/-- Behind a text stands a tag or nothing, and a tag is told from the text. -/
theorem written_of_collides {ts : List Token} (h : ∀ t ∈ ts.head?, t.isText = false)
    (value : Text) :
    written (collides value ts) ts = [] ∨
      (tagOpen <+: written (collides value ts) ts ∧
        (pad (collides value ts) value).getLast? ≠ some '{') := by
  cases ts with
  | nil => exact .inl rfl
  | cons t ts =>
    refine .inr ⟨?_, ?_⟩
    · rw [written_of_tag (h t rfl), enclose, List.append_assoc, List.append_assoc]
      exact List.prefix_append _ _
    · by_cases hv : value.getLast? = some '{'
      · simp [collides, pad, hv]
      · simp [collides, pad, hv]

end Token

namespace Lexeme

theorem Interior.ofText_interior {content : Text} (h : IsPiece content) (marked : Bool) :
    Interior.ofText (Token.interior marked content) = ⟨content, marked, false⟩ := by
  have htrim : Text.trim (' ' :: (content ++ [' '])) = content := by
    rw [Text.trim_space_cons, Text.trim_append_space h.trimmed h.nonempty]
  have hlast : (' ' :: (content ++ [' '])).getLast? = some ' ' := by
    rw [← List.cons_append, List.getLast?_concat]
  cases marked <;> simp [Token.interior, Interior.ofText, htrim, hlast]

end Lexeme

theorem IsPlain.pad {value : Text} (h : IsPlain value) (padded : Bool) :
    IsPlain (Token.pad padded value) := by
  cases padded with
  | false => exact h
  | true =>
    refine ⟨by simp [Token.pad], fun ho => ?_⟩
    rcases (Text.double_infix_append_cons (by decide) value []).1 ho with hv | hn
    · exact h.tagless hv
    · simp at hn

/-- The space that was written behind a text is dropped again. -/
theorem Lexeme.between_collides {value : Text} {ts : List Token} (hv : IsPlain value)
    (hts : ∀ t ∈ ts.head?, t.isText = false) (offset : Nat) {before after : Option Lexeme}
    (hb : before.any dropsAfter = false)
    (ha : after.any dropsBefore = (Token.collides value ts && ts.head?.any (!·.isText))) :
    between before after ⟨.text (Token.pad (Token.collides value ts) value), offset, false, false⟩ =
      some ⟨.text value, offset, false, false⟩ := by
  cases hc : Token.collides value ts with
  | false => simp_all [between, Token.pad, hv.nonempty]
  | true =>
    obtain ⟨hlast, hne⟩ : value.getLast? = some '{' ∧ ts ≠ [] := by simpa [Token.collides] using hc
    obtain ⟨t, ts, rfl⟩ := List.exists_cons_of_ne_nil hne
    obtain ⟨s, rfl⟩ := List.getLast?_eq_some_iff.1 hlast
    have htag : after.any dropsBefore = true := by simpa [hc, hts t rfl] using ha
    have htrim : Text.trimEnd (s ++ ['{'] ++ [' ']) = s ++ ['{'] := by
      rw [Text.trimEnd_append_blank (by decide)]
      exact List.rdropWhile_concat_neg Text.isBlank s '{' (by decide)
    simp [between, hb, htag, Token.pad, htrim, -List.append_assoc]

namespace Cursor
open Lexeme

theorem next_of_enclose {c : Cursor} {t : Token} {marked : Bool} {rest : Text}
    (hc : c.rest = Token.enclose marked t.content ++ rest) (hp : IsPiece t.content)
    (ht : classify t.content = .ok t) :
    c.next = (.ok (some ⟨t, c.offset, marked, false⟩),
      c.past (Token.enclose marked t.content) rest) := by
  have hi := Interior.ofText_interior hp marked
  have hhead {x : Char} (h₁ : x ≠ '~') (h₂ : x ≠ ' ') :
      (Token.interior marked t.content).head? ≠ some x := by
    cases marked <;> simp [Token.interior, h₁.symm, h₂.symm]
  rw [next_of_tag hc (Token.interior_unclosed hp.unclosed marked) (hhead (by decide) (by decide))
    (hhead (by decide) (by decide)) (by rw [hi]; exact ht), hi]
  rfl

/-- What is written for a list of tokens is read as lexemes that have these tokens once blanks have
been dropped. The first of them drops blanks in front of it exactly if it was to be marked, which is
what the text before it relies on. -/
theorem exists_scanned_written {ts : List Token} (hs : ∀ t ∈ ts, t.Structural)
    (he : ∀ t ∈ ts, t.Expressible) (ha : ts.IsChain Token.Apart) {c : Cursor} {marked : Bool}
    (hc : c.rest = Token.written marked ts) :
    ∃ ls, Scanned c ls ∧ (ls.head?.any dropsBefore = (marked && ts.head?.any (!·.isText))) ∧
      ∀ before : Option Lexeme, before.any dropsAfter = false →
        (controlled before ls).map Lexeme.token = ts := by
  induction ts generalizing c marked with
  | nil => exact ⟨[], .done hc, by simp, by simp [controlled]⟩
  | cons t ts ih =>
    obtain ⟨hst, hss⟩ := List.forall_mem_cons.1 hs
    obtain ⟨het, hes⟩ := List.forall_mem_cons.1 he
    cases ht : t.isText with
    | false =>
      obtain ⟨hp, hclass⟩ := classify_content hst het ht
      rw [Token.written_of_tag ht] at hc
      obtain ⟨ls, hscan, -, hread⟩ := ih hss hes ha.tail (c := c.past _ _) rfl
      refine ⟨_ :: ls, .step (next_of_enclose hc hp hclass) hscan, ?_, fun before _ => ?_⟩
      · simp [dropsBefore, ht]
      · have hnext := hread (some ⟨t, c.offset, marked, false⟩) (by simp [dropsAfter])
        have hstay := between_of_tag (l := ⟨t, c.offset, marked, false⟩) ht before ls.head?
        simp [controlled, hstay, hnext]
    | true =>
      -- A text decides whether the tag behind it is marked, so the marking differs in the hypothesis.
      obtain ⟨value, rfl⟩ := Token.isText_eq_true.1 ht
      have hhead : ∀ t ∈ ts.head?, t.isText = false := by
        simpa [Token.Apart, ht] using (List.isChain_cons.1 ha).1
      rw [Token.written] at hc
      obtain ⟨ls, hscan, hdrop, hread⟩ := ih hss hes ha.tail (c := c.past _ _) rfl
      have hnext := next_of_text (IsPlain.pad het _) hc (Token.written_of_collides hhead value)
      refine ⟨_, .step hnext hscan, by simp [dropsBefore, Token.isText], fun before hb => ?_⟩
      have hbetween := between_collides het hhead c.offset hb hdrop
      have hrest := hread
        (some ⟨.text (Token.pad (Token.collides value ts) value), c.offset, false, false⟩)
        (by simp [dropsAfter])
      simp [controlled, hbetween, hrest]

end Cursor

namespace Node

/-- The template written for a tree is read as that tree. -/
theorem ofSource_eq_ok_of_expressible {tree : List Node} {limit : Nat} (h : ListExpressible tree)
    (hn : listNesting tree ≤ limit) :
    ofSource (Token.written false (listTokens tree)) limit = .ok tree := by
  obtain ⟨he, ha⟩ := (listExpressible_iff tree).1 h
  have hs : ∀ t ∈ listTokens tree, t.Structural := fun t ht => structural_of_mem_listTokens ht
  obtain ⟨raw, hscan, -, hread⟩ := Cursor.exists_scanned_written hs he ha
    (c := Cursor.start (Token.written false (listTokens tree))) rfl
  exact ofSource_eq_ok_iff.2
    ⟨_, Lexeme.ofSource_eq_ok.2 ⟨raw, hscan, rfl⟩, hread none rfl, hn⟩

theorem listExpressible_of_ofSource {source : Text} {limit : Nat} {tree : List Node}
    (h : ofSource source limit = .ok tree) : ListExpressible tree ∧ listNesting tree ≤ limit := by
  obtain ⟨ls, hl, ht, hn⟩ := ofSource_eq_ok_iff.1 h
  obtain ⟨raw, hscan, rfl⟩ := Lexeme.ofSource_eq_ok.1 hl
  refine ⟨(listExpressible_iff tree).2 ⟨?_, ?_⟩, hn⟩
  · rw [← ht]
    exact List.forall_mem_map.2 (Lexeme.controlled_expressible hscan.expressible none)
  · rw [← ht, List.isChain_map]
    exact Lexeme.controlled_apart hscan.apart none

/-- The trees of templates, exactly: a tree comes from a template under a limit if and only if its
texts, names and arguments can be written, no two texts are neighbours, and its blocks nest within
the limit. -/
theorem exists_source_iff (limit : Nat) (tree : List Node) :
    (∃ source, ofSource source limit = .ok tree) ↔
      ListExpressible tree ∧ listNesting tree ≤ limit := by
  constructor
  · rintro ⟨source, h⟩
    exact listExpressible_of_ofSource h
  · rintro ⟨h, hn⟩
    exact ⟨_, ofSource_eq_ok_of_expressible h hn⟩

end Node

end HandlebarsToTwig
