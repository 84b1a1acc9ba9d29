import HandlebarsToTwig.Lexeme.Strip
import HandlebarsToTwig.Proofs.Text
import Mathlib.Data.List.Chain

/-! What the lexemes of a template can be: the conditions on plain text, on names and on arguments
that hold of everything read from a template, and how lexemes follow each other. -/
namespace HandlebarsToTwig

/-- Plain text that is one lexeme: not empty, and without the mark that opens a tag. -/
structure IsPlain (value : Text) : Prop where
  nonempty : value ≠ []
  tagless : ¬ Lexeme.tagOpen <:+: value

/-- What can stand in a tag as one piece: not empty, without blanks on either side, and without the
mark that closes a tag. -/
structure IsPiece (s : Text) : Prop where
  nonempty : s ≠ []
  trimmed : Text.trim s = s
  unclosed : ¬ Lexeme.tagClose <:+: s

theorem IsPiece.of_trim {s content : Text} (hs : Text.trim s ≠ []) (hi : s <:+: content)
    (hc : ¬ Lexeme.tagClose <:+: content) : IsPiece (Text.trim s) where
  nonempty := hs
  trimmed := Text.trim_trim s
  unclosed := fun h => hc (h.trans ((Text.trim_isInfix s).trans hi))

theorem IsPiece.of_all {s : Text} (hs : s ≠ [])
    (h : ∀ c ∈ s, Text.isBlank c = false ∧ c ≠ '}') : IsPiece s where
  nonempty := hs
  trimmed := Text.trim_of_all fun c hc => (h c hc).1
  unclosed := fun hi => (h '}' (hi.subset (by simp [Lexeme.tagClose]))).2 rfl

theorem IsPiece.append_space_append {s t : Text} (hs : IsPiece s) (ht : IsPiece t) :
    IsPiece (s ++ ' ' :: t) where
  nonempty := by simp
  trimmed := Text.trim_append_space_append hs.trimmed ht.trimmed hs.nonempty ht.nonempty
  unclosed := by
    rw [Lexeme.tagClose, Text.double_infix_append_cons (by decide)]
    exact not_or.2 ⟨hs.unclosed, ht.unclosed⟩

/-- The characters that give a tag another meaning when its content starts with them. -/
def sigils : List Char := ['!', '#', '/', '^', '>', '&']

/-- What a tag can hold as the name of a variable. -/
structure IsName (name : Text) : Prop extends IsPiece name where
  unmarked : ∀ c ∈ sigils, name.head? ≠ some c
  not_else : name ≠ "else".toList
  not_else_if : ¬ "else ".toList <+: name

namespace Token

def isText : Token → Bool
  | text _ => true
  | _ => false

theorem isText_eq_true {t : Token} : t.isText = true ↔ ∃ value, t = text value := by
  cases t <;> simp [isText]

/-- What holds of every token of a template, as far as it can be part of a tree. -/
def Expressible : Token → Prop
  | text value => IsPlain value
  | reference name => IsName name
  | opening _ args => ∀ s ∈ args, IsPiece s
  | _ => True

/-- No two texts stand next to each other. -/
def Apart (s t : Token) : Prop := (s.isText && t.isText) = false

theorem isChain_apart_cons {t : Token} (h : t.isText = false) (ts : List Token) :
    (t :: ts).IsChain Apart ↔ ts.IsChain Apart := by
  simp [List.isChain_cons, Apart, h]

theorem isChain_apart_append_cons {t : Token} (h : t.isText = false) (ss ts : List Token) :
    (ss ++ t :: ts).IsChain Apart ↔ ss.IsChain Apart ∧ ts.IsChain Apart := by
  simp [List.isChain_append, isChain_apart_cons h, Apart, h]

end Token

namespace Lexeme

/-- The token of a tag whose content is trimmed and holds no closing mark. -/
theorem classify_expressible {content : Text} {token : Token}
    (h : classify content = .ok token) (ht : Text.trim content = content)
    (hc : ¬ tagClose <:+: content) : token.isText = false ∧ token.Expressible := by
  cases content with
  | nil => simp [classify] at h
  | cons sigil s =>
    simp only [classify] at h
    split at h
    · cases h
      exact ⟨rfl, trivial⟩
    · split at h
      · cases h
      · cases h
        refine ⟨rfl, fun args ha => ?_⟩
        simp only [Text.nonempty?, Option.mem_def] at ha
        split at ha
        · cases ha
        · next hne =>
          cases ha
          refine IsPiece.of_trim (by simpa [Text.firstWord] using hne) ?_ hc
          exact (List.dropWhile_suffix _).isInfix.trans
            ((Text.trim_isInfix s).trans (List.suffix_cons _ s).isInfix)
    · split at h
      · cases h
      · cases h
        exact ⟨rfl, trivial⟩
    · cases h
      split <;> exact ⟨rfl, trivial⟩
    · cases h
      exact ⟨rfl, trivial⟩
    · cases h
      exact ⟨rfl, trivial⟩
    · next h₁ h₂ h₃ h₄ h₅ h₆ =>
      split at h
      · cases h
        exact ⟨rfl, trivial⟩
      · next hne =>
        cases h
        simp only [not_or, Option.not_isSome_iff_eq_none, Text.after?_eq_none] at hne
        refine ⟨rfl, ⟨⟨List.cons_ne_nil _ _, ht, hc⟩, ?_, hne.1, hne.2⟩⟩
        simp only [sigils, List.head?_cons]
        grind

theorem classify_of_isName {name : Text} (h : IsName name) :
    classify name = .ok (.reference name) := by
  obtain ⟨sigil, s, rfl⟩ := List.exists_cons_of_ne_nil h.nonempty
  have hsigil := h.unmarked
  simp only [sigils, List.head?_cons, List.forall_mem_cons, ne_eq, Option.some.injEq] at hsigil
  have helse : ¬ (sigil :: s = "else".toList ∨
      (Text.after? "else ".toList (sigil :: s)).isSome) := by
    rw [not_or, Option.not_isSome_iff_eq_none, Text.after?_eq_none]
    exact ⟨h.not_else, h.not_else_if⟩
  simp only [classify]
  split
  case h_7 => rw [if_neg helse]
  all_goals simp at hsigil

/-- The content of a tag is a part of what stands between its delimiters, and trimmed. -/
theorem Interior.content_infix (inner : Text) :
    (Interior.ofText inner).content <:+: inner ∧
      Text.trim (Interior.ofText inner).content = (Interior.ofText inner).content := by
  refine ⟨(Text.trim_isInfix _).trans ?_, Text.trim_trim _⟩
  have htail (b : Bool) : (if b then inner.tail else inner) <:+: inner := by
    cases b
    · exact List.infix_rfl
    · exact (List.tail_suffix inner).isInfix
  have hlast (b : Bool) (s : Text) : (if b then s.dropLast else s) <:+: s := by
    cases b
    · exact List.infix_rfl
    · exact (List.dropLast_prefix s).isInfix
  exact (hlast _ _).trans (htail _)

end Lexeme

/-- The text `t` can follow `s` without a new tag between them: it is empty, or begins with a tag
that does not begin in `s`. -/
def Text.Joins (s t : Text) : Prop := t = [] ∨ (Lexeme.tagOpen <+: t ∧ s.getLast? ≠ some '{')

theorem Text.Joins.of_append {s u t : Text} (h : (u ++ s).Joins t) : s.Joins t := by
  rcases h with rfl | ⟨ho, hlast⟩
  · exact .inl rfl
  · refine .inr ⟨ho, ?_⟩
    cases s with
    | nil => simp
    | cons c s => rwa [List.getLast?_append_of_ne_nil u (List.cons_ne_nil c s)] at hlast

namespace Cursor
open Lexeme

theorem enclosed_eq_ok {c d : Cursor} {opener closer : Text}
    {classify : Text → Except TagFault Token} {l : Lexeme}
    (h : c.enclosed opener closer classify = (.ok l, d)) :
    ∃ inner rest token, Text.cut? closer (c.rest.drop opener.length) = some (inner, rest) ∧
      classify (Interior.ofText inner).content = .ok token ∧
      l = ⟨token, c.offset, (Interior.ofText inner).stripBefore,
        (Interior.ofText inner).stripAfter⟩ ∧
      d = c.past (opener ++ inner ++ closer) rest := by
  unfold enclosed at h
  split at h
  · simp at h
  · next inner rest hc =>
    dsimp only at h
    split at h
    · next token ht =>
      cases h
      exact ⟨inner, rest, token, hc, ht, rfl, rfl⟩
    · simp at h

/-- A tag is no text, and what it holds is fit to be written in a tag. -/
theorem tag_expressible {c d : Cursor} {l : Lexeme} (h : c.tag = (.ok l, d)) :
    l.token.isText = false ∧ l.token.Expressible := by
  unfold tag at h
  split at h
  · unfold comment at h
    split at h
    · split at h
      · simp at h
      · cases h
        exact ⟨rfl, trivial⟩
    · simp at h
  · split at h
    · obtain ⟨_, _, _, _, ht, rfl, -⟩ := enclosed_eq_ok h
      cases ht
      exact ⟨rfl, trivial⟩
    · obtain ⟨inner, rest, token, hcut, ht, rfl, -⟩ := enclosed_eq_ok h
      obtain ⟨hi, htrim⟩ := Interior.content_infix inner
      have hopen := ((Text.cut?_eq_some (by simp [tagClose])).1 hcut).2
      refine classify_expressible ht htrim fun hc => hopen ?_
      exact (hc.trans hi).trans (List.prefix_append _ _).isInfix

/-- A lexeme is plain text up to the next tag, or the tag at the cursor. -/
theorem next_cases {c d : Cursor} {l : Lexeme} (h : c.next = (.ok (some l), d)) :
    (∃ value, l = ⟨.text value, c.offset, false, false⟩ ∧ IsPlain value ∧
      c.rest = value ++ d.rest ∧ ¬ tagOpen <+: c.rest ∧ (d.rest = [] ∨ tagOpen <+: d.rest)) ∨
    (tagOpen <+: c.rest ∧ c.tag = (.ok l, d)) := by
  unfold next at h
  split at h
  · simp at h
  · next hne =>
    split at h
    · next rest hcut =>
      right
      exact ⟨⟨rest, (Text.cut?_eq_some_nil.1 hcut).symm⟩, tag_of_map_some h⟩
    · next text rest hx hcut =>
      left
      cases h
      obtain ⟨hr, hfree⟩ := (Text.cut?_eq_some (by simp [tagOpen])).1 hcut
      have hplain : IsPlain text :=
        ⟨hx, fun hi => hfree (hi.trans (List.prefix_append _ _).isInfix)⟩
      refine ⟨text, rfl, hplain, by simpa [past] using hr, ?_, .inr (List.prefix_append _ _)⟩
      rintro ⟨t, ht⟩
      rw [Text.cut?_eq_some_nil.2 ht.symm] at hcut
      cases hcut
      exact hx rfl
    · next hcut =>
      left
      cases h
      have hfree := Text.cut?_eq_none.1 hcut
      refine ⟨c.rest, rfl, ⟨by simpa using hne, hfree⟩, by simp [past], ?_, .inl rfl⟩
      exact fun hp => hfree hp.isInfix

/-- Plain text is read up to the tag behind it, unless the two together look like an earlier
tag. -/
theorem next_of_text {c : Cursor} {value rest : Text} (hv : IsPlain value)
    (hc : c.rest = value ++ rest) (hr : value.Joins rest) :
    c.next = (.ok (some ⟨.text value, c.offset, false, false⟩), c.past value rest) := by
  have hne : c.rest.isEmpty = false := by simp [hc, hv.nonempty]
  have hopen : tagOpen ≠ [] := by simp [tagOpen]
  unfold next
  simp only [hne, Bool.false_eq_true, if_false]
  rcases hr with rfl | ⟨⟨tail, rfl⟩, hlast⟩
  · rw [List.append_nil] at hc
    simp [hc, Text.cut?_eq_none.2 hv.tagless]
  · have hfree : ¬ tagOpen <:+: value ++ tagOpen.dropLast := by
      intro h
      rcases List.infix_concat_iff.1 h with hs | hi
      · obtain ⟨s, hs⟩ := hs
        have hs' : s ++ ['{'] ++ ['{'] = value ++ ['{'] := by simpa [tagOpen] using hs
        rw [← List.append_cancel_right hs'] at hlast
        simp at hlast
      · exact hv.tagless hi
    have hcut : Text.cut? tagOpen c.rest = some (value, tail) :=
      (Text.cut?_eq_some hopen).2 ⟨by simpa using hc, hfree⟩
    obtain ⟨e, s, rfl⟩ := List.exists_cons_of_ne_nil hv.nonempty
    simp [hcut]

/-- A tag is read up to its first closing mark, if its content makes a token. -/
theorem next_of_tag {c : Cursor} {inner rest : Text} {token : Token}
    (hc : c.rest = tagOpen ++ inner ++ tagClose ++ rest)
    (hi : ¬ tagClose <:+: inner ++ ['}']) (hbang : inner.head? ≠ some '!')
    (hbrace : inner.head? ≠ some '{')
    (ht : classify (Interior.ofText inner).content = .ok token) :
    c.next = (.ok (some ⟨token, c.offset, (Interior.ofText inner).stripBefore,
      (Interior.ofText inner).stripAfter⟩), c.past (tagOpen ++ inner ++ tagClose) rest) := by
  have hne : c.rest.isEmpty = false := by simp [hc, tagOpen]
  have hcut : Text.cut? tagOpen c.rest = some ([], inner ++ tagClose ++ rest) :=
    Text.cut?_eq_some_nil.2 (by simpa using hc)
  -- Comments and raw tags show in the character behind the opening mark.
  have hthird {x : Char} (t : Text) (hx : inner.head? ≠ some x) (hclose : x ≠ '}') :
      (tagOpen ++ x :: t).isPrefixOf c.rest = false := by
    rw [Bool.eq_false_iff, Ne, List.isPrefixOf_iff_prefix, hc, List.append_assoc,
      List.append_assoc, List.prefix_append_right_inj]
    cases inner with
    | nil => simp [tagClose, List.cons_prefix_cons, hclose]
    | cons e inner =>
      rw [List.cons_append, List.cons_prefix_cons]
      rintro ⟨rfl, _⟩
      exact hx rfl
  have hcomment : commentOpen.isPrefixOf c.rest = false := hthird ['-', '-'] hbang (by decide)
  have hraw : rawOpen.isPrefixOf c.rest = false := hthird [] hbrace (by decide)
  have hinner : Text.cut? tagClose (c.rest.drop tagOpen.length) = some (inner, rest) := by
    rw [hc, List.append_assoc, List.append_assoc, List.drop_left, ← List.append_assoc]
    exact (Text.cut?_eq_some (by simp [tagClose])).2 ⟨rfl, hi⟩
  have htag : c.tag = (.ok ⟨token, c.offset, (Interior.ofText inner).stripBefore,
      (Interior.ofText inner).stripAfter⟩, c.past (tagOpen ++ inner ++ tagClose) rest) := by
    simp [tag, hcomment, hraw, enclosed, hinner, ht]
  simp [next, hne, hcut, htag, Except.map]

/-- The lexemes from a cursor to the end, one after the other. -/
inductive Scanned : Cursor → List Lexeme → Prop
  | done {c : Cursor} : c.rest = [] → Scanned c []
  | step {c d : Cursor} {l : Lexeme} {ls : List Lexeme} :
    c.next = (.ok (some l), d) → Scanned d ls → Scanned c (l :: ls)

theorem next_eq_none {c d : Cursor} (h : c.next = (.ok none, d)) : c.rest = [] := by
  unfold next at h
  split at h
  · next he => simpa using he
  · split at h
    · obtain ⟨h1, _⟩ := Prod.mk.inj h
      revert h1
      cases c.tag.1 <;> simp [Except.map]
    · simp at h
    · simp at h

theorem lexemes_eq_ok {c : Cursor} {ls : List Lexeme} : c.lexemes = .ok ls ↔ Scanned c ls := by
  constructor
  · intro h
    fun_induction lexemes c generalizing ls with
    | case1 => simp at h
    | case2 c d hn =>
      cases h
      exact .done (next_eq_none hn)
    | case3 c l d hn ih =>
      cases hd : d.lexemes with
      | error e => simp [hd, Except.map] at h
      | ok rest =>
        simp only [hd, Except.map, Except.ok.injEq] at h
        exact h ▸ .step hn (ih hd)
  · intro h
    induction h with
    | done hr =>
      rw [lexemes_eq]
      simp [next, hr]
    | step hn _ ih =>
      rw [lexemes_eq, hn]
      simp [ih, Except.map]

namespace Scanned

theorem expressible {c : Cursor} {ls : List Lexeme} (h : Scanned c ls) :
    ∀ l ∈ ls, l.token.Expressible := by
  induction h with
  | done => simp
  | step hn _ ih =>
    refine List.forall_mem_cons.2 ⟨?_, ih⟩
    rcases next_cases hn with ⟨value, rfl, hv, _⟩ | ⟨_, ht⟩
    · exact hv
    · exact (tag_expressible ht).2

/-- In front of a tag, and at the end, no text is read. -/
theorem head_isText {c : Cursor} {ls : List Lexeme} (h : Scanned c ls)
    (hr : c.rest = [] ∨ tagOpen <+: c.rest) : ∀ l ∈ ls.head?, l.token.isText = false := by
  cases h with
  | done => simp
  | step hn _ =>
    rintro l ⟨rfl⟩
    rcases next_cases hn with ⟨value, rfl, hv, hrest, hno, _⟩ | ⟨_, ht⟩
    · rcases hr with hr | hr
      · simp [hr, hv.nonempty] at hrest
      · exact absurd hr hno
    · exact (tag_expressible ht).1

/-- Between two texts there is a tag. -/
theorem apart {c : Cursor} {ls : List Lexeme} (h : Scanned c ls) :
    ls.IsChain (fun k l => k.token.Apart l.token) := by
  induction h with
  | done => simp
  | step hn hs ih =>
    refine List.isChain_cons.2 ⟨fun m hm => ?_, ih⟩
    rcases next_cases hn with ⟨value, rfl, _, _, _, hrest⟩ | ⟨_, ht⟩
    · simp [Token.Apart, hs.head_isText hrest m hm]
    · simp [Token.Apart, (tag_expressible ht).1]

end Scanned

/-- The lexemes `ls` are read from `c` one after the other, and leave the cursor at `d`. -/
inductive Reaches : Cursor → List Lexeme → Cursor → Prop
  | refl (c : Cursor) : Reaches c [] c
  | step {c d e : Cursor} {l : Lexeme} {ls : List Lexeme} :
    c.next = (.ok (some l), d) → Reaches d ls e → Reaches c (l :: ls) e

theorem scanned_iff_reaches {c : Cursor} {ls : List Lexeme} :
    Scanned c ls ↔ ∃ d, c.Reaches ls d ∧ d.next.1 = .ok none := by
  constructor
  · intro h
    induction h with
    | @done c hr => exact ⟨c, .refl c, by simp [next, hr]⟩
    | step hn _ ih =>
      obtain ⟨d, hd, hend⟩ := ih
      exact ⟨d, .step hn hd, hend⟩
  · rintro ⟨d, hd, hend⟩
    induction hd with
    | refl c => exact .done (next_eq_none (Prod.ext hend rfl))
    | step hn _ ih => exact .step hn (ih hend)

/-- The reading of all lexemes fails with the first fault that it meets. -/
theorem lexemes_eq_error {c : Cursor} {e : Error} :
    c.lexemes = .error e ↔ ∃ ls d, c.Reaches ls d ∧ d.next.1 = .error e := by
  constructor
  · intro h
    fun_induction lexemes c with
    | case1 c e' d hn =>
      cases h
      exact ⟨[], c, .refl c, by rw [hn]⟩
    | case2 => cases h
    | case3 c l d hn ih =>
      cases hd : d.lexemes with
      | ok ls => simp [hd, Except.map] at h
      | error e' =>
        rw [hd] at h
        cases h
        obtain ⟨ls, f, hf, hend⟩ := ih hd
        exact ⟨l :: ls, f, .step hn hf, hend⟩
  · rintro ⟨ls, d, hd, hend⟩
    induction hd with
    | refl c =>
      rw [lexemes_eq, show c.next = (.error e, c.next.2) from Prod.ext hend rfl]
    | step hn _ ih =>
      rw [lexemes_eq, hn]
      simp [ih hend, Except.map]

end Cursor

end HandlebarsToTwig
