import HandlebarsToTwig.Proofs.Lexing

/-! Lexemes and the template they are read from. The ranges of the lexemes, from the offset of each
to that of the next one, cut the template between characters and leave nothing out, and what a
lexeme holds stands in its range. -/
namespace HandlebarsToTwig

namespace Text

theorem byteSize_pos {s : Text} (h : s ≠ []) : 0 < s.byteSize := by
  obtain ⟨c, t, rfl⟩ := List.exists_cons_of_ne_nil h
  have := c.utf8Size_pos
  simp only [byteSize_cons]
  omega

/-- `span` is what stands in the text from the byte offset `start` up to `stop`. Neither offset is
inside of a character. -/
def Spans (source : Text) (start stop : Nat) (span : Text) : Prop :=
  ∃ before after, source = before ++ span ++ after ∧ before.byteSize = start ∧
    (before ++ span).byteSize = stop

/-- The parts stand in the text as they are, one behind the other. -/
def InOrder : (parts : List Text) → Text → Prop
  | [], _ => True
  | p :: parts, s => ∃ before after, s = before ++ p ++ after ∧ InOrder parts after

theorem inOrder_singleton {p s : Text} : InOrder [p] s ↔ p <:+: s := by
  constructor
  · rintro ⟨before, after, rfl, -⟩
    exact ⟨before, after, rfl⟩
  · rintro ⟨before, after, rfl⟩
    exact ⟨before, after, rfl, trivial⟩

theorem InOrder.mono {parts : List Text} {s t : Text} (h : InOrder parts s) (hs : s <:+: t) :
    InOrder parts t := by
  induction parts generalizing s t with
  | nil => trivial
  | cons p parts ih =>
    obtain ⟨before, after, rfl, hrest⟩ := h
    obtain ⟨u, v, rfl⟩ := hs
    refine ⟨u ++ before, after ++ v, by simp, ih hrest ?_⟩
    exact (List.prefix_append after v).isInfix

/-- The first word of a text and what is left of the rest stand one behind the other. -/
theorem firstWord_inOrder (s : Text) :
    InOrder ((firstWord s).1 :: (firstWord s).2.nonempty?.toList) s := by
  refine ⟨[], s.dropWhile (!isBlank ·), ?_, ?_⟩
  · simp [firstWord]
  · unfold nonempty?
    split
    · trivial
    · exact inOrder_singleton.2 (trim_isInfix _)

end Text

namespace Token

/-- The texts that a token holds, in the order in which they are written. -/
def payload : Token → List Text
  | text value => [value]
  | reference name => [name]
  | opening helper args => helper :: args.toList
  | closing helper => [helper]
  | alternative => []
  | comment body => [body]
  | unescaped body => [body]
  | inclusion body => [body]
  | inverse body => [body]

/-- How the range of a token looks: a text is its own range, and has no tag in it; a tag begins and
ends with the marks of tags, and what it holds stands between them. -/
def Covers : Token → (span : Text) → Prop
  | text value, span => span = value ∧ IsPlain value
  | token, span => ∃ inner, span = Lexeme.tagOpen ++ inner ++ Lexeme.tagClose ∧
      Text.InOrder token.payload inner

theorem covers_of_tag {token : Token} (h : token.isText = false) {span inner : Text}
    (hs : span = Lexeme.tagOpen ++ inner ++ Lexeme.tagClose)
    (hp : Text.InOrder token.payload inner) : token.Covers span := by
  cases token with
  | text value => simp [isText] at h
  | _ => exact ⟨inner, hs, hp⟩

end Token

namespace Lexeme

/-- What a tag's content is read as stands in the content. -/
theorem classify_inOrder {content : Text} {token : Token} (h : classify content = .ok token) :
    Text.InOrder token.payload content := by
  cases content with
  | nil => simp [classify] at h
  | cons sigil s =>
    have hbody : Text.trim s <:+: sigil :: s :=
      (Text.trim_isInfix s).trans (List.suffix_cons sigil s).isInfix
    have hone : Text.InOrder [Text.trim s] (sigil :: s) := Text.inOrder_singleton.2 hbody
    simp only [classify] at h
    split at h
    · cases h
      exact hone
    · split at h
      · cases h
      · cases h
        exact (Text.firstWord_inOrder (Text.trim s)).mono hbody
    · split at h
      · cases h
      · cases h
        exact hone
    · cases h
      split
      · trivial
      · exact hone
    · cases h
      exact hone
    · cases h
      exact hone
    · split at h
      · cases h
        trivial
      · cases h
        exact Text.inOrder_singleton.2 List.infix_rfl

/-- Every lexeme together with the offset where its range ends: that of the next lexeme, or of the
end of the template. -/
def ranges (size : Nat) : List Lexeme → List (Lexeme × Nat)
  | [] => []
  | l :: ls => (l, (ls.head?.map offset).getD size) :: ranges size ls

/-- The template is cut into `spans`, one for each lexeme: the range from its offset to the next one
is its span, and covers it. -/
structure Partitions (source : Text) (ls : List Lexeme) (spans : List Text) : Prop where
  flatten : spans.flatten = source
  first : ∀ l ∈ ls.head?, l.offset = 0
  increasing : (ls.map offset).Pairwise (· < ·)
  covers : List.Forall₂ (fun range span =>
    source.Spans range.1.offset range.2 span ∧ range.1.token.Covers span)
    (ranges source.byteSize ls) spans
  apart : ls.IsChain fun k l => k.token.Apart l.token

/-- Lexemes that follow each other from an offset on, each with its span. -/
inductive Tiled : (offset : Nat) → List Lexeme → List Text → Prop
  | nil {n : Nat} : Tiled n [] []
  | cons {n : Nat} {l : Lexeme} {span : Text} {ls : List Lexeme} {spans : List Text} :
    l.offset = n → span ≠ [] → l.token.Covers span → Tiled (n + span.byteSize) ls spans →
    Tiled n (l :: ls) (span :: spans)

namespace Tiled

variable {n : Nat} {ls : List Lexeme} {spans : List Text}

theorem le_offset (h : Tiled n ls spans) : ∀ l ∈ ls, n ≤ l.offset := by
  induction h with
  | nil => simp
  | cons hoffset _ _ _ ih =>
    refine List.forall_mem_cons.2 ⟨Nat.le_of_eq hoffset.symm, fun l hl => ?_⟩
    have := ih l hl
    omega

theorem increasing (h : Tiled n ls spans) : (ls.map Lexeme.offset).Pairwise (· < ·) := by
  induction h with
  | nil => simp
  | cons hoffset hne _ ht ih =>
    refine List.pairwise_cons.2 ⟨?_, ih⟩
    intro m hm
    obtain ⟨l, hl, rfl⟩ := List.mem_map.1 hm
    have := ht.le_offset l hl
    have := Text.byteSize_pos hne
    omega

/-- The first lexeme stands at the offset; if there is none, the end of the template does. -/
theorem head_offset (h : Tiled n ls spans) :
    (ls.head?.map Lexeme.offset).getD (n + Text.byteSize spans.flatten) = n := by
  cases h with
  | nil => simp
  | cons hoffset _ _ _ => simp [hoffset]

/-- The spans stand behind what was read before them, `before`, up to the end of the template. -/
theorem covers (h : Tiled n ls spans) (before : Text) (hn : before.byteSize = n) :
    List.Forall₂ (fun range span =>
      Text.Spans (before ++ spans.flatten) range.1.offset range.2 span ∧
        range.1.token.Covers span) (ranges (Text.byteSize (before ++ spans.flatten)) ls) spans := by
  induction h generalizing before with
  | nil => exact .nil
  | @cons n l span ls spans hoffset hne hcovers ht ih =>
    have hspan : (before ++ span).byteSize = n + span.byteSize := by rw [Text.byteSize_append, hn]
    have hsize : Text.byteSize (before ++ span ++ spans.flatten) =
        n + span.byteSize + Text.byteSize spans.flatten := by rw [Text.byteSize_append, hspan]
    have hrest := ih (before ++ span) hspan
    rw [List.flatten_cons, ← List.append_assoc]
    refine .cons ⟨⟨before, spans.flatten, rfl, by rw [hn, hoffset], ?_⟩, hcovers⟩ hrest
    dsimp only
    rw [hspan, hsize, ht.head_offset]

end Tiled

end Lexeme

namespace Cursor
open Lexeme

/-- The lexeme starts at the cursor `c`, and what stands between the two cursors covers it. -/
def Reads (c : Cursor) (l : Lexeme) (d : Cursor) : Prop :=
  ∃ span, c.Passes span d ∧ l.offset = c.offset ∧ l.token.Covers span

/-- A long comment begins and ends with its own marks, and holds what is between them. -/
theorem comment_reads {c d : Cursor} {l : Lexeme} (h : c.comment = (.ok l, d))
    (ho : commentOpen <+: c.rest) : c.Reads l d := by
  unfold comment at h
  split at h
  · next before rest hcut =>
    split at h
    · simp at h
    · next hlen =>
      cases h
      -- The closing mark may not overlap the opening one, so all of that stands in front of it.
      have hrest : c.rest = before ++ commentClose ++ rest := Text.eq_append_of_cut? hcut
      obtain ⟨body, rfl⟩ : commentOpen <+: before := by
        refine List.prefix_of_prefix_length_le ho ?_ (Nat.not_lt.1 hlen)
        exact ⟨commentClose ++ rest, by rw [hrest, List.append_assoc]⟩
      refine ⟨commentOpen ++ body ++ commentClose, passes_past ?_ hrest, rfl, ?_⟩
      · simp [commentOpen]
      · have hspan : commentOpen ++ body ++ commentClose =
            tagOpen ++ (['!', '-', '-'] ++ body ++ ['-', '-']) ++ tagClose := by
          simp [commentOpen, commentClose, tagOpen, tagClose]
        exact Token.covers_of_tag rfl hspan ⟨['!', '-', '-'], ['-', '-'], rfl, trivial⟩
  · simp at h

/-- A delimited tag is what stands up to its closing mark, with both marks. -/
theorem enclosed_passes {c d : Cursor} {opener closer : Text}
    {classify : Text → Except TagFault Token} {l : Lexeme}
    (h : c.enclosed opener closer classify = (.ok l, d)) (hne : opener ≠ [])
    (ho : opener <+: c.rest) :
    ∃ inner, c.Passes (opener ++ inner ++ closer) d ∧ l.offset = c.offset ∧
      classify (Interior.ofText inner).content = .ok l.token := by
  obtain ⟨inner, rest, token, hcut, ht, rfl, rfl⟩ := enclosed_eq_ok h
  obtain ⟨tail, htail⟩ := ho
  rw [← htail, List.drop_left] at hcut
  refine ⟨inner, passes_past ?_ ?_, rfl, ht⟩
  · simp [hne]
  · rw [← htail, Text.eq_append_of_cut? hcut]
    simp

theorem tag_reads {c d : Cursor} {l : Lexeme} (h : c.tag = (.ok l, d))
    (ho : tagOpen <+: c.rest) : c.Reads l d := by
  have htag := (tag_expressible h).1
  unfold tag at h
  split at h
  · next hw => exact comment_reads h (List.isPrefixOf_iff_prefix.1 hw)
  · split at h
    · next hw =>
      obtain ⟨inner, hp, hoffset, ht⟩ :=
        enclosed_passes h (by simp [rawOpen]) (List.isPrefixOf_iff_prefix.1 hw)
      have hspan : rawOpen ++ inner ++ rawClose = tagOpen ++ ('{' :: inner ++ ['}']) ++ tagClose := by
        simp [rawOpen, rawClose, tagOpen, tagClose]
      refine ⟨_, hp, hoffset, Token.covers_of_tag htag hspan ?_⟩
      rw [← Except.ok.inj ht]
      exact Text.inOrder_singleton.2 ((Interior.content_infix inner).1.trans ⟨['{'], ['}'], rfl⟩)
    · obtain ⟨inner, hp, hoffset, ht⟩ := enclosed_passes h (by simp [tagOpen]) ho
      refine ⟨_, hp, hoffset, Token.covers_of_tag htag rfl ?_⟩
      exact (classify_inOrder ht).mono (Interior.content_infix inner).1

theorem next_reads {c d : Cursor} {l : Lexeme} (h : c.next = (.ok (some l), d)) : c.Reads l d := by
  rcases next_cases h with ⟨value, rfl, hv, hrest, -⟩ | ⟨ho, ht⟩
  · -- The text is all that was passed: both end where the rest begins.
    obtain ⟨span, hp⟩ := next_passes h
    obtain rfl : span = value := List.append_cancel_right (hp.rest.symm.trans hrest)
    exact ⟨span, hp, rfl, rfl, hv⟩
  · exact tag_reads ht ho

/-- The lexemes from a cursor on follow each other from its offset on, and their spans make up the
rest of the template. -/
theorem Scanned.tiled {c : Cursor} {ls : List Lexeme} (h : Scanned c ls) :
    ∃ spans, spans.flatten = c.rest ∧ Tiled c.offset ls spans := by
  induction h with
  | done hr => exact ⟨[], hr.symm, .nil⟩
  | step hn _ ih =>
    obtain ⟨spans, hflat, ht⟩ := ih
    obtain ⟨span, hp, hoffset, hcovers⟩ := next_reads hn
    refine ⟨span :: spans, ?_, .cons hoffset hp.nonempty hcovers (hp.offset ▸ ht)⟩
    rw [List.flatten_cons, hflat, hp.rest]

/-- Nothing of a template is lost when it is read into lexemes without a fault: their ranges cut it
into parts, between characters and in order, and each lexeme is covered by its part. -/
theorem lexemes_partition {source : Text} {ls : List Lexeme}
    (h : (start source).lexemes = .ok ls) : ∃ spans, Partitions source ls spans := by
  have hs := lexemes_eq_ok.1 h
  obtain ⟨spans, hflat, ht⟩ := hs.tiled
  obtain rfl : spans.flatten = source := hflat
  refine ⟨spans, rfl, ?_, ht.increasing, ht.covers [] rfl, hs.apart⟩
  intro l hl
  have := ht.head_offset
  simpa [Option.mem_def.1 hl, start] using this

/-- Characters of several bytes, marks on both sides, a comment that holds a closing mark, raw output
and arguments with spaces in them. -/
theorem lexemes_partition_mixed :
    let source := "é ".toList ++ Lexeme.tagOpen ++ "~#if  a  b ~".toList ++ Lexeme.tagClose ++
      Lexeme.commentOpen ++ " 😀 ".toList ++ Lexeme.tagClose ++ Lexeme.commentClose ++
      Lexeme.rawOpen ++ " raw ".toList ++ Lexeme.rawClose ++ "x".toList
    let lexemes : List Lexeme :=
      [⟨.text "é ".toList, 0, false, false⟩,
        ⟨.opening "if".toList (some "a  b".toList), 3, true, true⟩,
        ⟨.comment (" 😀 ".toList ++ Lexeme.tagClose), 19, false, false⟩,
        ⟨.unescaped "raw".toList, 36, false, false⟩, ⟨.text "x".toList, 47, false, false⟩]
    (start source).lexemes = .ok lexemes ∧ ∃ spans, Partitions source lexemes spans := by
  intro source lexemes
  have h : (start source).lexemes = .ok lexemes := by decide +kernel
  exact ⟨h, lexemes_partition h⟩

end Cursor

end HandlebarsToTwig
