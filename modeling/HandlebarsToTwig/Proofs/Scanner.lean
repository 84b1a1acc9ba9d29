import HandlebarsToTwig.Proofs.LongComments
import Mathlib.Data.Nat.PSub

/-! Reading lexemes by byte offsets. The template stays whole, the place in it is an offset, and
every text is cut out between two offsets, which fails if there is no such part. It never does: the
cursor, which holds the rest of the template itself, gives the same answers. -/
namespace HandlebarsToTwig

namespace Lexeme

/-- The text without a `~` at its front, which is one byte. -/
def unmarkFront? (s : Text) : Option Text := if s.head? == some '~' then s.from? 1 else some s

/-- The text without a `~` at its end; there must be a byte to leave out. -/
def unmarkBack? (s : Text) : Option Text :=
  if s.getLast? == some '~' then s.byteSize.ppred.bind (s.slice? 0) else some s

/-- What stands between a tag's delimiters, cut out by byte offsets. -/
def Interior.slice? (inner : Text) : Option Interior := do
  let core ← unmarkFront? inner
  let content ← unmarkBack? core
  pure ⟨Text.trim content, inner.head? == some '~', core.getLast? == some '~'⟩

end Lexeme

/-- A place in a template, given by its byte offset. -/
structure Scanner where
  source : Text
  offset : Nat
  deriving DecidableEq, Repr

namespace Scanner
open Lexeme

def rest? (s : Scanner) : Option Text := s.source.from? s.offset

def advance (s : Scanner) (bytes : Nat) : Scanner := { s with offset := s.offset + bytes }

/-- The long comment at the front of `rest`. -/
def comment? (s : Scanner) (rest : Text) : Option (Except Error Lexeme × Scanner) :=
  match (Text.find? commentClose rest).filter (commentOpen.byteSize ≤ ·) with
  | none => some (.error (.tag .unterminatedComment s.offset), s)
  | some stop => do
    let body ← rest.slice? commentOpen.byteSize stop
    pure (.ok ⟨.comment body, s.offset, false, false⟩, s.advance (stop + commentClose.byteSize))

/-- The tag at the front of `rest` that stands between `opener` and `closer`. -/
def enclosed? (s : Scanner) (rest opener closer : Text)
    (classify : Text → Except TagFault Token) : Option (Except Error Lexeme × Scanner) := do
  let tail ← rest.from? opener.byteSize
  match Text.find? closer tail with
  | none => pure (.error (.tag .unterminatedTag s.offset), s)
  | some found =>
    let stop := found + opener.byteSize
    let inner ← rest.slice? opener.byteSize stop
    let interior ← Interior.slice? inner
    let behind := s.advance (stop + closer.byteSize)
    match classify interior.content with
    | .ok token =>
      pure (.ok ⟨token, s.offset, interior.stripBefore, interior.stripAfter⟩, behind)
    | .error fault => pure (.error (.tag fault s.offset), behind)

def tag? (s : Scanner) : Option (Except Error Lexeme × Scanner) := do
  let rest ← s.rest?
  if commentOpen.isPrefixOf rest then s.comment? rest
  else if rawOpen.isPrefixOf rest then
    s.enclosed? rest rawOpen rawClose fun content => .ok (.unescaped content)
  else s.enclosed? rest tagOpen tagClose classify

/-- The next lexeme and the place behind it; none if a part to be cut out does not exist. -/
def next? (s : Scanner) : Option (Except Error (Option Lexeme) × Scanner) := do
  let rest ← s.rest?
  if rest.isEmpty then pure (.ok none, s)
  else
    match Text.find? tagOpen rest with
    | some 0 => s.tag?.map fun (result, s) => (result.map some, s)
    | some stop =>
      let value ← rest.slice? 0 stop
      pure (.ok (some ⟨.text value, s.offset, false, false⟩), s.advance stop)
    | none => pure (.ok (some ⟨.text rest, s.offset, false, false⟩), s.advance rest.byteSize)

end Scanner

namespace Lexeme

theorem unmarkFront?_eq (s : Text) :
    unmarkFront? s = some (if s.head? == some '~' then s.tail else s) := by
  unfold unmarkFront?
  split
  · next h =>
    obtain ⟨t, rfl⟩ := List.head?_eq_some_iff.1 (beq_iff_eq.1 h)
    exact Text.from?_append ['~'] t
  · rfl

theorem unmarkBack?_eq (s : Text) :
    unmarkBack? s = some (if s.getLast? == some '~' then s.dropLast else s) := by
  unfold unmarkBack?
  split
  · next h =>
    obtain ⟨t, rfl⟩ := List.getLast?_eq_some_iff.1 (beq_iff_eq.1 h)
    have hsize : Text.byteSize (t ++ ['~']) = Text.byteSize t + 1 := Text.byteSize_append t ['~']
    rw [hsize, Nat.ppred_succ, List.dropLast_concat]
    exact Text.slice?_zero t ['~']
  · rfl

/-- The marks on either side can be cut off, also where there is only one character. -/
theorem Interior.slice?_eq (inner : Text) :
    Interior.slice? inner = some (Interior.ofText inner) := by
  rw [Interior.slice?, unmarkFront?_eq, Option.bind_eq_bind, Option.bind_some, unmarkBack?_eq]
  rfl

end Lexeme

namespace Cursor
open Lexeme

/-- The place of a cursor in the whole template. -/
def inSource (source : Text) (c : Cursor) : Scanner := ⟨source, c.offset⟩

/-- What stands in front of the cursor is what follows its offset in the template. -/
def StandsIn (c : Cursor) (source : Text) : Prop :=
  ∃ before, source = before ++ c.rest ∧ before.byteSize = c.offset

theorem Passes.standsIn {c d : Cursor} {consumed source : Text} (h : c.Passes consumed d)
    (hc : c.StandsIn source) : d.StandsIn source := by
  obtain ⟨before, rfl, hb⟩ := hc
  refine ⟨before ++ consumed, ?_, ?_⟩
  · rw [h.rest, List.append_assoc]
  · rw [Text.byteSize_append, hb, h.offset]

variable {c : Cursor} {source : Text}

theorem StandsIn.rest?_eq (h : c.StandsIn source) : (c.inSource source).rest? = some c.rest := by
  obtain ⟨before, rfl, hb⟩ := h
  rw [Scanner.rest?, inSource, ← hb]
  exact Text.from?_append before c.rest

theorem inSource_past (consumed rest : Text) :
    (c.past consumed rest).inSource source = (c.inSource source).advance consumed.byteSize := rfl

theorem comment?_eq (source : Text) (h : commentOpen <+: c.rest) :
    (c.inSource source).comment? c.rest =
      some (c.comment.1, c.comment.2.inSource source) := by
  unfold Scanner.comment? Text.find?
  rcases comment_of_commentOpen h with ⟨hcomment, hearly⟩ | ⟨body, rest, hcut, hcomment⟩
  · rw [hcomment]
    cases hcut : Text.cut? commentClose c.rest with
    | none => rfl
    | some cut =>
      have hsize := Nat.not_le.2 (hearly cut.1 cut.2 hcut)
      simp only [Option.map_some, Option.filter_some, hsize, decide_false, Bool.false_eq_true,
        if_false]
      rfl
  · rw [hcut, hcomment]
    have hsize : commentOpen.byteSize ≤ (commentOpen ++ body).byteSize :=
      Text.byteSize_mono (List.prefix_append commentOpen body)
    have hbody : c.rest.slice? commentOpen.byteSize (commentOpen ++ body).byteSize = some body := by
      refine Text.slice?_eq_some.2 ⟨commentOpen, commentClose ++ rest, ?_, rfl, rfl⟩
      rw [Text.eq_append_of_cut? hcut, List.append_assoc]
    simp only [Option.map_some, Option.filter_some, hsize, decide_true, if_true, hbody,
      Option.bind_eq_bind, Option.bind_some, inSource_past,
      Text.byteSize_append (commentOpen ++ body)]
    rfl

theorem enclosed?_eq (source closer : Text) (classify : Text → Except TagFault Token)
    {opener : Text} (h : opener <+: c.rest) :
    (c.inSource source).enclosed? c.rest opener closer classify =
      some ((c.enclosed opener closer classify).1,
        (c.enclosed opener closer classify).2.inSource source) := by
  obtain ⟨tail, htail⟩ := h
  have hfrom : c.rest.from? opener.byteSize = some tail := htail ▸ Text.from?_append opener tail
  have hdrop : c.rest.drop opener.length = tail := htail ▸ List.drop_left
  rw [Scanner.enclosed?, enclosed, hfrom, hdrop, Option.bind_eq_bind, Option.bind_some, Text.find?]
  cases hcut : Text.cut? closer tail with
  | none => rfl
  | some cut =>
    obtain ⟨inner, rest⟩ := cut
    have hspan : c.rest = opener ++ inner ++ (closer ++ rest) := by
      rw [← htail, Text.eq_append_of_cut? hcut]
      simp only [List.append_assoc]
    have hinner :
        c.rest.slice? opener.byteSize (inner.byteSize + opener.byteSize) = some inner := by
      rw [hspan, Nat.add_comm]
      exact Text.slice?_append opener inner (closer ++ rest)
    have hplace : (c.past (opener ++ inner ++ closer) rest).inSource source =
        (c.inSource source).advance (inner.byteSize + opener.byteSize + closer.byteSize) := by
      rw [inSource_past, Text.byteSize_append, Text.byteSize_append,
        Nat.add_comm inner.byteSize]
    simp only [Option.map_some, hinner, Interior.slice?_eq, Option.bind_eq_bind, Option.bind_some]
    cases classify (Interior.ofText inner).content with
    | ok token =>
      rw [hplace]
      rfl
    | error fault =>
      rw [hplace]
      rfl

/-- A tag at the cursor can be cut out by offsets, whatever stands in it. -/
theorem StandsIn.tag?_eq (h : c.StandsIn source) (ho : tagOpen <+: c.rest) :
    (c.inSource source).tag? = some (c.tag.1, c.tag.2.inSource source) := by
  rw [Scanner.tag?, h.rest?_eq, Option.bind_eq_bind, Option.bind_some, tag]
  split
  · next hw => exact comment?_eq source (List.isPrefixOf_iff_prefix.1 hw)
  · split
    · next hw => exact enclosed?_eq source rawClose _ (List.isPrefixOf_iff_prefix.1 hw)
    · exact enclosed?_eq source tagClose classify ho

/-- Where the cursor stands in the template, no part to be cut out is missing. -/
theorem StandsIn.next?_eq (h : c.StandsIn source) :
    (c.inSource source).next? = some (c.next.1, c.next.2.inSource source) := by
  rw [Scanner.next?, h.rest?_eq, Option.bind_eq_bind, Option.bind_some, next]
  split
  · rfl
  · rw [Text.find?]
    cases hcut : Text.cut? tagOpen c.rest with
    | none => rfl
    | some cut =>
      obtain ⟨text, rest⟩ := cut
      have hrest : c.rest = text ++ (tagOpen ++ rest) := by
        rw [Text.eq_append_of_cut? hcut, List.append_assoc]
      cases text with
      | nil =>
        simp only [Option.map_some, Text.byteSize_nil, h.tag?_eq ⟨rest, hrest.symm⟩]
      | cons x text =>
        have hpos := Text.byteSize_pos (List.cons_ne_nil x text)
        have hvalue : c.rest.slice? 0 (Text.byteSize (x :: text)) = some (x :: text) := by
          rw [hrest]
          exact Text.slice?_zero (x :: text) (tagOpen ++ rest)
        obtain ⟨n, hn⟩ := Nat.exists_eq_succ_of_ne_zero (Nat.ne_of_gt hpos)
        simp only [Option.map_some]
        rw [hn] at hvalue ⊢
        simp only [hvalue, Option.bind_some, inSource_past, hn]
        rfl

end Cursor

end HandlebarsToTwig
