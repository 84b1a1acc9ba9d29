import HandlebarsToTwig.Error
import HandlebarsToTwig.Text.Blank

/-! Reading lexemes one at a time from a cursor. A lexeme or a fault in a tag's content moves the
cursor past it; the end of the template and an unterminated tag leave it where it is. -/
namespace HandlebarsToTwig

structure Cursor where
  offset : Nat
  rest : Text
  deriving DecidableEq, Repr

namespace Cursor

def start (source : Text) : Cursor := ⟨0, source⟩

/-- The cursor after `consumed`, in front of `rest`. -/
def past (c : Cursor) (consumed rest : Text) : Cursor := ⟨c.offset + consumed.byteSize, rest⟩

end Cursor

namespace Lexeme

/-- The token that a tag's trimmed content stands for. -/
def classify : (content : Text) → Except TagFault Token
  | [] => .error .emptyTag
  | sigil :: s =>
    let body := Text.trim s
    match sigil with
    | '!' => .ok (.comment body)
    | '#' =>
      let (helper, args) := Text.firstWord body
      if helper.isEmpty then .error .namelessBlock else .ok (.opening helper args.nonempty?)
    | '/' => if body.isEmpty then .error .namelessClose else .ok (.closing body)
    | '^' => .ok (if body.isEmpty then .alternative else .inverse body)
    | '>' => .ok (.inclusion body)
    | '&' => .ok (.unescaped body)
    | _ =>
      let content := sigil :: s
      if content = "else".toList ∨ (Text.after? "else ".toList content).isSome then
        .ok .alternative
      else .ok (.reference content)

/-- What stands between a tag's delimiters: its content without surrounding blanks, and the `~`
marks on either side. -/
structure Interior where
  content : Text
  stripBefore : Bool
  stripAfter : Bool

def Interior.ofText (inner : Text) : Interior :=
  let stripBefore := inner.head? == some '~'
  let inner := if stripBefore then inner.tail else inner
  let stripAfter := inner.getLast? == some '~'
  let inner := if stripAfter then inner.dropLast else inner
  ⟨Text.trim inner, stripBefore, stripAfter⟩

end Lexeme

namespace Cursor
open Lexeme

/-- The long comment at the cursor. It ends at the first closing mark of the text, which must not
overlap the opening one. -/
def comment (c : Cursor) : Except Error Lexeme × Cursor :=
  match Text.cut? commentClose c.rest with
  | some (before, rest) =>
    if before.length < commentOpen.length then (.error (.tag .unterminatedComment c.offset), c)
    else (.ok ⟨.comment (before.drop commentOpen.length), c.offset, false, false⟩,
      c.past (before ++ commentClose) rest)
  | none => (.error (.tag .unterminatedComment c.offset), c)

/-- The tag at the cursor that stands between `opener` and `closer`. -/
def enclosed (c : Cursor) (opener closer : Text) (classify : Text → Except TagFault Token) :
    Except Error Lexeme × Cursor :=
  match Text.cut? closer (c.rest.drop opener.length) with
  | none => (.error (.tag .unterminatedTag c.offset), c)
  | some (inner, rest) =>
    let interior := Interior.ofText inner
    let c' := c.past (opener ++ inner ++ closer) rest
    match classify interior.content with
    | .ok token => (.ok ⟨token, c.offset, interior.stripBefore, interior.stripAfter⟩, c')
    | .error fault => (.error (.tag fault c.offset), c')

/-- The tag at the cursor. -/
def tag (c : Cursor) : Except Error Lexeme × Cursor :=
  if commentOpen.isPrefixOf c.rest then c.comment
  else if rawOpen.isPrefixOf c.rest then
    c.enclosed rawOpen rawClose fun content => .ok (.unescaped content)
  else c.enclosed tagOpen tagClose classify

/-- The next lexeme, none at the end of the template, and the cursor after it. -/
def next (c : Cursor) : Except Error (Option Lexeme) × Cursor :=
  if c.rest.isEmpty then (.ok none, c)
  else
    match Text.cut? tagOpen c.rest with
    | some ([], _) => (c.tag.1.map some, c.tag.2)
    | some (text, rest) => (.ok (some ⟨.text text, c.offset, false, false⟩),
        c.past text (tagOpen ++ rest))
    | none => (.ok (some ⟨.text c.rest, c.offset, false, false⟩), c.past c.rest [])

/-- `d` stands right behind `consumed`, which is not empty. -/
structure Passes (c : Cursor) (consumed : Text) (d : Cursor) : Prop where
  nonempty : consumed ≠ []
  rest : c.rest = consumed ++ d.rest
  offset : d.offset = c.offset + consumed.byteSize

theorem Passes.rest_lt {c d : Cursor} {consumed : Text} (h : c.Passes consumed d) :
    d.rest.length < c.rest.length := by
  have := List.length_pos_iff.2 h.nonempty
  simp only [h.rest, List.length_append]
  omega

theorem passes_past {c : Cursor} {consumed rest : Text} (hn : consumed ≠ [])
    (hr : c.rest = consumed ++ rest) : c.Passes consumed (c.past consumed rest) := ⟨hn, hr, rfl⟩

/-- A comment is either unterminated, with the cursor in place, or passed. -/
theorem comment_cases (c : Cursor) :
    c.comment = (.error (.tag .unterminatedComment c.offset), c) ∨
      ∃ l consumed d, c.comment = (.ok l, d) ∧ c.Passes consumed d := by
  unfold comment
  split
  · next before rest hc =>
    split
    · exact .inl rfl
    · refine .inr ⟨_, before ++ commentClose, _, rfl, passes_past ?_ ?_⟩
      · simp [commentClose]
      · simpa using Text.eq_append_of_cut? hc
  · exact .inl rfl

/-- A delimited tag is either unterminated, with the cursor in place, or passed, whether its
content is accepted or not. -/
theorem enclosed_cases {c : Cursor} {opener tail : Text} (closer : Text)
    (classify : Text → Except TagFault Token) (ho : opener ≠ []) (hr : c.rest = opener ++ tail) :
    c.enclosed opener closer classify = (.error (.tag .unterminatedTag c.offset), c) ∨
      ∃ r consumed d, c.enclosed opener closer classify = (r, d) ∧ c.Passes consumed d := by
  unfold enclosed
  rw [hr, List.drop_left]
  split
  · exact .inl rfl
  · next inner rest hc =>
    have hp : c.Passes (opener ++ inner ++ closer) (c.past (opener ++ inner ++ closer) rest) := by
      refine passes_past (by simp [ho]) ?_
      rw [hr, Text.eq_append_of_cut? hc]
      simp
    right
    dsimp only
    split
    · exact ⟨_, _, _, rfl, hp⟩
    · exact ⟨_, _, _, rfl, hp⟩

theorem tag_passes {c d : Cursor} {l : Lexeme} {tail : Text} (hr : c.rest = tagOpen ++ tail)
    (h : c.tag = (.ok l, d)) : ∃ consumed, c.Passes consumed d := by
  unfold tag at h
  split at h
  · rcases comment_cases c with hc | ⟨_, consumed, _, hc, hp⟩
    · simp [hc] at h
    · rw [hc] at h
      exact ⟨consumed, (Prod.mk.inj h).2 ▸ hp⟩
  · split at h
    · next hw =>
      obtain ⟨t, ht⟩ := List.isPrefixOf_iff_prefix.1 hw
      rcases enclosed_cases rawClose (fun content => .ok (.unescaped content))
        (by simp [rawOpen]) ht.symm with hc | ⟨_, consumed, _, hc, hp⟩
      · simp [hc] at h
      · rw [hc] at h
        exact ⟨consumed, (Prod.mk.inj h).2 ▸ hp⟩
    · rcases enclosed_cases tagClose classify (by simp [tagOpen]) hr with
        hc | ⟨_, consumed, _, hc, hp⟩
      · simp [hc] at h
      · rw [hc] at h
        exact ⟨consumed, (Prod.mk.inj h).2 ▸ hp⟩

/-- A tag that is read as the next lexeme is read as a tag. -/
theorem tag_of_map_some {c d : Cursor} {l : Lexeme}
    (h : (c.tag.1.map some, c.tag.2) = (.ok (some l), d)) : c.tag = (.ok l, d) := by
  obtain ⟨h1, h2⟩ := Prod.mk.inj h
  refine Prod.ext ?_ h2
  revert h1
  cases c.tag.1 <;> simp [Except.map]

/-- Every lexeme that is read lies between the old cursor and the new one. -/
theorem next_passes {c d : Cursor} {l : Lexeme} (h : c.next = (.ok (some l), d)) :
    ∃ consumed, c.Passes consumed d := by
  unfold next at h
  split at h
  · simp at h
  · next hne =>
    have hne : c.rest ≠ [] := by simpa using hne
    split at h
    · next rest hc =>
      exact tag_passes (by simpa using Text.eq_append_of_cut? hc) (tag_of_map_some h)
    · next text rest hx hc =>
      obtain ⟨_, rfl⟩ := Prod.mk.inj h
      exact ⟨text, passes_past hx (by simpa using Text.eq_append_of_cut? hc)⟩
    · obtain ⟨_, rfl⟩ := Prod.mk.inj h
      exact ⟨c.rest, passes_past hne (by simp)⟩

/-- All lexemes from the cursor to the end of the template, or the first fault. -/
def lexemes (c : Cursor) : Except Error (List Lexeme) :=
  match _h : c.next with
  | (.error e, _) => .error e
  | (.ok none, _) => .ok []
  | (.ok (some l), d) => d.lexemes.map (l :: ·)
termination_by c.rest.length
decreasing_by
  obtain ⟨_, hp⟩ := next_passes _h
  exact hp.rest_lt

theorem lexemes_eq (c : Cursor) :
    c.lexemes =
      match c.next with
      | (.error e, _) => .error e
      | (.ok none, _) => .ok []
      | (.ok (some l), d) => d.lexemes.map (l :: ·) := by
  rw [lexemes]
  split <;> simp_all

end Cursor

end HandlebarsToTwig
