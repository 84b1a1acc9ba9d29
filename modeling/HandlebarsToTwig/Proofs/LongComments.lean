import HandlebarsToTwig.Proofs.ByteOffsets

/-! Where long comments end. Their closing mark is looked for from the start of the opening one,
with which it can overlap; such an overlap hides every closing mark behind it. -/
namespace HandlebarsToTwig

namespace Lexeme

/-- The closing mark begins inside of the opening one exactly if the text goes on with what is
missing of it. -/
theorem exists_standsAt_lt_iff {s : Text} (h : commentOpen <+: s) :
    (∃ n < commentOpen.byteSize, s.StandsAt commentClose n) ↔
      commentOpen ++ tagClose <+: s ∨ commentOpen ++ '-' :: tagClose <+: s := by
  constructor
  · rintro ⟨_, hlt, hn⟩
    obtain ⟨before, after, hs, rfl⟩ := Text.standsAt_iff.1 hn
    have hbefore : before <+: s := ⟨commentClose ++ after, by rw [hs, List.append_assoc]⟩
    have hlen := (Text.length_lt_iff_byteSize_lt hbefore h).2 hlt
    obtain ⟨inside, hinside⟩ := List.prefix_of_prefix_length_le hbefore h (Nat.le_of_lt hlen)
    obtain ⟨t, rfl⟩ := h
    -- Only the last two places of the opening mark hold the dashes that the closing one needs.
    rcases before with _ | ⟨_, _ | ⟨_, _ | ⟨_, _ | ⟨_, _ | ⟨_, before⟩⟩⟩⟩⟩
    all_goals simp [commentOpen, commentClose] at hinside hs hlen
    · left
      simp_all [commentOpen, tagClose]
    · right
      simp_all [commentOpen, tagClose]
    · omega
  · rintro (⟨t, rfl⟩ | ⟨t, rfl⟩)
    · exact ⟨3, by decide, Text.standsAt_iff.2 ⟨['{', '{', '!'], t, rfl, rfl⟩⟩
    · exact ⟨4, by decide, Text.standsAt_iff.2 ⟨['{', '{', '!', '-'], t, rfl, rfl⟩⟩

end Lexeme

namespace Cursor
open Lexeme

theorem next_of_commentOpen {c : Cursor} (h : commentOpen <+: c.rest) :
    c.next = (c.comment.1.map some, c.comment.2) := by
  obtain ⟨s, hs⟩ := h
  have hne : c.rest.isEmpty = false := by simp [← hs, commentOpen]
  have hcut : Text.cut? tagOpen c.rest = some ([], ['!', '-', '-'] ++ s) :=
    Text.cut?_eq_some_nil.2 (by rw [← hs]; rfl)
  have htag : c.tag = c.comment := if_pos (List.isPrefixOf_iff_prefix.2 ⟨s, hs⟩)
  simp only [next, hne, Bool.false_eq_true, if_false, hcut, htag]

/-- Only the first closing mark of the text is looked at. It ends the comment if it stands behind
the opening mark; if it begins inside of that, or if there is none, the comment is unterminated. -/
theorem comment_of_commentOpen {c : Cursor} (h : commentOpen <+: c.rest) :
    (c.comment = (.error (.tag .unterminatedComment c.offset), c) ∧
      ∀ before rest, Text.cut? commentClose c.rest = some (before, rest) →
        before.byteSize < commentOpen.byteSize) ∨
    ∃ body rest, Text.cut? commentClose c.rest = some (commentOpen ++ body, rest) ∧
      c.comment = (.ok ⟨.comment body, c.offset, false, false⟩,
        c.past (commentOpen ++ body ++ commentClose) rest) := by
  unfold comment
  cases hcut : Text.cut? commentClose c.rest with
  | none => exact .inl ⟨rfl, by simp⟩
  | some cut =>
    obtain ⟨before, rest⟩ := cut
    have hbefore : before <+: c.rest :=
      ⟨commentClose ++ rest, by rw [Text.eq_append_of_cut? hcut, List.append_assoc]⟩
    by_cases hlen : before.length < commentOpen.length
    · left
      simp only [hlen, if_true, true_and]
      rintro _ _ ⟨⟩
      exact (Text.length_lt_iff_byteSize_lt hbefore h).1 hlen
    · right
      obtain ⟨body, rfl⟩ := List.prefix_of_prefix_length_le h hbefore (Nat.not_lt.1 hlen)
      refine ⟨body, rest, rfl, ?_⟩
      simp only [hlen, if_false, List.drop_left]

/-- The same by the offsets of the closing marks. -/
theorem longComment_cases {c : Cursor} (h : commentOpen <+: c.rest) :
    (c.next = (.error (.tag .unterminatedComment c.offset), c) ∧
      ((∀ n, ¬ c.rest.StandsAt commentClose n) ∨ ∃ n < 5, c.rest.StandsAt commentClose n)) ∨
    ∃ body rest, c.rest = commentOpen ++ body ++ commentClose ++ rest ∧
      IsLeast {n | c.rest.StandsAt commentClose n} (5 + body.byteSize) ∧
      c.next = (.ok (some ⟨.comment body, c.offset, false, false⟩),
        c.past (commentOpen ++ body ++ commentClose) rest) := by
  have hclose : commentClose ≠ [] := by simp [commentClose]
  rw [next_of_commentOpen h]
  rcases comment_of_commentOpen h with ⟨hcomment, hearly⟩ | ⟨body, rest, hcut, hcomment⟩
  · refine .inl ⟨by rw [hcomment]; rfl, ?_⟩
    cases hcut : Text.cut? commentClose c.rest with
    | none =>
      left
      intro n hn
      obtain ⟨before, after, hs, -⟩ := Text.standsAt_iff.1 hn
      exact Text.cut?_eq_none.1 hcut ⟨before, after, hs.symm⟩
    | some cut => exact .inr ⟨_, hearly cut.1 cut.2 hcut, (Text.isLeast_of_cut? hclose hcut).1⟩
  · have hfirst := Text.isLeast_of_cut? hclose hcut
    rw [Text.byteSize_append] at hfirst
    refine .inr ⟨body, rest, Text.eq_append_of_cut? hcut, hfirst, ?_⟩
    rw [hcomment]
    rfl

/-- Where a long comment ends, at every cursor in front of one. It is refused as unterminated
exactly if no closing mark stands behind the five bytes of the opening one, or if a closing mark
already begins inside of those. Otherwise it ends at the first closing mark behind them: its body is
all that stands in between, and the cursor goes just past the mark. -/
theorem next_longComment {c : Cursor} (h : commentOpen <+: c.rest) :
    (c.next = (.error (.tag .unterminatedComment c.offset), c) ↔
      (∀ n, 5 ≤ n → ¬ c.rest.StandsAt commentClose n) ∨
        commentOpen ++ tagClose <+: c.rest ∨ commentOpen ++ '-' :: tagClose <+: c.rest) ∧
    ∀ n, IsLeast {n | 5 ≤ n ∧ c.rest.StandsAt commentClose n} n →
      ¬ commentOpen ++ tagClose <+: c.rest → ¬ commentOpen ++ '-' :: tagClose <+: c.rest →
      ∃ body rest, c.rest = commentOpen ++ body ++ commentClose ++ rest ∧ c.rest.Spans 5 n body ∧
        c.next =
          (.ok (some ⟨.comment body, c.offset, false, false⟩), ⟨c.offset + (n + 4), rest⟩) := by
  have hoverlap := exists_standsAt_lt_iff h
  rcases longComment_cases h with ⟨hnext, hwhy⟩ | ⟨body, rest, hrest, hfirst, hnext⟩
  · refine ⟨iff_of_true hnext ?_, fun n hn hshort hlong => ?_⟩
    · rcases hwhy with hnone | hinside
      · exact .inl fun n _ => hnone n
      · exact .inr (hoverlap.1 hinside)
    · rcases hwhy with hnone | hinside
      · exact absurd hn.1.2 (hnone n)
      · exact ((hoverlap.1 hinside).elim hshort hlong).elim
  · -- The first mark of all stands behind the opening one, so it is the first one behind it.
    have hbehind : IsLeast {n | 5 ≤ n ∧ c.rest.StandsAt commentClose n} (5 + body.byteSize) :=
      ⟨⟨Nat.le_add_right 5 _, hfirst.1⟩, fun n hn => hfirst.2 hn.2⟩
    refine ⟨iff_of_false ?_ ?_, fun n hn _ _ => ?_⟩
    · simp [hnext]
    · rintro (hnone | hinside)
      · exact hnone _ hbehind.1.1 hbehind.1.2
      · obtain ⟨n, hlt, hn⟩ := hoverlap.2 hinside
        have hle := hfirst.2 hn
        have hsize : commentOpen.byteSize = 5 := rfl
        omega
    · obtain rfl := hn.unique hbehind
      have hspan : c.rest.Spans 5 (5 + body.byteSize) body :=
        ⟨commentOpen, commentClose ++ rest, by rw [hrest, List.append_assoc], rfl,
          Text.byteSize_append commentOpen body⟩
      have hsize : (commentOpen ++ body ++ commentClose).byteSize = 5 + body.byteSize + 4 := by
        rw [Text.byteSize_append, Text.byteSize_append]
        rfl
      refine ⟨body, rest, hrest, hspan, ?_⟩
      rw [hnext, past, hsize]

/-- A comment that holds a closing mark of tags, a dash in front of braces and a character of two
bytes. -/
theorem next_longComment_braces :
    let c := Cursor.mk 7 (commentOpen ++ "-é ".toList ++ tagClose ++ commentClose ++ ['x'])
    commentOpen <+: c.rest ∧
    IsLeast {n | 5 ≤ n ∧ c.rest.StandsAt commentClose n} 11 ∧
    ∃ body rest, c.rest = commentOpen ++ body ++ commentClose ++ rest ∧ c.rest.Spans 5 11 body ∧
      c.next = (.ok (some ⟨.comment body, 7, false, false⟩), ⟨22, rest⟩) := by
  intro c
  have h : commentOpen <+: c.rest := by decide
  have hcut : Text.cut? commentClose c.rest =
      some (commentOpen ++ "-é ".toList ++ tagClose, ['x']) := by
    decide
  have hfirst := Text.isLeast_of_cut? (by simp [commentClose]) hcut
  have hleast : IsLeast {n | 5 ≤ n ∧ c.rest.StandsAt commentClose n} 11 :=
    ⟨⟨by decide, hfirst.1⟩, fun n hn => hfirst.2 hn.2⟩
  exact ⟨h, hleast, (next_longComment h).2 11 hleast (by decide) (by decide)⟩

/-- A closing mark that shares its dashes with the opening one hides the one behind it: the comment
counts as unterminated although it is not. -/
theorem next_longComment_overlapping :
    let c := Cursor.start (commentOpen ++ tagClose ++ ' ' :: commentClose)
    commentOpen <+: c.rest ∧ (5 ≤ 8 ∧ c.rest.StandsAt commentClose 8) ∧
      c.next = (.error (.tag .unterminatedComment 0), c) := by
  intro c
  have hstands : c.rest.StandsAt commentClose 8 :=
    Text.standsAt_iff.2 ⟨commentOpen ++ tagClose ++ [' '], [], rfl, rfl⟩
  exact ⟨by decide, ⟨by decide, hstands⟩, by decide⟩

end Cursor

end HandlebarsToTwig
