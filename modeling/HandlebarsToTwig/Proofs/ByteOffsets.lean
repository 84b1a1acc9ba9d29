import HandlebarsToTwig.Proofs.Coverage
import Mathlib.Order.Bounds.Basic

/-! Byte offsets into a text. A part can be cut out by two offsets if both lie between characters
and in order, and a mark stands at the offset where it begins. -/
namespace HandlebarsToTwig.Text

/-- The text in front of a byte offset and behind it. There is none if the offset lies inside of a
character or beyond the end. -/
def splitAt? : (offset : Nat) → Text → Option (Text × Text)
  | n, [] => if n = 0 then some ([], []) else none
  | n, c :: s =>
    if n = 0 then some ([], c :: s)
    else if c.utf8Size ≤ n then
      (splitAt? (n - c.utf8Size) s).map fun (front, back) => (c :: front, back)
    else none

theorem splitAt?_append (front back : Text) :
    splitAt? front.byteSize (front ++ back) = some (front, back) := by
  induction front with
  | nil => cases back <;> rfl
  | cons c front ih =>
    have hpos := c.utf8Size_pos
    have hne : byteSize (c :: front) ≠ 0 := by
      rw [byteSize_cons]
      omega
    have hle : c.utf8Size ≤ byteSize (c :: front) := Nat.le_add_right _ _
    have hback : byteSize (c :: front) - c.utf8Size = byteSize front := Nat.add_sub_cancel_left _ _
    rw [List.cons_append, splitAt?, if_neg hne, if_pos hle, hback, ih]
    rfl

theorem eq_append_of_splitAt? {n : Nat} {s front back : Text}
    (h : splitAt? n s = some (front, back)) : s = front ++ back ∧ front.byteSize = n := by
  fun_induction splitAt? n s generalizing front with
  | case1 | case3 =>
    cases h
    exact ⟨rfl, rfl⟩
  | case2 | case5 => cases h
  | case4 n c s hn hle ih =>
    obtain ⟨⟨f, b⟩, hsplit, he⟩ := Option.map_eq_some_iff.1 h
    obtain ⟨rfl, rfl⟩ := Prod.mk.inj he
    obtain ⟨rfl, hf⟩ := ih hsplit
    refine ⟨rfl, ?_⟩
    rw [byteSize_cons, hf]
    omega

theorem splitAt?_eq_some {n : Nat} {s front back : Text} :
    splitAt? n s = some (front, back) ↔ s = front ++ back ∧ front.byteSize = n := by
  constructor
  · exact eq_append_of_splitAt?
  · rintro ⟨rfl, rfl⟩
    exact splitAt?_append front back

/-- The part of a text between two byte offsets. There is none if the offsets are out of order, or
if one of them lies inside of a character or beyond the end. -/
def slice? (s : Text) (start stop : Nat) : Option Text := do
  let (front, _) ← splitAt? stop s
  let (_, span) ← splitAt? start front
  pure span

theorem slice?_eq_some {s span : Text} {start stop : Nat} :
    slice? s start stop = some span ↔ s.Spans start stop span := by
  simp only [slice?, Spans, Option.bind_eq_bind, Option.bind_eq_some_iff, Prod.exists,
    splitAt?_eq_some, Option.pure_def, Option.some.injEq]
  constructor
  · rintro ⟨_, after, ⟨rfl, hstop⟩, before, _, ⟨rfl, hstart⟩, rfl⟩
    exact ⟨before, after, rfl, hstart, hstop⟩
  · rintro ⟨before, after, rfl, hstart, hstop⟩
    exact ⟨before ++ span, after, ⟨rfl, hstop⟩, before, span, ⟨rfl, hstart⟩, rfl⟩

/-- The part of a text from a byte offset on. -/
def from? (s : Text) (start : Nat) : Option Text := slice? s start s.byteSize

theorem from?_append (s t : Text) : from? (s ++ t) s.byteSize = some t :=
  slice?_eq_some.2 ⟨s, [], (List.append_nil _).symm, rfl, rfl⟩

theorem slice?_append (s t u : Text) :
    slice? (s ++ t ++ u) s.byteSize (s.byteSize + t.byteSize) = some t :=
  slice?_eq_some.2 ⟨s, u, rfl, rfl, byteSize_append s t⟩

theorem slice?_zero (s t : Text) : slice? (s ++ t) 0 s.byteSize = some s :=
  slice?_eq_some.2 ⟨[], t, rfl, rfl, rfl⟩

/-- The byte offset where a mark stands first. -/
def find? (mark s : Text) : Option Nat := (cut? mark s).map fun cut => cut.1.byteSize

/-- The mark stands in the text at the byte offset `n`. -/
def StandsAt (s mark : Text) (n : Nat) : Prop := s.Spans n (n + mark.byteSize) mark

theorem standsAt_iff {s mark : Text} {n : Nat} :
    s.StandsAt mark n ↔ ∃ before after, s = before ++ mark ++ after ∧ before.byteSize = n := by
  constructor
  · rintro ⟨before, after, hs, hn, -⟩
    exact ⟨before, after, hs, hn⟩
  · rintro ⟨before, after, hs, rfl⟩
    exact ⟨before, after, hs, rfl, byteSize_append before mark⟩

theorem byteSize_mono {s t : Text} (h : s <+: t) : s.byteSize ≤ t.byteSize := by
  obtain ⟨u, rfl⟩ := h
  rw [byteSize_append]
  exact Nat.le_add_right _ _

/-- Of two front parts of a text, the one with fewer characters has fewer bytes. -/
theorem length_lt_iff_byteSize_lt {a b s : Text} (ha : a <+: s) (hb : b <+: s) :
    a.length < b.length ↔ a.byteSize < b.byteSize := by
  constructor
  · intro hlt
    obtain ⟨t, rfl⟩ := List.prefix_of_prefix_length_le ha hb (Nat.le_of_lt hlt)
    have ht : t ≠ [] := by
      rintro rfl
      simp at hlt
    have := byteSize_pos ht
    rw [byteSize_append]
    omega
  · intro hlt
    by_contra hge
    have hp := List.prefix_of_prefix_length_le hb ha (Nat.not_lt.1 hge)
    exact Nat.not_lt.2 (byteSize_mono hp) hlt

/-- A text is cut at the smallest of the offsets where the mark stands. -/
theorem isLeast_of_cut? {mark s before rest : Text} (hm : mark ≠ [])
    (h : cut? mark s = some (before, rest)) :
    IsLeast {n | s.StandsAt mark n} before.byteSize := by
  obtain ⟨hs, hfree⟩ := (cut?_eq_some hm).1 h
  refine ⟨standsAt_iff.2 ⟨before, rest, hs, rfl⟩, ?_⟩
  intro n hn
  obtain ⟨front, back, hsplit, rfl⟩ := standsAt_iff.1 hn
  by_contra hlt
  -- A mark that begins earlier would end before the last character of the one that was cut at.
  have hfront : front <+: s := ⟨mark ++ back, by rw [hsplit, List.append_assoc]⟩
  have hbefore : before <+: s := ⟨mark ++ rest, by rw [hs, List.append_assoc]⟩
  have hlen := (length_lt_iff_byteSize_lt hfront hbefore).2 (Nat.not_le.1 hlt)
  have hinside : front ++ mark <+: before ++ mark.dropLast := by
    have hback : before ++ mark.dropLast <+: s := by
      rw [hs]
      exact ((List.prefix_append_right_inj before).2 (List.dropLast_prefix mark)).trans
        (List.prefix_append _ rest)
    refine List.prefix_of_prefix_length_le ⟨back, hsplit.symm⟩ hback ?_
    have := List.length_pos_iff.2 hm
    simp only [List.length_append, List.length_dropLast]
    omega
  exact hfree ((List.suffix_append front mark).isInfix.trans hinside.isInfix)

end HandlebarsToTwig.Text
