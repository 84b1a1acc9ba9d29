import HandlebarsToTwig.Text.Blank
import Mathlib.Data.List.DropRight

/-! Where a mark stands first in a text, and what trimming leaves of it. -/
namespace HandlebarsToTwig.Text

theorem after?_eq_none {mark s : Text} : after? mark s = none ↔ ¬ mark <+: s := by
  rw [Option.eq_none_iff_forall_ne_some]
  simp only [ne_eq, after?_eq_some]
  constructor
  · rintro h ⟨t, ht⟩
    exact h t ht.symm
  · intro h t ht
    exact h ⟨t, ht.symm⟩

theorem cut?_eq_none {mark s : Text} : cut? mark s = none ↔ ¬ mark <:+: s := by
  induction s with
  | nil =>
    simp only [cut?, Option.map_eq_none_iff, after?_eq_none]
    simp
  | cons c s ih =>
    rw [List.infix_cons_iff, not_or, ← ih, ← after?_eq_none, cut?]
    cases after? mark (c :: s) <;> simp

theorem cut?_eq_some_nil {mark s rest : Text} :
    cut? mark s = some ([], rest) ↔ s = mark ++ rest := by
  rw [← after?_eq_some]
  cases s with
  | nil => simp [cut?]
  | cons c s => cases h : after? mark (c :: s) <;> simp [cut?, h]

theorem cut?_eq_some_cons {mark s before rest : Text} {c : Char} :
    cut? mark s = some (c :: before, rest) ↔
      ∃ t, s = c :: t ∧ ¬ mark <+: c :: t ∧ cut? mark t = some (before, rest) := by
  cases s with
  | nil => simp [cut?]
  | cons e s =>
    rw [cut?]
    cases h : after? mark (e :: s) with
    | none =>
      have hp := after?_eq_none.1 h
      simp only [Option.map_eq_some_iff, Prod.mk.injEq, List.cons.injEq]
      constructor
      · rintro ⟨⟨b, r⟩, hc, ⟨rfl, rfl⟩, rfl⟩
        exact ⟨s, ⟨rfl, rfl⟩, hp, hc⟩
      · rintro ⟨t, ⟨rfl, rfl⟩, _, hc⟩
        exact ⟨(before, rest), hc, ⟨rfl, rfl⟩, rfl⟩
    | some t =>
      have hp : mark <+: e :: s := ⟨t, (after?_eq_some.1 h).symm⟩
      simp only [Option.some.injEq, Prod.mk.injEq, List.nil_eq, List.cons_ne_nil, false_and,
        List.cons.injEq, false_iff]
      rintro ⟨t, ⟨rfl, rfl⟩, hn, _⟩
      exact hn hp

/-- In front of a mark, another one begins no later if it ends before the mark does. -/
theorem prefix_append_mark (mark : Text) {s : Text} (hs : s ≠ []) (rest : Text) :
    mark <+: s ++ mark ++ rest ↔ mark <+: s ++ mark.dropLast := by
  have hp : s ++ mark.dropLast <+: s ++ mark ++ rest :=
    ((List.prefix_append_right_inj s).2 (List.dropLast_prefix mark)).trans
      (List.prefix_append _ rest)
  have hl := List.length_pos_iff.2 hs
  constructor
  · intro h
    refine List.prefix_of_prefix_length_le h hp ?_
    simp only [List.length_append, List.length_dropLast]
    omega
  · intro h
    exact h.trans hp

/-- A text is cut in front of the first mark: up to there, and with all of that mark but its last
character, it holds none. -/
theorem cut?_eq_some {mark s before rest : Text} (hm : mark ≠ []) :
    cut? mark s = some (before, rest) ↔
      s = before ++ mark ++ rest ∧ ¬ mark <:+: before ++ mark.dropLast := by
  induction before generalizing s with
  | nil =>
    have hl := List.length_pos_iff.2 hm
    have hn : ¬ mark <:+: mark.dropLast := by
      intro h
      have := h.length_le
      simp only [List.length_dropLast] at this
      omega
    simp [cut?_eq_some_nil, hn]
  | cons c before ih =>
    have hp := prefix_append_mark mark (List.cons_ne_nil c before) rest
    simp only [cut?_eq_some_cons, List.cons_append, List.infix_cons_iff, not_or] at hp ⊢
    constructor
    · rintro ⟨t, rfl, hn, hc⟩
      obtain ⟨rfl, hi⟩ := ih.1 hc
      exact ⟨rfl, fun h => hn (hp.2 h), hi⟩
    · rintro ⟨rfl, hn, hi⟩
      exact ⟨before ++ mark ++ rest, rfl, fun h => hn (hp.1 h), ih.2 ⟨rfl, hi⟩⟩

/-- The first mark stays the first one, whatever comes after the text. -/
theorem cut?_append {mark s before rest : Text} (hm : mark ≠ [])
    (h : cut? mark s = some (before, rest)) (t : Text) :
    cut? mark (s ++ t) = some (before, rest ++ t) := by
  obtain ⟨rfl, hfree⟩ := (cut?_eq_some hm).1 h
  exact (cut?_eq_some hm).2 ⟨by simp, hfree⟩

/-- A mark does not reach beyond a character that it does not have. -/
theorem prefix_append_iff_of_mem {mark s : Text} {c : Char} (hs : c ∈ s) (hm : c ∉ mark)
    (t : Text) : mark <+: s ++ t ↔ mark <+: s := by
  constructor
  · intro h
    rcases List.prefix_or_prefix_of_prefix h (List.prefix_append s t) with hp | hp
    · exact hp
    · exact absurd (hp.subset hs) hm
  · intro h
    exact h.trans (List.prefix_append s t)

/-- A mark of two equal characters does not reach across another character. -/
theorem double_infix_append_cons {c d : Char} (hd : d ≠ c) (s t : Text) :
    [c, c] <:+: s ++ d :: t ↔ [c, c] <:+: s ∨ [c, c] <:+: t := by
  induction s with
  | nil => simp [List.infix_cons_iff, List.cons_prefix_cons, hd.symm]
  | cons e s ih =>
    have hp : [c, c] <+: e :: (s ++ d :: t) ↔ [c, c] <+: e :: s := by
      cases s <;> simp [List.cons_prefix_cons, hd.symm]
    rw [List.cons_append, List.infix_cons_iff, List.infix_cons_iff, ih, hp, or_assoc]

/-- A mark of two characters does not reach into a text that does not begin with the second one. -/
theorem pair_infix_append {c d : Char} {t : Text} (ht : t.head? ≠ some d) (s : Text) :
    [c, d] <:+: s ++ t ↔ [c, d] <:+: s ∨ [c, d] <:+: t := by
  induction s with
  | nil => simp
  | cons e s ih =>
    have hp : [c, d] <+: e :: (s ++ t) ↔ [c, d] <+: e :: s := by
      cases s with
      | nil =>
        cases t with
        | nil => simp
        | cons f t =>
          have hf : d ≠ f := fun h => ht (by simp [h])
          simp [List.cons_prefix_cons, hf]
      | cons f s => simp [List.cons_prefix_cons]
    rw [List.cons_append, List.infix_cons_iff, List.infix_cons_iff, ih, hp, or_assoc]

theorem double_not_infix_singleton (c d : Char) : ¬ [c, c] <:+: [d] := by
  intro h
  simpa using h.length_le

theorem trimStart_isSuffix (s : Text) : trimStart s <:+ s := List.dropWhile_suffix isBlank

theorem trimEnd_isPrefix (s : Text) : trimEnd s <+: s := List.rdropWhile_prefix isBlank s

theorem trim_isInfix (s : Text) : trim s <:+: s :=
  (trimEnd_isPrefix _).isInfix.trans (trimStart_isSuffix s).isInfix

theorem trimStart_cons_blank {c : Char} (h : isBlank c) (s : Text) :
    trimStart (c :: s) = trimStart s := by
  simp [trimStart, h]

theorem trimEnd_append_blank {c : Char} (h : isBlank c) (s : Text) :
    trimEnd (s ++ [c]) = trimEnd s := List.rdropWhile_concat_pos isBlank s c h

theorem trimStart_append {s : Text} (h : trimStart s ≠ []) (t : Text) :
    trimStart (s ++ t) = trimStart s ++ t := by
  unfold trimStart at h ⊢
  rw [List.dropWhile_append, if_neg (by simpa using h)]

theorem trimEnd_append {t : Text} (h : trimEnd t ≠ []) (s : Text) :
    trimEnd (s ++ t) = s ++ trimEnd t := by
  unfold trimEnd at h ⊢
  have hr : t.reverse.dropWhile isBlank ≠ [] := by simpa using h
  rw [List.reverse_append, List.dropWhile_append, if_neg (by simpa using hr)]
  simp

/-- Trimming the end leaves no blank in front if there was none. -/
theorem trimStart_trimEnd {s : Text} (h : trimStart s = s) : trimStart (trimEnd s) = trimEnd s := by
  rw [trimStart, List.dropWhile_eq_self_iff] at h ⊢
  intro hl
  rw [(trimEnd_isPrefix s).getElem hl]
  exact h (Nat.lt_of_lt_of_le hl (trimEnd_isPrefix s).length_le)

theorem trim_trim (s : Text) : trim (trim s) = trim s := by
  have hs : trimStart (trimStart s) = trimStart s := List.dropWhile_idempotent isBlank s
  have ht : trimStart (trim s) = trim s := trimStart_trimEnd hs
  rw [trim, ht]
  exact List.rdropWhile_idempotent isBlank (trimStart s)

/-- A text is its own trim if it is so at either end. -/
theorem trim_eq_self {s : Text} : trim s = s ↔ trimStart s = s ∧ trimEnd s = s := by
  constructor
  · intro h
    have hs : trimStart s = s := by
      refine (trimStart_isSuffix s).eq_of_length_le ?_
      have hle := (trimEnd_isPrefix (trimStart s)).length_le
      rwa [← trim, h] at hle
    rw [trim, hs] at h
    exact ⟨hs, h⟩
  · rintro ⟨hs, he⟩
    rw [trim, hs, he]

theorem trim_of_all {s : Text} (h : ∀ c ∈ s, isBlank c = false) : trim s = s := by
  refine trim_eq_self.2 ⟨List.dropWhile_eq_self_iff.2 fun _ => ?_,
    List.rdropWhile_eq_self_iff.2 fun _ => ?_⟩
  · simp [h _ (List.getElem_mem _)]
  · simp [h _ (List.getLast_mem _)]

theorem trim_append_space {s : Text} (h : trim s = s) (hs : s ≠ []) : trim (s ++ [' ']) = s := by
  obtain ⟨hstart, hend⟩ := trim_eq_self.1 h
  have hn : trimStart s ≠ [] := by rwa [hstart]
  rw [trim, trimStart_append hn, hstart, trimEnd_append_blank (by decide), hend]

theorem trim_space_cons (s : Text) : trim (' ' :: s) = trim s := by
  rw [trim, trimStart_cons_blank (by decide), trim]

/-- Two trimmed texts with a space between them are trimmed. -/
theorem trim_append_space_append {s t : Text} (hs : trim s = s) (ht : trim t = t) (hsn : s ≠ [])
    (htn : t ≠ []) : trim (s ++ ' ' :: t) = s ++ ' ' :: t := by
  have hstart : trimStart s ≠ [] := by rwa [(trim_eq_self.1 hs).1]
  have hend : trimEnd t ≠ [] := by rwa [(trim_eq_self.1 ht).2]
  refine trim_eq_self.2 ⟨?_, ?_⟩
  · rw [trimStart_append hstart, (trim_eq_self.1 hs).1]
  · rw [List.append_cons, trimEnd_append hend, (trim_eq_self.1 ht).2]

theorem firstWord_of_all {s : Text} (h : ∀ c ∈ s, isBlank c = false) : firstWord s = (s, []) := by
  have ht : s.takeWhile (!isBlank ·) = s := List.takeWhile_eq_self_iff.2 (by simpa using h)
  have hd : s.dropWhile (!isBlank ·) = [] := List.dropWhile_eq_nil_iff.2 (by simpa using h)
  rw [firstWord, ht, hd]
  rfl

theorem firstWord_append {s t : Text} (h : ∀ c ∈ s, isBlank c = false) (ht : trim t = t) :
    firstWord (s ++ ' ' :: t) = (s, t) := by
  have hb : isBlank ' ' = true := by decide
  have hs : ∀ c ∈ s, (!isBlank c) = true := by simpa using h
  have htake : (s ++ ' ' :: t).takeWhile (!isBlank ·) = s := by
    rw [List.takeWhile_append_of_pos hs]
    simp [hb]
  have hdrop : (s ++ ' ' :: t).dropWhile (!isBlank ·) = ' ' :: t := by
    rw [List.dropWhile_append_of_pos hs]
    simp [hb]
  rw [firstWord, htake, hdrop, trim_space_cons, ht]

end HandlebarsToTwig.Text
