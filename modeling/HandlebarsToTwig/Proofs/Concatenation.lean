import HandlebarsToTwig.Proofs.Shift

/-! Templates one behind the other. A template that can be parsed is read the same way when another
one follows it, provided that no mark reaches from one into the other; the trees are then put
together, and a fault of the second template is found where it stands. -/
namespace HandlebarsToTwig
open Lexeme

namespace Cursor

/-- The cursor in the same place, with `t` after the template. -/
def extend (c : Cursor) (t : Text) : Cursor := { c with rest := c.rest ++ t }

@[simp] theorem extend_rest (c : Cursor) (t : Text) : (c.extend t).rest = c.rest ++ t := rfl

@[simp] theorem extend_offset (c : Cursor) (t : Text) : (c.extend t).offset = c.offset := rfl

theorem past_extend (c : Cursor) (consumed rest t : Text) :
    (c.extend t).past consumed (rest ++ t) = (c.past consumed rest).extend t := rfl

variable {c d : Cursor} {l : Lexeme}

theorem comment_extend (h : c.comment = (.ok l, d)) (t : Text) :
    (c.extend t).comment = (.ok l, d.extend t) := by
  unfold comment at h
  split at h
  · next before rest hcut =>
    split at h
    · simp at h
    · next hlen =>
      cases h
      have hcut' : Text.cut? commentClose (c.rest ++ t) = some (before, rest ++ t) :=
        Text.cut?_append (by simp [commentClose]) hcut t
      simp only [comment, extend_rest, hcut', hlen, if_false, past_extend]
      rfl
  · simp at h

/-- Every tag that is read has been closed. -/
theorem mem_rest_of_enclosed {opener closer : Text} {classify : Text → Except TagFault Token}
    (h : c.enclosed opener closer classify = (.ok l, d)) {x : Char} (hx : x ∈ closer) :
    x ∈ c.rest := by
  obtain ⟨inner, rest, -, hcut, -⟩ := enclosed_eq_ok h
  have hmem : x ∈ c.rest.drop opener.length := by
    rw [Text.eq_append_of_cut? hcut]
    simp [hx]
  exact List.mem_of_mem_drop hmem

theorem enclosed_extend {opener closer : Text} {classify : Text → Except TagFault Token}
    (hne : closer ≠ []) (h : c.enclosed opener closer classify = (.ok l, d)) (t : Text) :
    (c.extend t).enclosed opener closer classify = (.ok l, d.extend t) := by
  obtain ⟨inner, rest, token, hcut, ht, rfl, rfl⟩ := enclosed_eq_ok h
  have hlen : opener.length ≤ c.rest.length := by
    have hrest := congrArg List.length (Text.eq_append_of_cut? hcut)
    have := List.length_pos_iff.2 hne
    simp only [List.length_drop, List.length_append] at hrest
    omega
  have hcut' : Text.cut? closer ((c.rest ++ t).drop opener.length) = some (inner, rest ++ t) := by
    rw [List.drop_append_of_le_length hlen]
    exact Text.cut?_append hne hcut t
  simp only [enclosed, extend_rest, extend_offset, hcut', ht, past_extend]

/-- A tag is told from its first characters and read up to its closing mark, so what comes after it
does not matter. -/
theorem tag_extend (h : c.tag = (.ok l, d)) (t : Text) :
    (c.extend t).tag = (.ok l, d.extend t) := by
  have hopener {mark : Text} (hmem : '}' ∈ c.rest) (hm : '}' ∉ mark) :
      mark.isPrefixOf (c.rest ++ t) = mark.isPrefixOf c.rest := by
    rw [Bool.eq_iff_iff, List.isPrefixOf_iff_prefix, List.isPrefixOf_iff_prefix,
      Text.prefix_append_iff_of_mem hmem hm]
  unfold tag at h
  split at h
  · next hcomment =>
    have hcomment' : commentOpen.isPrefixOf (c.rest ++ t) = true := by
      rw [List.isPrefixOf_iff_prefix] at hcomment ⊢
      exact hcomment.trans (List.prefix_append _ t)
    rw [tag, extend_rest, if_pos hcomment']
    exact comment_extend h t
  · next hcomment =>
    split at h
    · next hraw =>
      have hmem := mem_rest_of_enclosed h (show '}' ∈ rawClose by decide)
      rw [tag, extend_rest, hopener hmem (by decide), if_neg hcomment, hopener hmem (by decide),
        if_pos hraw]
      exact enclosed_extend (by simp [rawClose]) h t
    · next hraw =>
      have hmem := mem_rest_of_enclosed h (show '}' ∈ tagClose by decide)
      rw [tag, extend_rest, hopener hmem (by decide), if_neg hcomment, hopener hmem (by decide),
        if_neg hraw]
      exact enclosed_extend (by simp [tagClose]) h t

theorem next_extend (h : c.next = (.ok (some l), d)) {t : Text} (ht : c.rest.Joins t) :
    (c.extend t).next = (.ok (some l), d.extend t) := by
  unfold next at h
  split at h
  · simp at h
  · next hne =>
    have hne' : ((c.extend t).rest.isEmpty) = false := by simp_all
    have hopen : tagOpen ≠ [] := by simp [tagOpen]
    split at h
    · next rest hcut =>
      have htag := tag_extend (tag_of_map_some h) t
      have hcut' : Text.cut? tagOpen (c.extend t).rest = some ([], rest ++ t) :=
        Text.cut?_append hopen hcut t
      simp only [next, hne', Bool.false_eq_true, if_false, hcut', htag, Except.map]
    · next text rest hx hcut =>
      cases h
      have hcut' : Text.cut? tagOpen (c.extend t).rest = some (text, rest ++ t) :=
        Text.cut?_append hopen hcut t
      obtain ⟨x, text, rfl⟩ := List.exists_cons_of_ne_nil hx
      simp only [next, hne', Bool.false_eq_true, if_false, hcut']
      rfl
    · next hcut =>
      cases h
      have hplain : IsPlain c.rest := ⟨by simpa using hne, Text.cut?_eq_none.1 hcut⟩
      exact next_of_text (c := c.extend t) hplain rfl ht

/-- What follows a template is read from its end on. -/
theorem Scanned.lexemes_extend {ls : List Lexeme} (h : Scanned c ls) {t : Text}
    (ht : c.rest.Joins t) :
    (c.extend t).lexemes = (c.past c.rest t).lexemes.map (ls ++ ·) := by
  induction h with
  | @done c hr =>
    have hend : c.extend t = c.past c.rest t := by simp [extend, past, hr]
    rw [hend]
    cases (c.past c.rest t).lexemes <;> rfl
  | @step c d l ls hn _ ih =>
    obtain ⟨consumed, hp⟩ := next_passes hn
    have hjoins : d.rest.Joins t := Text.Joins.of_append (hp.rest ▸ ht)
    have hend : d.past d.rest t = c.past c.rest t := by
      simp [past, hp.offset, hp.rest, Nat.add_assoc]
    rw [lexemes_eq, next_extend hn ht]
    simp only [ih hjoins, hend]
    cases (c.past c.rest t).lexemes <;> rfl

theorem lexemes_append {s t : Text} {ls : List Lexeme} (h : Scanned (start s) ls)
    (ht : s.Joins t) :
    (start (s ++ t)).lexemes =
      shifted s.byteSize (fun ms => ls ++ ms.map (Lexeme.shift s.byteSize)) (start t).lexemes := by
  have hread := h.lexemes_extend (t := t) ht
  have hextend : (start s).extend t = start (s ++ t) := rfl
  have hend : (start s).past (start s).rest t = (start t).shift s.byteSize := rfl
  rw [hextend, hend, lexemes_shift] at hread
  rw [hread]
  cases (start t).lexemes <;> rfl

/-- A tag that drops the blanks in front of it shows its mark right behind the opening mark, unless
it is raw output. -/
theorem tag_stripBefore (h : c.tag = (.ok l, d)) (ho : tagOpen <+: c.rest)
    (hmark : ¬ tagOpen ++ ['~'] <+: c.rest) :
    l.stripBefore = false ∨ ∃ body, l.token = .unescaped body := by
  unfold tag at h
  split at h
  · left
    unfold comment at h
    split at h
    · split at h
      · simp at h
      · cases h
        rfl
    · simp at h
  · split at h
    · right
      obtain ⟨_, _, _, -, ht, rfl, -⟩ := enclosed_eq_ok h
      cases ht
      exact ⟨_, rfl⟩
    · left
      obtain ⟨inner, rest, token, hcut, -, rfl, -⟩ := enclosed_eq_ok h
      obtain ⟨tail, htail⟩ := ho
      rw [← htail, List.drop_left] at hcut
      rw [← htail, List.prefix_append_right_inj, Text.eq_append_of_cut? hcut] at hmark
      cases inner with
      | nil => rfl
      | cons x inner =>
        have hx : x ≠ '~' := by simpa [List.cons_prefix_cons, eq_comm] using hmark
        simpa [Interior.ofText] using hx

/-- Whether the first lexeme drops blanks in front of it can be seen in the text, unless it is raw
output. -/
theorem Scanned.head_dropsBefore {ls : List Lexeme} (h : Scanned c ls)
    (hmark : ¬ tagOpen ++ ['~'] <+: c.rest) :
    ∀ l ∈ ls.head?, l.dropsBefore = false ∨ ∃ body, l.token = .unescaped body := by
  cases h with
  | done => simp
  | step hn _ =>
    rintro l ⟨rfl⟩
    rcases next_cases hn with ⟨value, rfl, -⟩ | ⟨ho, ht⟩
    · exact .inl rfl
    · rcases tag_stripBefore ht ho hmark with hs | hraw
      · exact .inl (by simp [dropsBefore, hs])
      · exact .inr hraw

end Cursor

/-- Lexemes in front of a tag that drops no blanks are left as they are on their own. -/
theorem Lexeme.controlled_append {ls ms : List Lexeme} (before : Option Lexeme)
    (h : ∀ m ∈ ms.head?, m.token.isText = false ∧ m.dropsBefore = false) :
    controlled before (ls ++ ms) = controlled before ls ++ controlled none ms := by
  induction ls generalizing before with
  | nil =>
    cases ms with
    | nil => rfl
    | cons m ms => simp [controlled, between_of_tag (h m rfl).1]
  | cons l ls ih =>
    have hafter : l.between before (ls ++ ms).head? = l.between before ls.head? := by
      cases ls with
      | cons k ls => rfl
      | nil =>
        cases ms with
        | nil => rfl
        | cons m ms => simp [between, (h m rfl).2]
    rw [List.cons_append, controlled, controlled, hafter, ih, List.append_assoc]

namespace OpenBlocks

variable {limit : Nat} {opened : OpenBlocks}

theorem step_of_text {l : Lexeme} (h : l.token.isText = true) :
    step limit opened l = .ok opened := by
  obtain ⟨value, hv⟩ := Token.isText_eq_true.1 h
  simp only [step, hv, Token.unsupported?]

/-- Whitespace control touches texts alone, and these can stand anywhere. -/
theorem check_controlled (before : Option Lexeme) (ls : List Lexeme) :
    check limit opened (controlled before ls) = check limit opened ls := by
  induction ls generalizing before opened with
  | nil => rfl
  | cons l ls ih =>
    cases hl : l.token.isText with
    | false =>
      rw [controlled, between_of_tag hl, Option.toList_some, List.singleton_append, check_cons,
        check_cons]
      simp only [ih]
    | true =>
      rw [check_of_step (step_of_text hl), controlled]
      cases hb : l.between before ls.head? with
      | none => exact ih (some l)
      | some k =>
        have hk : k.token.isText = true := (between_isText hb).trans hl
        rw [Option.toList_some, List.singleton_append, check_of_step (step_of_text hk)]
        exact ih (some l)

theorem run_of_check {ls : List Lexeme} (h : check limit opened ls = .ok ()) :
    run limit opened ls = .ok [] := by
  unfold check at h
  cases hr : run limit opened ls with
  | error e => simp [hr, bind, Except.bind] at h
  | ok final =>
    cases final with
    | nil => rfl
    | cons e outer => simp [hr, bind, Except.bind, finish] at h

/-- The faults of a template can be found before whitespace control. -/
theorem ofSource_bind_check (source : Text) (limit : Nat) :
    (Lexeme.ofSource source >>= check limit []) =
      ((Cursor.start source).lexemes >>= check limit []) := by
  cases hl : (Cursor.start source).lexemes with
  | error e =>
    rw [Lexeme.ofSource, hl]
    rfl
  | ok raw =>
    have hs : Lexeme.ofSource source = .ok (controlled none raw) :=
      Lexeme.ofSource_eq_ok.2 ⟨raw, Cursor.lexemes_eq_ok.1 hl, rfl⟩
    rw [hs]
    exact check_controlled none raw

end OpenBlocks

namespace Node

variable {s t : Text} {limit : Nat} {tree : List Node}

/-- The lexemes of a template that can be parsed hold its tree, and leave no block open. -/
theorem exists_scanned_of_ofSource (h : ofSource s limit = .ok tree) :
    ∃ ls, Cursor.Scanned (Cursor.start s) ls ∧
      (controlled none ls).map Lexeme.token = listTokens tree ∧ listNesting tree ≤ limit ∧
      OpenBlocks.run limit [] ls = .ok [] := by
  obtain ⟨_, hs, htokens, hn⟩ := ofSource_eq_ok_iff.1 h
  obtain ⟨ls, hscan, rfl⟩ := Lexeme.ofSource_eq_ok.1 hs
  have hcheck := map_ofSource s limit
  rw [h, OpenBlocks.ofSource_bind_check, Cursor.lexemes_eq_ok.2 hscan] at hcheck
  exact ⟨ls, hscan, htokens, hn, OpenBlocks.run_of_check hcheck.symm⟩

/-- A template that can be parsed does not begin with raw output, so a mark on its first tag
shows. -/
theorem head_dropsBefore_of_run {ls : List Lexeme} (hs : Cursor.Scanned (Cursor.start t) ls)
    (hrun : OpenBlocks.run limit [] ls = .ok []) (hmark : ¬ tagOpen ++ ['~'] <+: t) :
    ∀ l ∈ ls.head?, l.dropsBefore = false := by
  intro l hl
  rcases hs.head_dropsBefore hmark l hl with hdrop | ⟨body, hbody⟩
  · exact hdrop
  · obtain ⟨rest, rfl⟩ := List.head?_eq_some_iff.1 hl
    have hstep : OpenBlocks.step limit [] l = .error (.unsupported ['&']) :=
      OpenBlocks.step_of_unsupported (by rw [hbody]; rfl)
    simp [OpenBlocks.run, hstep, bind, Except.bind] at hrun

theorem ofSource_append_of_ok {more : List Node} (hs : ofSource s limit = .ok tree)
    (hjoin : s.Joins t) (hmark : ¬ tagOpen ++ ['~'] <+: t) (ht : ofSource t limit = .ok more) :
    ofSource (s ++ t) limit = .ok (tree ++ more) := by
  obtain ⟨ls, hls, hstokens, hsn, -⟩ := exists_scanned_of_ofSource hs
  obtain ⟨ms, hms, httokens, htn, hrun⟩ := exists_scanned_of_ofSource ht
  have hread := Cursor.lexemes_append hls hjoin
  rw [Cursor.lexemes_eq_ok.2 hms, shifted_ok] at hread
  have hhead : ∀ m ∈ (ms.map (Lexeme.shift s.byteSize)).head?,
      m.token.isText = false ∧ m.dropsBefore = false := by
    intro m hm
    rw [List.head?_map] at hm
    obtain ⟨k, hk, rfl⟩ := Option.map_eq_some_iff.1 hm
    exact ⟨hms.head_isText (hjoin.imp_right And.left) k hk,
      head_dropsBefore_of_run hms hrun hmark k hk⟩
  have hcontrolled : controlled none (ms.map (Lexeme.shift s.byteSize)) =
      (controlled none ms).map (Lexeme.shift s.byteSize) := controlled_shift _ none ms
  have htokens : ((controlled none ms).map (Lexeme.shift s.byteSize)).map Lexeme.token =
      listTokens more := by
    rw [← httokens, List.map_map]
    rfl
  refine ofSource_eq_ok_iff.2
    ⟨_, Lexeme.ofSource_eq_ok.2 ⟨_, Cursor.lexemes_eq_ok.1 hread, rfl⟩, ?_, ?_⟩
  · rw [controlled_append none hhead, List.map_append, hcontrolled, hstokens, htokens,
      listTokens_append]
  · rw [listNesting_append]
    omega

theorem ofSource_append_of_error {e : Error} (hs : ofSource s limit = .ok tree)
    (hjoin : s.Joins t) (ht : ofSource t limit = .error e) :
    ofSource (s ++ t) limit = .error (e.shift s.byteSize) := by
  obtain ⟨ls, hls, -, -, hrun⟩ := exists_scanned_of_ofSource hs
  rw [ofSource_eq_error_iff, OpenBlocks.ofSource_bind_check] at ht ⊢
  rw [Cursor.lexemes_append hls hjoin]
  cases hms : (Cursor.start t).lexemes with
  | error e' =>
    rw [hms] at ht
    cases ht
    rfl
  | ok ms =>
    rw [hms] at ht
    -- The first template leaves no block open, so the check starts afresh behind it.
    calc OpenBlocks.check limit [] (ls ++ ms.map (Lexeme.shift s.byteSize))
        = OpenBlocks.check limit [] (ms.map (Lexeme.shift s.byteSize)) := by
          rw [OpenBlocks.check_append, hrun]
          rfl
      _ = shifted s.byteSize id (OpenBlocks.check limit [] ms) :=
          OpenBlocks.check_shift s.byteSize [] ms
      _ = .error (e.shift s.byteSize) := by
          rw [show OpenBlocks.check limit [] ms = .error e from ht]
          rfl

/-- Templates one behind the other, under every limit. If the first one can be parsed and does not
end with a brace, and the second one is empty or begins with a tag without a mark, then the second
decides: its tree follows that of the first, and its fault is reported at the same place in it,
which is further on by the bytes of the first. -/
theorem ofSource_append {s t : Text} {limit : Nat} {tree : List Node}
    (hs : ofSource s limit = .ok tree) (hend : s.getLast? ≠ some '{')
    (ht : t = [] ∨ tagOpen <+: t ∧ ¬ tagOpen ++ ['~'] <+: t) :
    (∀ more, ofSource t limit = .ok more → ofSource (s ++ t) limit = .ok (tree ++ more)) ∧
    ∀ e, ofSource t limit = .error e →
      ofSource (s ++ t) limit = .error (e.shift s.byteSize) := by
  have hjoin : s.Joins t := ht.imp_right fun h => ⟨h.1, hend⟩
  have hmark : ¬ tagOpen ++ ['~'] <+: t := by
    rcases ht with rfl | ⟨-, hmark⟩
    · simp
    · exact hmark
  exact ⟨fun more => ofSource_append_of_ok hs hjoin hmark,
    fun e => ofSource_append_of_error hs hjoin⟩

/-- A text with a character of two bytes and a condition, followed by another condition and by one
that is never closed. -/
theorem ofSource_append_conditions :
    let first := "é ".toList ++ TagFault.tagged '#' "if a~".toList ++
      TagFault.tagged '/' "if".toList ++ " b ".toList
    let second := TagFault.tagged '#' "if c".toList ++ TagFault.tagged '/' "if".toList
    let unclosed := TagFault.tagged '#' "if c".toList
    let tree : List Node := [.text "é ".toList, .block .when (some ['a']) [], .text " b ".toList]
    ofSource first 1 = .ok tree ∧ first.getLast? ≠ some '{' ∧
    (ofSource second 1 = .ok [.block .when (some ['c']) []] ∧
      ofSource (first ++ second) 1 = .ok (tree ++ [.block .when (some ['c']) []])) ∧
    ofSource unclosed 1 = .error (.tag (.unclosedBlock "if".toList) 0) ∧
      ofSource (first ++ unclosed) 1 = .error (.tag (.unclosedBlock "if".toList) 23) := by
  intro first second unclosed tree
  have hfirst : ofSource first 1 = .ok tree :=
    ofSource_eq_ok_iff_map.2 ⟨by decide +kernel, by decide⟩
  have hsecond : ofSource second 1 = .ok [.block .when (some ['c']) []] :=
    ofSource_eq_ok_iff_map.2 ⟨by decide +kernel, by decide⟩
  have hunclosed : ofSource unclosed 1 = .error (.tag (.unclosedBlock "if".toList) 0) :=
    ofSource_eq_error_iff.2 (by decide +kernel)
  have hend : first.getLast? ≠ some '{' := by decide
  refine ⟨hfirst, hend, ⟨hsecond, ?_⟩, hunclosed, ?_⟩
  · exact (ofSource_append hfirst hend (.inr (by decide))).1 _ hsecond
  · exact (ofSource_append hfirst hend (.inr (by decide))).2 _ hunclosed

end Node

end HandlebarsToTwig
