import HandlebarsToTwig.Proofs.Lexing

/-! Whitespace control by neighbours. A text loses its blanks in front if the tag right before it
asks for that, and those at its end if the tag right after it does; nothing else changes. -/
namespace HandlebarsToTwig.Lexeme

/-- Whether a tag drops the blanks at the end of the text in front of it. -/
def dropsBefore (l : Lexeme) : Bool := !l.token.isText && l.stripBefore

/-- Whether a tag drops the blanks at the start of the text behind it. -/
def dropsAfter (l : Lexeme) : Bool := !l.token.isText && l.stripAfter

/-- What is left of a lexeme between its two neighbours. -/
def between (before after : Option Lexeme) (l : Lexeme) : Option Lexeme :=
  match l.token with
  | .text value =>
    let value := if before.any dropsAfter then Text.trimStart value else value
    let value := if after.any dropsBefore then Text.trimEnd value else value
    if value.isEmpty then none else some { l with token := .text value }
  | _ => some l

/-- The lexemes that follow `before`, each as its neighbours leave it. -/
def controlled (before : Option Lexeme) : List Lexeme → List Lexeme
  | [] => []
  | l :: ls => (l.between before ls.head?).toList ++ controlled (some l) ls

theorem between_of_tag {l : Lexeme} (h : l.token.isText = false) (before after : Option Lexeme) :
    l.between before after = some l := by
  unfold between
  cases ht : l.token <;> simp_all [Token.isText]

theorem trimNewest_of_tag {kept : List Lexeme} (h : ∀ k ∈ kept.head?, k.token.isText = false) :
    trimNewest kept = kept := by
  cases kept with
  | nil => rfl
  | cons k kept =>
    obtain ⟨token, _, _, _⟩ := k
    have ht := h _ rfl
    cases token <;> simp_all [Token.isText, trimNewest]

theorem settle_of_tag {l : Lexeme} (h : l.token.isText = false) (kept ls : List Lexeme)
    (strip : Bool) :
    settle kept strip (l :: ls) =
      settle (l :: if l.stripBefore then trimNewest kept else kept) l.stripAfter ls := by
  rw [settle]
  cases ht : l.token <;> simp_all [Token.isText]

theorem settle_of_text {l : Lexeme} {value : Text} (h : l.token = .text value)
    (kept ls : List Lexeme) (before : Option Lexeme) :
    settle kept (before.any dropsAfter) (l :: ls) =
      settle ((l.between before none).toList ++ kept) false ls := by
  rw [settle]
  simp only [h, between, Option.any_none, Bool.false_eq_true, if_false]
  generalize (if before.any dropsAfter then Text.trimStart value else value) = v
  cases v <;> rfl

/-- A tag finishes the text in front of it, which has been settled as if nothing came after. -/
theorem trimNewest_between {l m : Lexeme} {value : Text} (hl : l.token = .text value)
    (hm : m.token.isText = false) {kept : List Lexeme} (before : Option Lexeme)
    (hk : ∀ k ∈ kept.head?, k.token.isText = false) :
    (if m.stripBefore then trimNewest ((l.between before none).toList ++ kept)
      else (l.between before none).toList ++ kept) =
      (l.between before (some m)).toList ++ kept := by
  have hdrop : dropsBefore m = m.stripBefore := by simp [dropsBefore, hm]
  simp only [between, hl, Option.any_none, Option.any_some, hdrop, Bool.false_eq_true, if_false]
  generalize (if before.any dropsAfter then Text.trimStart value else value) = v
  cases hs : m.stripBefore with
  | false => simp
  | true =>
    cases v with
    | nil => simp [trimNewest_of_tag hk, Text.trimEnd]
    | cons c v =>
      simp only [if_true, List.isEmpty_cons, Bool.false_eq_true, if_false, Option.toList_some,
        List.cons_append, List.nil_append, trimNewest]
      split <;> simp

/-- The settling of lexemes is the rule of the two neighbours, for lexemes among which no two texts
stand next to each other. -/
theorem settle_eq_controlled {ls kept : List Lexeme} (before : Option Lexeme)
    (hls : ls.IsChain fun k l => k.token.Apart l.token)
    (hk : ∀ k ∈ kept.head?, k.token.isText = false) :
    settle kept (before.any dropsAfter) ls = kept.reverse ++ controlled before ls := by
  have htag {l : Lexeme} (hl : l.token.isText = false) (ls kept : List Lexeme) :
      settle kept l.stripAfter ls = settle kept ((some l).any dropsAfter) ls := by
    simp [dropsAfter, hl]
  induction ls using List.twoStepInduction generalizing kept before with
  | nil => simp [settle, controlled]
  | singleton l =>
    cases hl : l.token.isText with
    | false =>
      rw [settle_of_tag hl, trimNewest_of_tag hk]
      simp [settle, controlled, between_of_tag hl]
    | true =>
      obtain ⟨value, hv⟩ := Token.isText_eq_true.1 hl
      rw [settle_of_text hv]
      simp only [settle, controlled, List.head?_nil, List.append_nil, List.reverse_append]
      cases l.between before none <;> rfl
  | cons_cons l m ls ih ihm =>
    obtain ⟨hlm, hms⟩ := List.isChain_cons_cons.1 hls
    cases hl : l.token.isText with
    | false =>
      have hl' : ∀ k ∈ (l :: kept).head?, k.token.isText = false := by simpa using hl
      rw [settle_of_tag hl, trimNewest_of_tag hk, ite_self, htag hl, ihm m (some l) hms hl']
      simp [controlled, between_of_tag hl]
    | true =>
      obtain ⟨value, hv⟩ := Token.isText_eq_true.1 hl
      have hm : m.token.isText = false := by simpa [Token.Apart, hl] using hlm
      have hm' : ∀ k ∈ (m :: ((l.between before (some m)).toList ++ kept)).head?,
          k.token.isText = false := by simpa using hm
      rw [settle_of_text hv, settle_of_tag hm, trimNewest_between hv hm before hk, htag hm,
        ih (some m) hms.tail hm']
      cases hb : l.between before (some m) <;> simp [controlled, between_of_tag hm, hb]

theorem ofSource_eq_ok {source : Text} {ls : List Lexeme} :
    ofSource source = .ok ls ↔
      ∃ raw, Cursor.Scanned (Cursor.start source) raw ∧ ls = controlled none raw := by
  have hsettle {raw : List Lexeme} (hs : Cursor.Scanned (Cursor.start source) raw) :
      settle [] false raw = controlled none raw :=
    settle_eq_controlled none hs.apart (by simp)
  unfold ofSource
  constructor
  · intro h
    cases hl : (Cursor.start source).lexemes with
    | error e => simp [hl, Except.map] at h
    | ok raw =>
      have hs := Cursor.lexemes_eq_ok.1 hl
      rw [hl] at h
      exact ⟨raw, hs, by rw [← hsettle hs]; exact (Except.ok.inj h).symm⟩
  · rintro ⟨raw, hs, rfl⟩
    rw [Cursor.lexemes_eq_ok.2 hs, ← hsettle hs]
    rfl

/-- What is left of a text is a text, and of a tag the tag. -/
theorem between_isText {l k : Lexeme} {before after : Option Lexeme}
    (h : l.between before after = some k) : k.token.isText = l.token.isText := by
  cases ht : l.token.isText with
  | false =>
    rw [between_of_tag ht] at h
    cases h
    exact ht
  | true =>
    obtain ⟨value, hv⟩ := Token.isText_eq_true.1 ht
    simp only [between, hv] at h
    obtain ⟨-, hk⟩ := Option.ite_none_left_eq_some.1 h
    cases hk
    rfl

/-- Whitespace control leaves a text that is still fit to be one, and no tag is touched. -/
theorem between_expressible {l k : Lexeme} {before after : Option Lexeme}
    (h : l.between before after = some k) (hl : l.token.Expressible) : k.token.Expressible := by
  cases ht : l.token.isText with
  | false =>
    rw [between_of_tag ht] at h
    cases h
    exact hl
  | true =>
    obtain ⟨value, hv⟩ := Token.isText_eq_true.1 ht
    have hplain : IsPlain value := by simpa [Token.Expressible, hv] using hl
    have hstart (b : Bool) : (if b then Text.trimStart value else value) <:+: value := by
      cases b
      · exact List.infix_rfl
      · exact (Text.trimStart_isSuffix value).isInfix
    have hend (b : Bool) (s : Text) : (if b then Text.trimEnd s else s) <:+: s := by
      cases b
      · exact List.infix_rfl
      · exact (Text.trimEnd_isPrefix s).isInfix
    simp only [between, hv] at h
    obtain ⟨hne, hk⟩ := Option.ite_none_left_eq_some.1 h
    cases hk
    have hi := (hend (after.any dropsBefore) _).trans (hstart (before.any dropsAfter))
    exact ⟨by simpa using hne, fun ho => hplain.tagless (ho.trans hi)⟩

theorem controlled_expressible {ls : List Lexeme} (h : ∀ l ∈ ls, l.token.Expressible)
    (before : Option Lexeme) : ∀ l ∈ controlled before ls, l.token.Expressible := by
  induction ls generalizing before with
  | nil => simp [controlled]
  | cons l ls ih =>
    obtain ⟨hl, hls⟩ := List.forall_mem_cons.1 h
    intro k hk
    rcases List.mem_append.1 hk with hk | hk
    · exact between_expressible (Option.mem_toList.1 hk) hl
    · exact ih hls _ k hk

theorem controlled_apart {ls : List Lexeme} (hls : ls.IsChain fun k l => k.token.Apart l.token)
    (before : Option Lexeme) :
    (controlled before ls).IsChain fun k l => k.token.Apart l.token := by
  induction ls generalizing before with
  | nil => simp [controlled]
  | cons l ls ih =>
    have hchain := ih hls.tail (some l)
    cases hb : l.between before ls.head? with
    | none => simpa [controlled, hb] using hchain
    | some k =>
      have htext := between_isText hb
      simp only [controlled, hb, Option.toList_some, List.singleton_append]
      refine List.isChain_cons.2 ⟨fun m hm => ?_, hchain⟩
      cases ls with
      | nil => simp [controlled] at hm
      | cons n ls =>
        have hln := hls.rel_head? (show n ∈ (n :: ls).head? from rfl)
        cases hn : n.token.isText with
        | false =>
          simp only [controlled, between_of_tag hn, Option.toList_some, List.singleton_append,
            List.head?_cons, Option.mem_def, Option.some.injEq] at hm
          simp [Token.Apart, ← hm, hn]
        | true =>
          have hl' : l.token.isText = false := by simpa [Token.Apart, hn] using hln
          simp [Token.Apart, htext, hl']

/-- What whitespace control leaves of the lexeme at a place in a row of lexemes. -/
def leftAt (raw : List Lexeme) (i : Nat) : Option Lexeme :=
  raw[i]?.bind (between (raw.take i).getLast? raw[i + 1]?)

/-- The lexemes behind `front` are controlled place by place. -/
theorem controlled_eq_filterMap (front ls : List Lexeme) :
    controlled front.getLast? ls =
      (List.range ls.length).filterMap fun i => leftAt (front ++ ls) (front.length + i) := by
  induction ls generalizing front with
  | nil => rfl
  | cons l ls ih =>
    have hfirst : leftAt (front ++ l :: ls) front.length =
        l.between front.getLast? ls.head? := by
      simp [leftAt, List.getElem?_append_right, List.head?_eq_getElem?]
    have hrest : controlled (some l) ls = (List.range ls.length).filterMap fun i =>
        leftAt (front ++ l :: ls) (front.length + (i + 1)) := by
      simpa [Nat.add_assoc, Nat.add_comm 1] using ih (front ++ [l])
    rw [controlled, hrest, ← hfirst, List.length_cons, List.range_succ_eq_map, List.filterMap_cons,
      List.filterMap_map]
    cases leftAt (front ++ l :: ls) front.length <;> rfl

/-- Reading a template fails exactly if a fault is met behind lexemes that are read without one, and
then with that first fault. Otherwise the lexemes are those read up to the end, in order and each as
the two next to it leave it: a text is trimmed in front if a tag that drops the blanks behind it
stands right before, trimmed at its end if a tag that drops those before it comes right after, and
goes if nothing is left of it. -/
theorem ofSource_iff_neighbours (source : Text) :
    (∀ e, ofSource source = .error e ↔
      ∃ raw c, (Cursor.start source).Reaches raw c ∧ c.next.1 = .error e) ∧
    ∀ ls, ofSource source = .ok ls ↔
      ∃ raw c, (Cursor.start source).Reaches raw c ∧ c.next.1 = .ok none ∧
        ls = (List.range raw.length).filterMap (leftAt raw) := by
  constructor
  · intro e
    rw [← Cursor.lexemes_eq_error, ofSource]
    cases (Cursor.start source).lexemes <;> simp [Except.map]
  · intro ls
    have hplaces (raw : List Lexeme) :
        controlled none raw = (List.range raw.length).filterMap (leftAt raw) := by
      simpa using controlled_eq_filterMap [] raw
    rw [ofSource_eq_ok]
    simp only [Cursor.scanned_iff_reaches, hplaces]
    constructor
    · rintro ⟨raw, ⟨c, hc, hend⟩, rfl⟩
      exact ⟨raw, c, hc, hend, rfl⟩
    · rintro ⟨raw, c, hc, hend, rfl⟩
      exact ⟨raw, ⟨c, hc, hend⟩, rfl⟩

-- Blanks between two tags go if either asks for it; those in front of the first one stay.
example : ofSource (" \t".toList ++ tagOpen ++ "a~".toList ++ tagClose ++ " \n ".toList ++ tagOpen ++
    "b".toList ++ tagClose) =
    .ok [⟨.text " \t".toList, 0, false, false⟩, ⟨.reference ['a'], 2, false, true⟩,
      ⟨.reference ['b'], 11, false, false⟩] := by
  decide +kernel

end HandlebarsToTwig.Lexeme
