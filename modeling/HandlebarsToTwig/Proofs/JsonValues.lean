import HandlebarsToTwig.Proofs.JsonReading

/-! The texts of JSON values, whatever they hold. A value that nobody asked for is skipped up to its
end, without a limit on its numbers, its strings or its nesting. -/
namespace HandlebarsToTwig.Json

namespace Quoted

/-- What a string is made of. A surrogate needs no partner here. -/
inductive IsUnit : Text → Prop
  | itself {c : Char} : 0x20 ≤ c.toNat → c ≠ '"' → c ≠ '\\' → IsUnit [c]
  | short {e c : Char} : (e, c) ∈ shortEscapes → IsUnit ['\\', e]
  | number {n : Nat} {ds : Text} : IsHex4 n ds → IsUnit ('\\' :: 'u' :: ds)

def IsQuoted (w : Text) : Prop :=
  ∃ pieces : List Text, (∀ p ∈ pieces, IsUnit p) ∧ w = '"' :: (pieces.flatten ++ ['"'])

theorem unit_isUnit {p : Text} (h : IsUnit p) :
    ∃ c, ∀ rest, unit true (p ++ rest) = .ok (some c, rest) := by
  cases h with
  | itself hlow hquote hback => exact ⟨_, fun rest => unit_itself true rest hlow hquote hback⟩
  | short he => exact ⟨_, fun rest => unit_short true rest he⟩
  | number hds =>
    refine ⟨'\uFFFD', fun rest => ?_⟩
    simp [unit, escape, hex4_append hds, bind, Except.bind, Except.map, pure, Except.pure]

theorem exists_body_true {pieces : List Text} (h : ∀ p ∈ pieces, IsUnit p) :
    ∃ s, ∀ rest, body true (pieces.flatten ++ '"' :: rest) = .ok (s, rest) := by
  obtain ⟨s, hs⟩ : ∃ s, List.Forall₂
      (fun c p => ∀ rest, unit true (p ++ rest) = .ok (some c, rest)) s pieces := by
    induction pieces with
    | nil => exact ⟨[], .nil⟩
    | cons p pieces ih =>
      obtain ⟨hp, hps⟩ := List.forall_mem_cons.1 h
      obtain ⟨c, hc⟩ := unit_isUnit hp
      obtain ⟨s, hs⟩ := ih hps
      exact ⟨c :: s, .cons hc hs⟩
  exact ⟨s, body_flatten hs⟩

theorem skip_isQuoted {w : Text} (h : IsQuoted w) :
    ∃ t, w = '"' :: t ∧ ∀ rest, skip (t ++ rest) = .ok rest := by
  obtain ⟨pieces, hp, rfl⟩ := h
  obtain ⟨s, hs⟩ := exists_body_true hp
  refine ⟨_, rfl, fun rest => ?_⟩
  rw [List.append_assoc, List.singleton_append, skip, hs]
  rfl

end Quoted

/-- What may stand behind a number is not taken for a part of it. -/
theorem Ends.notMem {rest : Text} (h : Ends rest) :
    ∀ c ∈ rest.head?, c.isDigit = false ∧ c ∉ ['.', 'e', 'E'] := by
  intro c hc
  rcases h c hc with hgap | hmark
  · simp only [isGap, Bool.or_eq_true, decide_eq_true_eq] at hgap
    rcases hgap with ((rfl | rfl) | rfl) | rfl <;> decide
  · simp only [List.mem_cons, List.not_mem_nil, or_false] at hmark
    rcases hmark with rfl | rfl | rfl <;> decide

namespace Numeral

def IsDigits (ds : Text) : Prop := ds ≠ [] ∧ ∀ c ∈ ds, c.isDigit = true

inductive IsFraction : Text → Prop
  | absent : IsFraction []
  | present {ds : Text} : IsDigits ds → IsFraction ('.' :: ds)

inductive IsExponent : Text → Prop
  | absent : IsExponent []
  | present {mark : Char} {sign ds : Text} : mark ∈ ['e', 'E'] → sign ∈ [[], ['+'], ['-']] →
    IsDigits ds → IsExponent (mark :: (sign ++ ds))

/-- The texts of numbers of any size. A nought in front stands alone. -/
def IsNumeral (w : Text) : Prop :=
  ∃ sign whole fraction exponent, sign ∈ [[], ['-']] ∧ IsDigits whole ∧
    (whole.head? = some '0' → whole.length = 1) ∧ IsFraction fraction ∧ IsExponent exponent ∧
    w = sign ++ (whole ++ (fraction ++ exponent))

variable (atEnd : Fault) {rest : Text}

theorem digits_append {ds : Text} (h : IsDigits ds) (hrest : ∀ c ∈ rest.head?, c.isDigit = false) :
    digits atEnd (ds ++ rest) = .ok (ds, rest) := by
  obtain ⟨hne, hall⟩ := h
  have hstop : rest.takeWhile Char.isDigit = [] ∧ rest.dropWhile Char.isDigit = rest := by
    cases rest with
    | nil => simp
    | cons c rest => simp [hrest c (by simp)]
  rw [digits, List.takeWhile_append_of_pos hall, List.dropWhile_append_of_pos hall, hstop.1,
    hstop.2, List.append_nil]
  cases ds with
  | nil => exact absurd rfl hne
  | cons d ds => rfl

theorem fractionPart_append {f : Text} (h : IsFraction f)
    (hrest : ∀ c ∈ rest.head?, c.isDigit = false ∧ c ≠ '.') :
    ∃ o, fractionPart atEnd (f ++ rest) = .ok (o, rest) := by
  cases h with
  | absent =>
    refine ⟨none, ?_⟩
    cases rest with
    | nil => rfl
    | cons c rest => simp [fractionPart, (hrest c (by simp)).2]
  | @present ds hds =>
    have hread : digits atEnd (ds ++ rest) = .ok (ds, rest) :=
      digits_append atEnd hds fun c hc => (hrest c hc).1
    exact ⟨some ds, by simp [fractionPart, hread, Except.map]⟩

theorem exponentPart_append {e : Text} (h : IsExponent e)
    (hrest : ∀ c ∈ rest.head?, c.isDigit = false ∧ c ∉ ['e', 'E']) :
    ∃ o, exponentPart atEnd (e ++ rest) = .ok (o, rest) := by
  cases h with
  | absent =>
    refine ⟨none, ?_⟩
    cases rest with
    | nil => rfl
    | cons c rest =>
      have hc := (hrest c (by simp)).2
      simp only [List.mem_cons, List.not_mem_nil, or_false] at hc
      simp [exponentPart, hc]
  | @present mark sign ds hmark hsign hds =>
    have hread : digits atEnd (ds ++ rest) = .ok (ds, rest) :=
      digits_append atEnd hds fun c hc => (hrest c hc).1
    have hm : mark = 'e' ∨ mark = 'E' := by simpa using hmark
    simp only [List.mem_cons, List.not_mem_nil, or_false] at hsign
    rcases hsign with rfl | rfl | rfl
    · cases ds with
      | nil => exact absurd rfl hds.1
      | cons d ds =>
        have hd : d ≠ '-' ∧ d ≠ '+' := by
          constructor <;> rintro rfl <;> exact absurd (hds.2 _ List.mem_cons_self) (by decide)
        rw [List.cons_append] at hread
        simp [exponentPart, hm, hd, hread, Except.map]
    · simp [exponentPart, hm, hread, Except.map]
    · simp [exponentPart, hm, hread, Except.map]

theorem IsExponent.head_append {e : Text} (h : IsExponent e) (hrest : Ends rest) :
    ∀ c ∈ (e ++ rest).head?, c.isDigit = false ∧ c ≠ '.' := by
  cases h with
  | absent =>
    intro c hc
    have := hrest.notMem c hc
    exact ⟨this.1, fun h => this.2 (by simp [h])⟩
  | present hmark =>
    simp only [List.mem_cons, List.not_mem_nil, or_false] at hmark
    rcases hmark with rfl | rfl <;> simp

theorem IsFraction.head_append {f : Text} (h : IsFraction f)
    (hrest : ∀ c ∈ rest.head?, c.isDigit = false ∧ c ≠ '.') :
    ∀ c ∈ (f ++ rest).head?, c.isDigit = false := by
  cases h with
  | absent => exact fun c hc => (hrest c hc).1
  | present => simp

/-- A sign is passed, and a digit is no sign. -/
theorem unsigned {sign ds : Text} (hs : sign ∈ [[], ['-']]) (hds : IsDigits ds) (t : Text) :
    (if (sign ++ (ds ++ t)).head? == some '-' then (sign ++ (ds ++ t)).tail
      else sign ++ (ds ++ t)) = ds ++ t := by
  simp only [List.mem_cons, List.not_mem_nil, or_false] at hs
  rcases hs with rfl | rfl
  · cases ds with
    | nil => exact absurd rfl hds.1
    | cons d ds =>
      have hd : d ≠ '-' := by
        rintro rfl
        exact absurd (hds.2 _ List.mem_cons_self) (by decide)
      simp [hd]
  · simp

theorem skip_isNumeral {w : Text} (h : IsNumeral w) (hrest : Ends rest) :
    skip (w ++ rest) = .ok rest := by
  obtain ⟨sign, whole, fraction, exponent, hsign, hwhole, hnought, hfraction, hexponent, rfl⟩ := h
  have hinner := hexponent.head_append hrest
  have hdigits := digits_append .malformed hwhole (hfraction.head_append hinner)
  obtain ⟨f, hf⟩ := fractionPart_append .malformed hfraction hinner
  obtain ⟨e, he⟩ := exponentPart_append .malformed hexponent fun c hc =>
    ⟨(hrest.notMem c hc).1, fun hm => (hrest.notMem c hc).2 (List.mem_cons_of_mem _ hm)⟩
  have hshort : (whole.head? == some '0' && whole.length != 1) = false := by
    by_cases h0 : whole.head? = some '0'
    · simp [hnought h0]
    · simp [h0]
  simp only [skip, scan, List.append_assoc, unsigned hsign hwhole, hdigits, hshort, hf, he, bind,
    Except.bind, pure, Except.pure, Bool.false_eq_true, if_false, Except.map]

theorem IsNumeral.head {w : Text} (h : IsNumeral w) :
    ∃ c t, w = c :: t ∧ startsNumeral c = true := by
  obtain ⟨sign, whole, fraction, exponent, hsign, hwhole, -, -, -, rfl⟩ := h
  simp only [List.mem_cons, List.not_mem_nil, or_false] at hsign
  rcases hsign with rfl | rfl
  · cases whole with
    | nil => exact absurd rfl hwhole.1
    | cons d ds => exact ⟨d, _, rfl, by simp [startsNumeral, hwhole.2 d List.mem_cons_self]⟩
  · exact ⟨'-', _, rfl, by decide⟩

end Numeral

/-- What stands in front of a value in an object. -/
def IsKey (k : Text) : Prop :=
  ∃ q g gap, Quoted.IsQuoted q ∧ IsGap g ∧ IsGap gap ∧ k = q ++ g ++ ':' :: gap

/-- The texts of values, without the gaps around them. -/
inductive IsValue : Text → Prop
  | word {w : Text} : w ∈ ["null".toList, "true".toList, "false".toList] → IsValue w
  | numeral {w : Text} : Numeral.IsNumeral w → IsValue w
  | quoted {w : Text} : Quoted.IsQuoted w → IsValue w
  | list {w : Text} {items : List Text} : (∀ s ∈ items, IsValue s) → Enclosed '[' items ']' w →
    IsValue w
  | object {w : Text} {fields : List (Text × Text)} : (∀ f ∈ fields, IsKey f.1) →
    (∀ f ∈ fields, IsValue f.2) → Enclosed '{' (fields.map fun f => f.1 ++ f.2) '}' w → IsValue w

/-- Skipping passes the text in fewer steps than twice its length. -/
def Passed (v : Text) : Prop :=
  IsItem v ∧ ∃ k < 2 * v.length, ∀ bound frames rest, Ends rest →
    skipFrom (bound + k) .before frames (v ++ rest) = skipFrom bound .behind frames rest

/-- Skipping passes an item of the frame, the key in front of a value included. -/
def Frame.Passed (frame : Frame) (p : Text) : Prop :=
  (∃ c t, p = c :: t ∧ isGap c = false ∧ c ≠ frame.closer) ∧
    ∃ k < 2 * p.length, ∀ bound frames gap rest, IsGap gap → Ends rest →
      (skipKey frame (gap ++ (p ++ rest)) >>= skipFrom (bound + k) .before frames) =
        skipFrom bound .behind frames rest

theorem skipGap_append_left {g : Text} (hg : IsGap g) (s : Text) : skipGap (g ++ s) = skipGap s :=
  List.dropWhile_append_of_pos hg

theorem skipFrom_before_append {g : Text} (hg : IsGap g) (bound : Nat) (frames : List Frame)
    (s : Text) : skipFrom bound .before frames (g ++ s) = skipFrom bound .before frames s := by
  cases bound with
  | zero => rfl
  | succ bound => simp only [skipFrom, skipGap_append_left hg]

/-- Where skipping stands in front of the first item of a frame, or of what follows an item. -/
def place (first : Bool) : Place := if first then .opened else .behind

theorem skipFrom_close (bound : Nat) (first : Bool) (frame : Frame) (frames : List Frame) {g : Text}
    (hg : IsGap g) (rest : Text) :
    skipFrom (bound + 1) (place first) (frame :: frames) (g ++ frame.closer :: rest) =
      skipFrom bound .behind frames rest := by
  have hc : isGap frame.closer = false := by cases frame <;> decide
  cases first <;> simp [place, skipFrom, skipGap_append hg hc]

/-- In front of an item, the lead is passed, and nothing else changes. -/
theorem skipFrom_lead (bound : Nat) (first : Bool) {frame : Frame} (frames : List Frame)
    {g gap : Text} (hg : IsGap g) (hgap : IsGap gap) {c : Char} (hc : isGap c = false)
    (hclose : c ≠ frame.closer) (t : Text) :
    ∃ gap', IsGap gap' ∧
      skipFrom (bound + 1) (place first) (frame :: frames) (lead first g gap ++ c :: t) =
        (skipKey frame (gap' ++ c :: t) >>= skipFrom bound .before (frame :: frames)) := by
  cases first with
  | true =>
    refine ⟨[], isGap_nil, ?_⟩
    simp [place, lead, skipFrom, skipGap_append hgap hc, hclose]
  | false =>
    have hcomma : ',' ≠ frame.closer := by cases frame <;> decide
    refine ⟨gap, hgap, ?_⟩
    simp [place, lead, skipFrom, skipGap_append hg isGap_comma, hcomma]

/-- The items of a frame are passed one after the other, and then its closing mark. -/
theorem skipFrom_row {frame : Frame} {first : Bool} {ps : List Text} {t : Text}
    (h : Row first ps t) (hp : ∀ p ∈ ps, frame.Passed p) :
    ∃ k ≤ 2 * t.length + 1, ∀ bound frames g rest, IsGap g →
      skipFrom (bound + k) (place first) (frame :: frames) (t ++ (g ++ frame.closer :: rest)) =
        skipFrom bound .behind frames rest := by
  induction h with
  | nil first =>
    refine ⟨1, by simp, fun bound frames g rest hg => ?_⟩
    exact skipFrom_close bound first frame frames hg rest
  | @cons first g gap p t ps hg hgap ht ih =>
    obtain ⟨⟨⟨c, u, hpc, hc, hclose⟩, k, hk, hpass⟩, hps⟩ := List.forall_mem_cons.1 hp
    obtain ⟨l, hl, hrow⟩ := ih hps
    refine ⟨l + k + 1, ?_, fun bound frames g' rest hg' => ?_⟩
    · simp only [List.length_append]
      omega
    · have hends : Ends (t ++ (g' ++ frame.closer :: rest)) :=
        ht.ends hg' (by cases frame <;> decide) rest
      obtain ⟨gap', hgap', hlead⟩ := skipFrom_lead (bound + l + k) first frames hg hgap hc hclose
        (u ++ (t ++ (g' ++ frame.closer :: rest)))
      rw [← List.cons_append, ← hpc] at hlead
      rw [List.append_assoc, List.append_assoc, ← Nat.add_assoc, ← Nat.add_assoc, hlead,
        hpass _ _ _ _ hgap' hends]
      exact hrow bound frames g' rest hg'

theorem passed_of_scalar {c : Char} {t : Text} (hgap : isGap c = false)
    (hmark : c ∉ ['[', ']', '{']) (h : ∀ rest, Ends rest → skipScalar (c :: t ++ rest) = .ok rest) :
    Passed (c :: t) := by
  simp only [List.mem_cons, List.not_mem_nil, or_false, not_or] at hmark
  refine ⟨⟨c, t, rfl, hgap, hmark.2.1⟩, 1, by simp only [List.length_cons]; omega, ?_⟩
  intro bound frames rest hrest
  have hscalar := h rest hrest
  rw [List.cons_append] at hscalar ⊢
  simp [skipFrom, skipGap_cons hgap, hmark, hscalar, bind, Except.bind]

theorem passed_of_isNumeral {w : Text} (h : Numeral.IsNumeral w) : Passed w := by
  have hskip : ∀ rest, Ends rest → Numeral.skip (w ++ rest) = .ok rest :=
    fun _ => Numeral.skip_isNumeral h
  obtain ⟨c, t, rfl, hc⟩ := h.head
  have hne : ∀ d, startsNumeral d = false → c ≠ d := by
    rintro d hd rfl
    simp [hc] at hd
  have hword : wordTail? c = none := by
    simp [wordTail?, hne 'n' (by decide), hne 't' (by decide), hne 'f' (by decide)]
  refine passed_of_scalar ?_ ?_ fun rest hrest => ?_
  · simp [isGap, hne ' ' (by decide), hne '\n' (by decide), hne '\t' (by decide),
      hne '\r' (by decide)]
  · simp [hne '[' (by decide), hne ']' (by decide), hne '{' (by decide)]
  · rw [List.cons_append, skipScalar, hword]
    simp only [hne '"' (by decide), hc, if_true, if_false]
    exact hskip rest hrest

theorem passed_of_isQuoted {w : Text} (h : Quoted.IsQuoted w) : Passed w := by
  obtain ⟨t, rfl, hskip⟩ := Quoted.skip_isQuoted h
  exact passed_of_scalar (by decide) (by decide) fun rest _ => hskip rest

/-- An opening mark enters a frame, and the closing one leaves it. -/
theorem passed_of_enclosed (frame : Frame) {opener : Char} {ps : List Text} {w : Text}
    (hopen : ∀ bound frames s, skipFrom (bound + 1) .before frames (opener :: s) =
      skipFrom bound .opened (frame :: frames) s)
    (hitem : isGap opener = false ∧ opener ≠ ']') (hp : ∀ p ∈ ps, frame.Passed p)
    (hw : Enclosed opener ps frame.closer w) : Passed w := by
  have hfront := hw.isItem hitem.1 hitem.2
  obtain ⟨t, g, ht, hg, rfl⟩ := hw
  obtain ⟨k, hk, hrow⟩ := skipFrom_row ht hp
  refine ⟨hfront, k + 1, ?_, fun bound frames rest _ => ?_⟩
  · simp only [List.length_cons, List.length_append, List.length_nil]
    omega
  · rw [List.cons_append, ← Nat.add_assoc, hopen, List.append_assoc, List.append_assoc]
    exact hrow bound frames g rest hg

theorem Frame.passed_list {v : Text} (h : Json.Passed v) : Frame.list.Passed v := by
  obtain ⟨hitem, k, hk, hpass⟩ := h
  refine ⟨hitem, k, hk, fun bound frames gap rest hgap hrest => ?_⟩
  rw [← hpass bound frames rest hrest]
  exact skipFrom_before_append hgap _ _ _

theorem Frame.passed_object {key v : Text} (hkey : IsKey key) (h : Json.Passed v) :
    Frame.object.Passed (key ++ v) := by
  obtain ⟨q, g, gap, hq, hg, hgap, rfl⟩ := hkey
  obtain ⟨t, rfl, hskip⟩ := Quoted.skip_isQuoted hq
  obtain ⟨-, k, hk, hpass⟩ := h
  refine ⟨⟨'"', _, rfl, by decide, by decide⟩, k, ?_, fun bound frames gap' rest hgap' hrest => ?_⟩
  · simp only [List.length_append]
    omega
  · have hs : gap' ++ ('"' :: t ++ g ++ ':' :: gap ++ v ++ rest) =
        gap' ++ '"' :: (t ++ (g ++ ':' :: (gap ++ (v ++ rest)))) := by
      simp
    rw [hs, skipKey, expectMark_append hgap' isGap_quote]
    simp only [bind, Except.bind, hskip, expectMark_append hg (show isGap ':' = false by decide)]
    rw [skipFrom_before_append hgap, hpass bound frames rest hrest]

theorem passed_of_isValue {v : Text} (h : IsValue v) : Passed v := by
  induction h with
  | word hw =>
    simp only [List.mem_cons, List.not_mem_nil, or_false] at hw
    rcases hw with rfl | rfl | rfl <;>
      exact passed_of_scalar (by decide) (by decide) fun _ _ => rfl
  | numeral hw => exact passed_of_isNumeral hw
  | quoted hw => exact passed_of_isQuoted hw
  | list _ hw ih =>
    refine passed_of_enclosed .list ?_ (by decide) ?_ hw
    · intro bound frames s
      simp [skipFrom, skipGap_cons (show isGap '[' = false by decide)]
    · exact fun p hp => Frame.passed_list (ih p hp)
  | object hkey _ hw ih =>
    refine passed_of_enclosed .object ?_ (by decide) ?_ hw
    · intro bound frames s
      simp [skipFrom, skipGap_cons (show isGap '{' = false by decide)]
    · exact List.forall_mem_map.2 fun f hf => Frame.passed_object (hkey f hf) (ih f hf)

/-- A value is skipped up to its end, with the gap in front of it. -/
theorem skipValue_append {v : Text} (h : IsValue v) {gap : Text} (hgap : IsGap gap) {rest : Text}
    (hrest : Ends rest) : skipValue (gap ++ v ++ rest) = .ok rest := by
  obtain ⟨-, k, hk, hpass⟩ := passed_of_isValue h
  obtain ⟨bound, hbound⟩ : ∃ bound, 2 * (gap ++ v ++ rest).length + 2 = bound + 1 + k := by
    refine ⟨2 * (gap ++ v ++ rest).length + 1 - k, ?_⟩
    simp only [List.length_append]
    omega
  rw [skipValue, hbound, List.append_assoc, skipFrom_before_append hgap, hpass _ _ _ hrest]
  rfl

end HandlebarsToTwig.Json
