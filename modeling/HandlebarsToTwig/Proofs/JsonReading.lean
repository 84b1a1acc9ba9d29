import HandlebarsToTwig.Json.Document
import HandlebarsToTwig.Json.Record
import Mathlib.Data.List.Forall2

/-! What the readers of JSON make of a text that is put together from known parts. -/
namespace HandlebarsToTwig

theorem Text.length_le_byteSize (s : Text) : s.length ≤ s.byteSize := by
  induction s with
  | nil => simp
  | cons c s ih =>
    have := c.utf8Size_pos
    simp only [List.length_cons, byteSize_cons]
    omega

namespace Json

/-- The reader takes `s` off the front of every text that begins with it, and gives `o`. -/
def Takes {α : Type} (read : Reader α) (s : Text) (o : Except Fault α) : Prop :=
  ∀ rest, read (s ++ rest) = o.map (·, rest)

/-- A run of characters that may stand between two tokens. -/
def IsGap (g : Text) : Prop := ∀ c ∈ g, isGap c = true

theorem isGap_nil : IsGap [] := by simp [IsGap]

theorem skipGap_of_isGap {g : Text} (hg : IsGap g) : skipGap g = [] := by
  rw [skipGap, ← List.append_nil g, List.dropWhile_append_of_pos hg]
  rfl

theorem skipGap_cons {c : Char} (hc : isGap c = false) (t : Text) : skipGap (c :: t) = c :: t := by
  rw [skipGap, List.dropWhile_cons_of_neg (by simp [hc])]

theorem skipGap_append {g : Text} (hg : IsGap g) {c : Char} (hc : isGap c = false) (t : Text) :
    skipGap (g ++ c :: t) = c :: t := by
  rw [skipGap, List.dropWhile_append_of_pos hg]
  exact skipGap_cons hc t

namespace Quoted

/-- Four hexadecimal digits that stand for `n`. -/
def IsHex4 (n : Nat) (ds : Text) : Prop :=
  ds.length = 4 ∧ ds.all (Text.isDigit 16) = true ∧ Text.value 16 ds = n

instance (n : Nat) (ds : Text) : Decidable (IsHex4 n ds) := inferInstanceAs (Decidable (_ ∧ _ ∧ _))

theorem hex4_append {n : Nat} {ds : Text} (h : IsHex4 n ds) (rest : Text) :
    hex4 (ds ++ rest) = .ok (n, rest) := by
  obtain ⟨hlen, hall, hvalue⟩ := h
  have hsize : ¬ Text.byteSize ds < 4 := by
    have := Text.length_le_byteSize ds
    omega
  have htake : (ds ++ rest).take 4 = ds := by rw [← hlen, List.take_left]
  have hdrop : (ds ++ rest).drop 4 = rest := by rw [← hlen, List.drop_left]
  simp only [hex4, htake, hdrop, hsize, hall, hvalue, if_false, if_true]

/-- The ways to write a character between quotes: as itself, by one letter, by its number, or by the
two surrogates that it is made of. -/
inductive Writes : Char → Text → Prop
  | itself {c : Char} : 0x20 ≤ c.toNat → c ≠ '"' → c ≠ '\\' → Writes c [c]
  | short {c e : Char} : (e, c) ∈ shortEscapes → Writes c ['\\', e]
  | number {c : Char} {ds : Text} : IsHex4 c.toNat ds → Writes c ('\\' :: 'u' :: ds)
  | surrogates {c : Char} {hi lo : Text} : 0x10000 ≤ c.toNat →
    IsHex4 (0xD800 + (c.toNat - 0x10000) / 0x400) hi →
    IsHex4 (0xDC00 + (c.toNat - 0x10000) % 0x400) lo →
    Writes c ('\\' :: 'u' :: hi ++ '\\' :: 'u' :: lo)

/-- The text is the string `s` between quotes. -/
def Spells (s w : Text) : Prop :=
  ∃ pieces, List.Forall₂ Writes s pieces ∧ w = '"' :: (pieces.flatten ++ ['"'])

theorem writes_encodeChar (c : Char) : Writes c (encodeChar c) := by
  by_cases hc : c ∈ ['"', '\\', '\x08', '\x0c', '\n', '\r', '\t']
  · simp only [List.mem_cons, List.not_mem_nil, or_false] at hc
    rcases hc with rfl | rfl | rfl | rfl | rfl | rfl | rfl <;> exact .short (by decide)
  · simp only [List.mem_cons, List.not_mem_nil, or_false, not_or] at hc
    by_cases hlow : c.toNat < 0x20
    · have hdigits : ∀ n < 0x20,
          IsHex4 n ['0', '0', Nat.digitChar (n / 16), Nat.digitChar (n % 16)] := by decide
      simp only [encodeChar, hc, hlow, if_true, if_false]
      exact .number (hdigits c.toNat hlow)
    · simp only [encodeChar, hc, hlow, if_false]
      exact .itself (Nat.le_of_not_lt hlow) hc.1 hc.2.1

theorem spells_write (s : Text) : Spells s (write s) := by
  refine ⟨s.map encodeChar, ?_, by simp [write, List.flatMap]⟩
  rw [List.forall₂_map_right_iff, List.forall₂_same]
  exact fun c _ => writes_encodeChar c

theorem codePoint_toNat (c : Char) (rest : Text) : codePoint c.toNat rest = .ok (c, rest) := by
  have hvalid : c.toNat < 0xD800 ∨ 0xDFFF < c.toNat ∧ c.toNat < 0x110000 := c.valid
  have ht : isTrailing c.toNat = false := by
    simp only [isTrailing, Bool.and_eq_false_iff, decide_eq_false_iff_not]
    omega
  have hl : isLeading c.toNat = false := by
    simp only [isLeading, Bool.and_eq_false_iff, decide_eq_false_iff_not]
    omega
  simp [codePoint, ht, hl]

/-- The leading surrogate of a character calls for the trailing one. -/
theorem codePoint_surrogates {c : Char} (hc : 0x10000 ≤ c.toNat) {lo : Text}
    (hlo : IsHex4 (0xDC00 + (c.toNat - 0x10000) % 0x400) lo) (rest : Text) :
    codePoint (0xD800 + (c.toNat - 0x10000) / 0x400) ('\\' :: 'u' :: (lo ++ rest)) =
      .ok (c, rest) := by
  have hvalid : c.toNat < 0xD800 ∨ 0xDFFF < c.toNat ∧ c.toNat < 0x110000 := c.valid
  generalize hn : c.toNat - 0x10000 = n at hlo ⊢
  have ht : isTrailing (0xD800 + n / 0x400) = false := by
    simp only [isTrailing, Bool.and_eq_false_iff, decide_eq_false_iff_not]
    omega
  have hl : isLeading (0xD800 + n / 0x400) = true := by
    simp only [isLeading, Bool.and_eq_true, decide_eq_true_eq]
    omega
  have ht' : isTrailing (0xDC00 + n % 0x400) = true := by
    simp only [isTrailing, Bool.and_eq_true, decide_eq_true_eq]
    omega
  have hpoint : 0x10000 + (0xD800 + n / 0x400 - 0xD800) * 0x400 +
      (0xDC00 + n % 0x400 - 0xDC00) = c.toNat := by
    omega
  simp only [codePoint, ht, hl, expect, hex4_append hlo, ht', hpoint, Char.ofNat_toNat, bind,
    Except.bind, pure, Except.pure, if_true, if_false, Bool.false_eq_true]

section

variable (skipped : Bool) (rest : Text)

theorem unit_itself {c : Char} (hlow : 0x20 ≤ c.toNat) (hquote : c ≠ '"') (hback : c ≠ '\\') :
    unit skipped (c :: rest) = .ok (some c, rest) := by
  simp [unit, Nat.not_lt.2 hlow]

theorem unit_short {c e : Char} (h : (e, c) ∈ shortEscapes) :
    unit skipped ('\\' :: e :: rest) = .ok (some c, rest) := by
  have hlookup : e ≠ 'u' ∧ shortEscapes.lookup e = some c := by
    have hall : ∀ p ∈ shortEscapes, p.1 ≠ 'u' ∧ shortEscapes.lookup p.1 = some p.2 := by decide
    exact hall (e, c) h
  simp [unit, escape, hlookup, Except.map]

end

/-- However a character is written, it is read as itself. -/
theorem unit_writes {c : Char} {p : Text} (h : Writes c p) (rest : Text) :
    unit false (p ++ rest) = .ok (some c, rest) := by
  cases h with
  | itself hlow hquote hback => exact unit_itself false rest hlow hquote hback
  | short he => exact unit_short false rest he
  | number hds =>
    simp [unit, escape, hex4_append hds, codePoint_toNat, bind, Except.bind, Except.map]
  | surrogates hc hhi hlo =>
    simp [unit, escape, hex4_append hhi, codePoint_surrogates hc hlo, bind, Except.bind, Except.map]

/-- A string is read to its closing quote if its pieces are read one by one. -/
theorem body_flatten {skipped : Bool} {s : Text} {pieces : List Text}
    (h : List.Forall₂ (fun c p => ∀ rest, unit skipped (p ++ rest) = .ok (some c, rest)) s pieces)
    (rest : Text) : body skipped (pieces.flatten ++ '"' :: rest) = .ok (s, rest) := by
  induction h with
  | nil =>
    rw [body_eq]
    rfl
  | cons hp _ ih =>
    rw [List.flatten_cons, List.append_assoc, body_eq, hp]
    simp only [ih, Except.map]

/-- However a string is written, it is read as itself, after its opening quote. -/
theorem read_spells {s w : Text} (h : Spells s w) :
    ∃ t, w = '"' :: t ∧ ∀ rest, read (t ++ rest) = .ok (s, rest) := by
  obtain ⟨pieces, hp, rfl⟩ := h
  refine ⟨_, rfl, fun rest => ?_⟩
  rw [List.append_assoc]
  exact body_flatten (hp.imp fun _ _ h => unit_writes h) rest

end Quoted

variable {α σ ρ : Type}

theorem isGap_quote : isGap '"' = false := by decide

theorem text_takes {s w : Text} (hw : Quoted.Spells s w) {g : Text} (hg : IsGap g) :
    Takes text (g ++ w) (.ok s) := by
  obtain ⟨t, rfl, hread⟩ := Quoted.read_spells hw
  intro rest
  rw [List.append_assoc, List.cons_append, text, skipGap_append hg isGap_quote]
  exact hread rest

theorem text?_takes {s w : Text} (hw : Quoted.Spells s w) {g : Text} (hg : IsGap g) :
    Takes text? (g ++ w) (.ok (some s)) := by
  have htext := text_takes hw isGap_nil
  obtain ⟨t, rfl, -⟩ := Quoted.read_spells hw
  intro rest
  have ht : text ('"' :: (t ++ rest)) = .ok (s, rest) := htext rest
  rw [List.append_assoc, List.cons_append, text?, skipGap_append hg isGap_quote]
  simp [ht, Except.map]

/-- What stands in front of an item or a key: a gap, with a comma before it unless it is the first,
and another gap before the comma. -/
def lead (first : Bool) (g gap : Text) : Text := if first then gap else g ++ ',' :: gap

/-- The text holds the pieces, with a lead in front of each. -/
inductive Row : (first : Bool) → List Text → Text → Prop
  | nil (first : Bool) : Row first [] []
  | cons {first : Bool} {g gap s t : Text} {ss : List Text} : IsGap g → IsGap gap →
    Row false ss t → Row first (s :: ss) (lead first g gap ++ s ++ t)

/-- The text holds the pieces between two marks. -/
def Enclosed (opener : Char) (ss : List Text) (closer : Char) (w : Text) : Prop :=
  ∃ t g, Row true ss t ∧ IsGap g ∧ w = opener :: (t ++ g ++ [closer])

/-- Pieces with the same gap in front of each. -/
def spread (gap : Text) : (first : Bool) → List Text → Text
  | _, [] => []
  | first, s :: ss => lead first [] gap ++ s ++ spread gap false ss

theorem row_spread {gap : Text} (hgap : IsGap gap) (first : Bool) (ss : List Text) :
    Row first ss (spread gap first ss) := by
  induction ss generalizing first with
  | nil => exact .nil first
  | cons s ss ih => exact .cons isGap_nil hgap (ih false)

theorem expectMark_append {g : Text} (hg : IsGap g) {mark : Char} (hm : isGap mark = false)
    (rest : Text) : expectMark mark (g ++ mark :: rest) = .ok rest := by
  simp [expectMark, skipGap_append hg hm, expect]

theorem isGap_comma : isGap ',' = false := by decide

theorem nextItem_close (first : Bool) {g : Text} (hg : IsGap g) (rest : Text) :
    nextItem first (g ++ ']' :: rest) = .ok none := by
  simp [nextItem, skipGap_append hg (show isGap ']' = false by decide)]

theorem nextItem_lead (first : Bool) {g gap : Text} (hg : IsGap g) (hgap : IsGap gap) {c : Char}
    (hc : isGap c = false) (hclose : c ≠ ']') (t : Text) :
    nextItem first (lead first g gap ++ c :: t) = .ok (some (c :: t)) := by
  cases first with
  | true => simp [nextItem, lead, skipGap_append hgap hc, hclose]
  | false =>
    simp [nextItem, lead, skipGap_append hg isGap_comma, skipGap_append hgap hc, hclose]

theorem nextKey_close (first : Bool) {g : Text} (hg : IsGap g) (rest : Text) :
    nextKey first (g ++ '}' :: rest) = .ok none := by
  simp [nextKey, skipGap_append hg (show isGap '}' = false by decide)]

theorem nextKey_lead (first : Bool) {g gap : Text} (hg : IsGap g) (hgap : IsGap gap) (t : Text) :
    nextKey first (lead first g gap ++ '"' :: t) = .ok (some t) := by
  cases first with
  | true => simp [nextKey, lead, skipGap_append hgap isGap_quote, expect, Except.map]
  | false =>
    simp [nextKey, lead, skipGap_append hg isGap_comma, expectMark_append hgap isGap_quote,
      Except.map]

/-- The text of an item: no gap stands in front, and it does not look like the end of the list. -/
def IsItem (s : Text) : Prop := ∃ c t, s = c :: t ∧ isGap c = false ∧ c ≠ ']'

theorem Enclosed.isItem {opener closer : Char} {ss : List Text} {w : Text}
    (h : Enclosed opener ss closer w) (hgap : isGap opener = false) (hclose : opener ≠ ']') :
    IsItem w := by
  obtain ⟨t, g, -, -, rfl⟩ := h
  exact ⟨opener, _, rfl, hgap, hclose⟩

theorem Row.length_le {first : Bool} {ss : List Text} {t : Text} (h : Row first ss t)
    (hne : ∀ s ∈ ss, s ≠ []) : ss.length ≤ t.length := by
  induction h with
  | nil first => simp
  | cons _ _ _ ih =>
    obtain ⟨hs, hss⟩ := List.forall_mem_cons.1 hne
    have := ih hss
    have := List.length_pos_iff.2 hs
    simp only [List.length_append, List.length_cons]
    omega

/-- The items of a list are read one after the other, and the first fault ends the reading. -/
theorem items_row {β : Type} {item : Reader α} {write : β → Text} {out : β → Except Fault α}
    {bs : List β} (hitem : ∀ b ∈ bs, IsItem (write b) ∧ Takes item (write b) (out b)) {bound : Nat}
    (hb : bs.length < bound) {first : Bool} {t g : Text} (ht : Row first (bs.map write) t)
    (hg : IsGap g) (rest : Text) :
    items item bound first (t ++ (g ++ ']' :: rest)) =
      (bs.mapM out).map (·, g ++ ']' :: rest) := by
  -- The bound is the number of items and something extra, which stays the same along the list.
  obtain ⟨extra, rfl⟩ := Nat.exists_eq_add_of_lt hb
  clear hb
  induction bs generalizing first t with
  | nil =>
    cases ht
    simp [items, nextItem_close first hg, bind, Except.bind, pure, Except.pure, Except.map]
  | cons b bs ih =>
    rw [List.map_cons] at ht
    obtain ⟨⟨⟨c, u, hw, hc, hclose⟩, htake⟩, hbs⟩ := List.forall_mem_cons.1 hitem
    cases ht with
    | @cons _ g' gap _ t _ hg' hgap ht =>
      have hrest := ih hbs ht
      rw [Nat.add_right_comm, ← List.length_cons (a := b)] at hrest
      have hnext := nextItem_lead first hg' hgap hc hclose (u ++ (t ++ (g ++ ']' :: rest)))
      rw [← List.cons_append, ← hw] at hnext
      simp only [List.append_assoc, items, hnext, List.mapM_cons, bind, Except.bind]
      rw [htake]
      cases out b with
      | error e => rfl
      | ok a =>
        simp only [Except.map, hrest]
        cases bs.mapM out <;> rfl

/-- A list is read item by item, if it may be entered. -/
theorem list_takes {β : Type} {item : Reader α} {write : β → Text} {out : β → Except Fault α}
    {bs : List β} (hitem : ∀ b ∈ bs, IsItem (write b) ∧ Takes item (write b) (out b))
    {w h : Text} (hw : Enclosed '[' (bs.map write) ']' w) (hh : IsGap h) :
    Takes (list (some item)) (h ++ w) (bs.mapM out) := by
  obtain ⟨t, g, ht, hg, rfl⟩ := hw
  intro rest
  have hs : h ++ '[' :: (t ++ g ++ [']']) ++ rest = h ++ '[' :: (t ++ (g ++ ']' :: rest)) := by simp
  have hne : ∀ s ∈ bs.map write, s ≠ [] := by
    rw [List.forall_mem_map]
    intro b hb
    obtain ⟨c, u, hu, -⟩ := (hitem b hb).1
    simp [hu]
  have hlen : bs.length < (t ++ (g ++ ']' :: rest)).length + 1 := by
    have := ht.length_le hne
    simp only [List.length_map, List.length_append] at this ⊢
    omega
  rw [hs, list, skipGap_append hh (by decide)]
  simp only [items_row hitem hlen ht hg]
  cases bs.mapM out with
  | error e => rfl
  | ok as => simp [bind, Except.bind, Except.map, expectMark_append hg, pure, Except.pure, isGap]

theorem list_none_takes (t : Text) {h : Text} (hh : IsGap h) :
    Takes (list (none : Option (Reader α))) (h ++ '[' :: t) (.error .malformed) := by
  intro rest
  simp [list, skipGap_append hh (show isGap '[' = false by decide), Except.map]

/-- The piece is a key with the text of its value, which may have a gap in front. -/
def IsField (key s p : Text) : Prop :=
  ∃ k g, Quoted.Spells key k ∧ IsGap g ∧ p = k ++ g ++ ':' :: s

/-- A key with its value. -/
def field (key s : Text) : Text := Quoted.write key ++ ':' :: s

theorem isField_field (key s : Text) : IsField key s (field key s) :=
  ⟨Quoted.write key, [], Quoted.spells_write key, isGap_nil, by simp [field]⟩

theorem IsField.ne_nil {key s p : Text} (h : IsField key s p) : p ≠ [] := by
  obtain ⟨k, g, -, -, rfl⟩ := h
  simp

/-- What may stand behind a value: nothing, or a character that no number goes on with. -/
def Ends (rest : Text) : Prop := ∀ c ∈ rest.head?, isGap c = true ∨ c ∈ [',', ']', '}']

theorem ends_append {g : Text} (hg : IsGap g) {c : Char} (hc : c ∈ [',', ']', '}']) (rest : Text) :
    Ends (g ++ c :: rest) := by
  cases g with
  | nil => simpa [Ends] using Or.inr hc
  | cons b g =>
    have hb := hg b List.mem_cons_self
    simp [Ends, hb]

theorem Row.ends {ss : List Text} {t : Text} (h : Row false ss t) {g : Text} (hg : IsGap g)
    {closer : Char} (hc : closer ∈ [']', '}']) (rest : Text) :
    Ends (t ++ (g ++ closer :: rest)) := by
  cases h with
  | nil => exact ends_append hg (List.mem_cons_of_mem _ hc) rest
  | cons hg' =>
    simp only [lead, Bool.false_eq_true, if_false, List.append_assoc, List.cons_append]
    exact ends_append hg' (by simp) _

theorem byName_close (slots : List (Slot σ)) (strict : Bool) (bound : Nat) (first : Bool)
    (draft : σ) {g : Text} (hg : IsGap g) (rest : Text) :
    byName slots strict (bound + 1) first draft (g ++ '}' :: rest) =
      .ok (draft, g ++ '}' :: rest) := by
  simp [byName, nextKey_close first hg, bind, Except.bind, pure, Except.pure]

/-- The key of a field is passed, whether it names a slot or not. -/
theorem byName_key {key s p : Text} (hp : IsField key s p) (slots : List (Slot σ)) (strict : Bool)
    (bound : Nat) (first : Bool) (draft : σ) {g gap : Text} (hg : IsGap g) (hgap : IsGap gap)
    (rest : Text) :
    byName slots strict (bound + 1) first draft (lead first g gap ++ p ++ rest) =
      match slots.find? (·.name = key) with
      | some slot =>
        if slot.filled draft then .error .wrongShape
        else slot.fill draft (s ++ rest) >>= fun (next, s) => byName slots strict bound false next s
      | none =>
        if strict then .error .wrongShape
        else skipValue (s ++ rest) >>= byName slots strict bound false draft := by
  obtain ⟨k, g', hk, hg', rfl⟩ := hp
  obtain ⟨t, rfl, hread⟩ := Quoted.read_spells hk
  have hs : lead first g gap ++ ('"' :: t ++ g' ++ ':' :: s) ++ rest =
      lead first g gap ++ '"' :: (t ++ (g' ++ ':' :: (s ++ rest))) := by
    simp
  have hcolon : expectMark ':' (g' ++ ':' :: (s ++ rest)) = .ok (s ++ rest) :=
    expectMark_append hg' (by decide) _
  rw [hs, byName, nextKey_lead first hg hgap]
  simp only [bind, Except.bind, hread]
  cases slots.find? (·.name = key) with
  | none => cases strict <;> simp [hcolon, throw, throwThe, MonadExceptOf.throw]
  | some slot =>
    cases slot.filled draft <;> simp [hcolon, throw, throwThe, MonadExceptOf.throw]

/-- The fields, one after the other, fill a draft up to the outcome, which is the full draft or the
first fault. A field that no slot is there for is skipped, unless the record is strict. -/
inductive Fills (slots : List (Slot σ)) (strict : Bool) : σ → List Text → Except Fault σ → Prop
  | done (draft : σ) : Fills slots strict draft [] (.ok draft)
  | step {draft next : σ} {key s p : Text} {slot : Slot σ} {ps : List Text}
    {o : Except Fault σ} : IsField key s p → slots.find? (·.name = key) = some slot →
    slot.filled draft = false → Takes (slot.fill draft) s (.ok next) →
    Fills slots strict next ps o → Fills slots strict draft (p :: ps) o
  | stop {draft : σ} {key s p : Text} {slot : Slot σ} {ps : List Text} {e : Fault} :
    IsField key s p → slots.find? (·.name = key) = some slot → slot.filled draft = false →
    Takes (slot.fill draft) s (.error e) → Fills slots strict draft (p :: ps) (.error e)
  | skip {draft : σ} {key s p : Text} {ps : List Text} {o : Except Fault σ} : strict = false →
    IsField key s p → slots.find? (·.name = key) = none →
    (∀ rest, Ends rest → skipValue (s ++ rest) = .ok rest) → Fills slots strict draft ps o →
    Fills slots strict draft (p :: ps) o

def fieldTexts (fields : List (Text × Text)) : List Text := fields.map fun f => field f.1 f.2

theorem byName_row {slots : List (Slot σ)} {strict : Bool} {draft : σ} {ps : List Text}
    {o : Except Fault σ} (h : Fills slots strict draft ps o) {bound : Nat} (hb : ps.length < bound)
    {first : Bool} {t g : Text} (ht : Row first ps t) (hg : IsGap g) (rest : Text) :
    byName slots strict bound first draft (t ++ (g ++ '}' :: rest)) =
      o.map (·, g ++ '}' :: rest) := by
  obtain ⟨extra, rfl⟩ := Nat.exists_eq_add_of_lt hb
  clear hb
  induction h generalizing first t with
  | done draft =>
    cases ht
    exact byName_close slots strict _ first draft hg rest
  | step hp hfind hfree htake _ ih =>
    cases ht with
    | cons hg' hgap ht =>
      rw [List.append_assoc, byName_key hp slots strict _ first _ hg' hgap, hfind, List.length_cons,
        Nat.add_right_comm]
      simp only [hfree, Bool.false_eq_true, if_false]
      rw [htake]
      exact ih ht
  | stop hp hfind hfree htake =>
    cases ht with
    | cons hg' hgap ht =>
      rw [List.append_assoc, byName_key hp slots strict _ first _ hg' hgap, hfind]
      simp only [hfree, Bool.false_eq_true, if_false]
      rw [htake]
      rfl
  | skip hstrict hp hfind hskip _ ih =>
    subst hstrict
    cases ht with
    | cons hg' hgap ht =>
      rw [List.append_assoc, byName_key hp slots false _ first _ hg' hgap, hfind, List.length_cons,
        Nat.add_right_comm]
      simp only [Bool.false_eq_true, if_false]
      rw [hskip _ (ht.ends hg (by simp) rest)]
      exact ih ht

theorem Slot.of_takes {name : Text} {get : σ → Option α} {set : σ → α → σ} {read : Reader α}
    {optional : Bool} {s : Text} {o : Except Fault α} (h : Takes read s o) (draft : σ) :
    Takes ((Slot.of name get set read optional).fill draft) s (o.map (set draft)) := by
  intro rest
  simp only [Slot.of, h rest]
  cases o <;> rfl

/-- An object is read field by field and completed, if it may be entered. -/
theorem record_takes {slots : List (Slot σ)} {empty : σ} {complete : σ → Option ρ}
    {ps : List Text} {strict : Bool} {o : Except Fault σ} {r : σ → ρ}
    (hfill : Fills slots strict empty ps o) (hfield : ∀ p ∈ ps, ∃ key s, IsField key s p)
    (hcomplete : ∀ draft, o = .ok draft → complete draft = some (r draft))
    {w h : Text} (hw : Enclosed '{' ps '}' w) (hh : IsGap h) :
    Takes (record (some slots) strict empty complete) (h ++ w) (o.map r) := by
  obtain ⟨t, g, ht, hg, rfl⟩ := hw
  intro rest
  have hs : h ++ '{' :: (t ++ g ++ ['}']) ++ rest = h ++ '{' :: (t ++ (g ++ '}' :: rest)) := by simp
  have hlen : ps.length < (t ++ (g ++ '}' :: rest)).length + 1 := by
    have := ht.length_le fun p hp => (hfield p hp).elim fun _ ⟨_, h⟩ => h.ne_nil
    simp only [List.length_append]
    omega
  rw [hs]
  unfold record
  simp only [skipGap_append hh (show isGap '{' = false by decide), byName_row hfill hlen ht hg]
  cases o with
  | error e => rfl
  | ok draft =>
    simp [Except.map, bind, Except.bind, hcomplete draft rfl, expectMark_append hg, pure,
      Except.pure, isGap]

/-- The texts fill the slots in order, and what is left over may be missing. -/
inductive FillsInOrder : List (Slot σ) → σ → List Text → σ → Prop
  | done {slots : List (Slot σ)} (draft : σ) : slots.all Slot.optional = true →
    FillsInOrder slots draft [] draft
  | step {slot : Slot σ} {slots : List (Slot σ)} {draft next last : σ} {s : Text} {ss : List Text} :
    IsItem s → Takes (slot.fill draft) s (.ok next) → FillsInOrder slots next ss last →
    FillsInOrder (slot :: slots) draft (s :: ss) last

theorem byPosition_row {slots : List (Slot σ)} {draft last : σ} {ss : List Text}
    (h : FillsInOrder slots draft ss last) {first : Bool} {t g : Text} (ht : Row first ss t)
    (hg : IsGap g) (rest : Text) :
    byPosition slots first draft (t ++ (g ++ ']' :: rest)) = .ok (last, g ++ ']' :: rest) := by
  induction h generalizing first t with
  | @done slots draft hoptional =>
    cases ht
    cases slots with
    | nil => rfl
    | cons slot slots =>
      simp only [List.nil_append, byPosition, nextItem_close first hg, bind, Except.bind, hoptional,
        if_true]
      rfl
  | step hitem htake _ ih =>
    obtain ⟨c, u, rfl, hc, hclose⟩ := hitem
    cases ht with
    | @cons _ g' gap _ t _ hg' hgap ht =>
      have hnext := nextItem_lead first hg' hgap hc hclose (u ++ (t ++ (g ++ ']' :: rest)))
      rw [← List.cons_append] at hnext
      simp only [List.append_assoc, byPosition, hnext, bind, Except.bind]
      rw [htake]
      exact ih ht

/-- A list in the place of an object is read slot by slot and completed. -/
theorem record_takes_inOrder {slots : List (Slot σ)} {empty draft : σ} {complete : σ → Option ρ}
    {ss : List Text} {r : ρ} (hfill : FillsInOrder slots empty ss draft)
    (hcomplete : complete draft = some r) (strict : Bool) {w h : Text} (hw : Enclosed '[' ss ']' w)
    (hh : IsGap h) : Takes (record (some slots) strict empty complete) (h ++ w) (.ok r) := by
  obtain ⟨t, g, ht, hg, rfl⟩ := hw
  intro rest
  have hs : h ++ '[' :: (t ++ g ++ [']']) ++ rest = h ++ '[' :: (t ++ (g ++ ']' :: rest)) := by simp
  rw [hs]
  unfold record
  simp only [skipGap_append hh (show isGap '[' = false by decide), byPosition_row hfill ht hg]
  simp [Except.map, bind, Except.bind, hcomplete, expectMark_append hg, pure, Except.pure, isGap]

theorem record_none_takes (strict : Bool) (empty : σ) (complete : σ → Option ρ) (t : Text)
    {h : Text} (hh : IsGap h) :
    Takes (record none strict empty complete) (h ++ '{' :: t) (.error .malformed) := by
  intro rest
  simp [record, skipGap_append hh (show isGap '{' = false by decide), Except.map]

theorem readWhole_of_takes {read : Reader α} {s g : Text} {o : Except Fault α} (h : Takes read s o)
    (hg : IsGap g) : readWhole read (s ++ g) = o := by
  rw [readWhole, h g]
  cases o with
  | error e => rfl
  | ok a => simp [Except.map, bind, Except.bind, skipGap_of_isGap hg, pure, Except.pure]

/-- What is read if the nesting leaves room for it. -/
def within (p : Prop) [Decidable p] (a : α) : Except Fault α :=
  if p then .ok a else .error .malformed

theorem within_pos {p : Prop} [Decidable p] (h : p) (a : α) :
    within p a = .ok a := if_pos h

theorem within_neg {p : Prop} [Decidable p] (h : ¬ p) (a : α) :
    within p a = .error .malformed := if_neg h

theorem within_eq_ok {p : Prop} [Decidable p] {a b : α} :
    within p a = .ok b ↔ p ∧ a = b := by
  unfold within
  split <;> simp_all

theorem within_map {β : Type} {p : Prop} [Decidable p] (f : α → β) (a : α) :
    (within p a).map f = within p (f a) := by
  by_cases h : p
  · rw [within_pos h, within_pos h]
    rfl
  · rw [within_neg h, within_neg h]
    rfl

/-- There is room for a list if there is room for all its items. -/
theorem mapM_within {β : Type} {p : β → Prop} [DecidablePred p] {f : β → α} {bs : List β}
    {q : Prop} [Decidable q] (hq : q ↔ ∀ b ∈ bs, p b) :
    (bs.mapM fun b => within (p b) (f b)) = within q (bs.map f) := by
  induction bs generalizing q with
  | nil => simp [within_pos (hq.2 (by simp)), pure, Except.pure]
  | cons b bs ih =>
    rw [List.mapM_cons, ih (q := ∀ b ∈ bs, p b) Iff.rfl]
    rw [List.forall_mem_cons] at hq
    by_cases hb : p b
    · by_cases hbs : ∀ b ∈ bs, p b
      · rw [within_pos hb, within_pos hbs, within_pos (hq.2 ⟨hb, hbs⟩)]
        rfl
      · rw [within_pos hb, within_neg hbs, within_neg fun h => hbs (hq.1 h).2]
        rfl
    · rw [within_neg hb, within_neg fun h => hb (hq.1 h).1]
      rfl

end Json

end HandlebarsToTwig
