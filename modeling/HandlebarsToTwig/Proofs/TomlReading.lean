import HandlebarsToTwig.Error
import HandlebarsToTwig.Proofs.TomlTables
import Mathlib.Data.List.TakeWhile

/-! Reading back what is written: strings with any characters, keys with any parts, numbers, tables
between braces, and whole lines. -/
namespace HandlebarsToTwig.Toml

variable {rest : Text}

namespace Quoted

/-- A character as it is written between double quotes. -/
def writeChar (c : Char) : Text :=
  if c = '"' ∨ c = '\\' then ['\\', c]
  else if isPlain c then [c]
  else ['\\', 'u', '0', '0', Nat.digitChar (c.toNat / 16), Nat.digitChar (c.toNat % 16)]

def write (s : Text) : Text := '"' :: s.flatMap writeChar ++ ['"']

theorem hexValue?_digitChar : ∀ d < 16, Text.hexValue? (Nat.digitChar d) = some d := by decide

theorem digitChar_plain :
    ∀ d < 16, Nat.digitChar d ≠ '"' ∧ Nat.digitChar d ≠ '\\' ∧ Nat.digitChar d ≠ '\r' := by decide

theorem toNat_lt_of_not_isPlain {c : Char} (h : isPlain c = false) : c.toNat < 128 := by
  simp only [isPlain, Bool.or_eq_false_iff, Bool.and_eq_false_iff, decide_eq_false_iff_not,
    bne_eq_false_iff_eq] at h
  omega

theorem char?_toNat (c : Char) : char? c.toNat = some c := by
  have hvalid : c.toNat.isValidChar := c.valid
  rw [char?, if_pos hvalid, Char.ofNat_toNat]

theorem decode_writeChar (c : Char) (s : Text) :
    decode false .plain (writeChar c ++ s) =
      (decode false .plain s).bind fun decoded => some (c :: decoded) := by
  unfold writeChar
  split
  · next hc =>
    have hlookup : shortEscapes.lookup c = some c := by
      rcases hc with rfl | rfl <;> decide
    have hletter : c ≠ 'u' ∧ c ≠ 'U' := by
      rcases hc with rfl | rfl <;> decide
    simp [decode, hlookup, hletter]
  split
  · next hc hplain =>
    have hitself : decode false .plain (c :: s) = (decode false .plain s).map (c :: ·) := by
      simp [decode, (not_or.1 hc).2, hplain]
    exact hitself.trans (Option.map_eq_bind ..)
  · next hc hplain =>
    have hlt := toNat_lt_of_not_isPlain (Bool.eq_false_iff.2 hplain)
    have hhigh := hexValue?_digitChar (c.toNat / 16) (by omega)
    have hlow := hexValue?_digitChar (c.toNat % 16) (by omega)
    have hzero : Text.hexValue? '0' = some 0 := by decide
    have hcode : c.toNat / 16 * 16 + c.toNat % 16 = c.toNat := by omega
    simp [decode, hhigh, hlow, hzero, hcode, char?_toNat]

theorem decode_flatMap_writeChar (s : Text) :
    decode false .plain (s.flatMap writeChar) = some s := by
  induction s with
  | nil => rfl
  | cons c s ih => rw [List.flatMap_cons, decode_writeChar, ih, Option.bind_some]

theorem splitLine_cons (quote : Char) (escapes : Bool) (c : Char) (s : Text) :
    splitLine quote escapes (c :: s) =
      if c = quote then some ([], s)
      else if escapes ∧ c = '\\' then
        match s with
        | [] => none
        | d :: s => (splitLine quote escapes s).map fun (body, rest) => (c :: d :: body, rest)
      else (splitLine quote escapes s).map fun (body, rest) => (c :: body, rest) := by
  cases s <;> rfl

theorem splitLine_escape (c : Char) (s : Text) :
    splitLine '"' true ('\\' :: c :: s) =
      (splitLine '"' true s).map fun (body, rest) => ('\\' :: c :: body, rest) := rfl

theorem splitLine_plain {c : Char} (hquote : c ≠ '"') (hescape : c ≠ '\\') (s : Text) :
    splitLine '"' true (c :: s) =
      (splitLine '"' true s).map fun (body, rest) => (c :: body, rest) := by
  rw [splitLine_cons, if_neg hquote, if_neg fun h => hescape h.2]

theorem splitLine_writeChar (c : Char) (s : Text) :
    splitLine '"' true (writeChar c ++ s) =
      (splitLine '"' true s).map fun (body, rest) => (writeChar c ++ body, rest) := by
  unfold writeChar
  split
  · exact splitLine_escape c s
  split
  · next hc _ => exact splitLine_plain (not_or.1 hc).1 (not_or.1 hc).2 s
  · next hc hplain =>
    have hlt := toNat_lt_of_not_isPlain (Bool.eq_false_iff.2 hplain)
    have hhigh := digitChar_plain (c.toNat / 16) (by omega)
    have hlow := digitChar_plain (c.toNat % 16) (by omega)
    simp [splitLine_escape, splitLine_plain, hhigh, hlow, Function.comp_def]

theorem splitLine_flatMap_writeChar (s rest : Text) :
    splitLine '"' true (s.flatMap writeChar ++ '"' :: rest) = some (s.flatMap writeChar, rest) := by
  induction s with
  | nil => exact splitLine_cons '"' true '"' rest
  | cons c s ih =>
    rw [List.flatMap_cons, List.append_assoc, splitLine_writeChar, ih, Option.map_some]

theorem write_append (s rest : Text) :
    write s ++ rest = '"' :: (s.flatMap writeChar ++ '"' :: rest) := by
  simp [write]

theorem line_write (s rest : Text) : line (write s ++ rest) = some (s, rest) := by
  rw [write_append, line, splitLine_flatMap_writeChar]
  simp [decode_flatMap_writeChar]

theorem head?_writeChar (c : Char) (s : Text) : (writeChar c ++ s).head? ≠ some '"' := by
  unfold writeChar
  split
  · simp
  split
  · next hc _ => simpa using (not_or.1 hc).1
  · simp

theorem read_write (s : Text) (hrest : rest.head? ≠ some '"') :
    read (write s ++ rest) = some (s, rest) := by
  rw [← line_write s rest, write_append]
  unfold read
  split
  · next t ht =>
    -- Three quotes in a row would need one that is written, or one behind an empty string.
    exfalso
    cases s with
    | nil =>
      apply hrest
      simpa using congrArg (List.head? ∘ List.tail ∘ List.tail) ht
    | cons c s =>
      apply head?_writeChar c (s.flatMap writeChar ++ '"' :: rest)
      simpa using congrArg (List.head? ∘ List.tail) ht
  · next ht => cases ht
  · rfl

theorem cr_notMem_write (s : Text) : '\r' ∉ write s := by
  have hchar (c : Char) : '\r' ∉ writeChar c := by
    unfold writeChar
    split
    · next hc => rcases hc with rfl | rfl <;> decide
    split
    · next hplain =>
      intro h
      rw [← List.mem_singleton.1 h] at hplain
      exact absurd hplain (by decide)
    · next hplain =>
      have hlt := toNat_lt_of_not_isPlain (Bool.eq_false_iff.2 hplain)
      have hhigh := digitChar_plain (c.toNat / 16) (by omega)
      have hlow := digitChar_plain (c.toNat % 16) (by omega)
      simp [Ne.symm hhigh.2.2, Ne.symm hlow.2.2]
  simp [write, hchar]

end Quoted

/-- A part of a key as it is written: bare if it can be. -/
def writePart (part : Text) : Text :=
  if part ≠ [] ∧ part.all isBare then part else Quoted.write part

/-- A key as it is written, its parts divided by dots. -/
def Key.write (k : Key) : Text :=
  k.path.flatMap (fun part => writePart part ++ ['.']) ++ writePart k.last

theorem keyPart_of_isBare {c : Char} (hc : isBare c) (s : Text) :
    keyPart (c :: s) = some (c :: s.takeWhile isBare, s.dropWhile isBare) := by
  unfold keyPart
  split
  · next h =>
    rw [(List.cons.inj h).1] at hc
    exact absurd hc (by decide)
  · next h =>
    rw [(List.cons.inj h).1] at hc
    exact absurd hc (by decide)
  · simp [hc]

theorem takeWhile_dropWhile_isBare {part : Text} (hpart : part.all isBare)
    (hrest : ∀ c ∈ rest.head?, isBare c = false) :
    (part ++ rest).takeWhile isBare = part ∧ (part ++ rest).dropWhile isBare = rest := by
  have hall : ∀ c ∈ part, isBare c := List.all_eq_true.1 hpart
  rw [List.takeWhile_append_of_pos hall, List.dropWhile_append_of_pos hall]
  cases rest with
  | nil => simp
  | cons c rest => simp [hrest c rfl]

theorem keyPart_writePart (part : Text) (hrest : ∀ c ∈ rest.head?, isBare c = false) :
    keyPart (writePart part ++ rest) = some (part, rest) := by
  unfold writePart
  split
  · next h =>
    obtain ⟨hne, hall⟩ := h
    cases part with
    | nil => exact absurd rfl hne
    | cons c part =>
      rw [List.all_cons, Bool.and_eq_true] at hall
      obtain ⟨htake, hdrop⟩ := takeWhile_dropWhile_isBare hall.2 hrest
      rw [List.cons_append, keyPart_of_isBare hall.1, htake, hdrop]
  · exact Quoted.line_write part rest

theorem head_writePart (part : Text) :
    ∃ c s, writePart part = c :: s ∧ (isBare c ∨ c = '"') := by
  unfold writePart
  split
  · next h =>
    obtain ⟨hne, hall⟩ := h
    cases part with
    | nil => exact absurd rfl hne
    | cons c part =>
      rw [List.all_cons, Bool.and_eq_true] at hall
      exact ⟨c, part, rfl, .inl hall.1⟩
  · exact ⟨'"', _, rfl, .inr rfl⟩

/-- What a key begins with: neither a gap nor a mark of another kind of line. -/
theorem head_write (k : Key) : ∃ c s, k.write = c :: s ∧ (isBare c ∨ c = '"') := by
  obtain ⟨path, last⟩ := k
  cases path with
  | nil => simpa [Key.write] using head_writePart last
  | cons part path =>
    obtain ⟨c, s, hpart, hc⟩ := head_writePart part
    exact ⟨c, _, by simp [Key.write, hpart]; rfl, hc⟩

/-- A key begins with none of the characters that mean something else at the start of a line. -/
theorem ne_of_isBare {c d : Char} (hc : isBare c ∨ c = '"') (hd : isBare d = false ∧ d ≠ '"') :
    c ≠ d := by
  rintro rfl
  rcases hc with hc | rfl
  · exact absurd hc (Bool.eq_false_iff.1 hd.1)
  · exact hd.2 rfl

theorem isGap_eq_false {c : Char} (hblank : c ≠ ' ') (htab : c ≠ '\t') : isGap c = false := by
  simp [isGap, hblank, htab]

theorem isGap_eq_false_of_isBare {c : Char} (h : isBare c ∨ c = '"') : isGap c = false :=
  isGap_eq_false (ne_of_isBare h (by decide)) (ne_of_isBare h (by decide))

theorem skipGap_cons {c : Char} (h : isGap c = false) (s : Text) : skipGap (c :: s) = c :: s := by
  simp [skipGap, h]

theorem skipGap_write_append (k : Key) (s : Text) : skipGap (k.write ++ s) = k.write ++ s := by
  obtain ⟨c, t, hk, hc⟩ := head_write k
  rw [hk]
  exact skipGap_cons (isGap_eq_false_of_isBare hc) (t ++ s)

theorem keyParts_write {path : List Text} {last : Text} {bound : Nat} (hbound : path.length < bound)
    (hrest : ∀ c ∈ rest.head?, isBare c = false) (hdot : (skipGap rest).head? ≠ some '.') :
    keyParts bound ((Key.mk path last).write ++ rest) = some (path ++ [last], skipGap rest) := by
  induction path generalizing bound with
  | nil =>
    obtain ⟨bound, rfl⟩ := Nat.exists_eq_add_one_of_ne_zero (Nat.ne_zero_of_lt hbound)
    have hpart : (Key.mk [] last).write = writePart last := rfl
    rw [keyParts, skipGap_write_append, hpart, keyPart_writePart last hrest]
    dsimp only [bind, Option.bind]
    split
    · next h => exact absurd (congrArg List.head? h) hdot
    · rfl
  | cons part path ih =>
    obtain ⟨bound, rfl⟩ := Nat.exists_eq_add_one_of_ne_zero (Nat.ne_zero_of_lt hbound)
    have hsplit : (Key.mk (part :: path) last).write ++ rest =
        writePart part ++ '.' :: ((Key.mk path last).write ++ rest) := by
      simp [Key.write]
    have hmark : skipGap ('.' :: ((Key.mk path last).write ++ rest)) =
        '.' :: ((Key.mk path last).write ++ rest) := skipGap_cons (by decide) _
    rw [keyParts, skipGap_write_append, hsplit, keyPart_writePart part (by simp; decide)]
    simp only [Option.bind_eq_bind, Option.bind_some, hmark, ih (Nat.lt_of_succ_lt_succ hbound)]
    rfl

theorem key_write {k : Key} (hbound : k.path.length < nestingBound - 1)
    (hrest : ∀ c ∈ rest.head?, isBare c = false) (hdot : (skipGap rest).head? ≠ some '.') :
    key (k.write ++ rest) = some (k, skipGap rest) := by
  simp [key, keyParts_write hbound hrest hdot]

/-- An entry as it is written. -/
def writeEntry (k : Key) (value : Text) : Text := k.write ++ [' ', '=', ' '] ++ value

theorem entry_writeEntry {value : Reader Value} {k : Key} {s : Text} {v : Value}
    (hbound : k.path.length < nestingBound - 1) (hgap : skipGap (s ++ rest) = s ++ rest)
    (hvalue : value (s ++ rest) = some (v, rest)) :
    entry value (writeEntry k s ++ rest) = some ((k, v), rest) := by
  let behind : Text := ' ' :: '=' :: ' ' :: (s ++ rest)
  have hsplit : writeEntry k s ++ rest = k.write ++ behind := by simp [writeEntry, behind]
  have hmark : skipGap behind = '=' :: ' ' :: (s ++ rest) := rfl
  have hafter : Text.after? ['='] ('=' :: ' ' :: (s ++ rest)) = some (' ' :: (s ++ rest)) := rfl
  have hblank : skipGap (' ' :: (s ++ rest)) = s ++ rest := hgap
  have hbehind : ∀ c ∈ behind.head?, isBare c = false := by simp [behind]; decide
  have hdot : (skipGap behind).head? ≠ some '.' := by simp [hmark]
  rw [hsplit, entry, key_write hbound hbehind hdot, hmark]
  simp [hafter, hblank, hvalue]

section Decimal

variable {ds : Text}

/-- Decimal digits without a zero in front. -/
structure IsDecimal (ds : Text) : Prop where
  digits : ∀ c ∈ ds, Text.isDigit 10 c
  head : ∃ c s, ds = c :: s ∧ c ≠ '0'

theorem ne_of_isDigit {c d : Char} (hc : Text.isDigit 10 c) (hd : Text.isDigit 10 d = false) :
    c ≠ d := by
  rintro rfl
  exact absurd hc (Bool.eq_false_iff.1 hd)

theorem digitChar_isDigit : ∀ d < 10, Text.isDigit 10 (Nat.digitChar d) := by decide

theorem digitChar_ne_zero : ∀ d < 10, d ≠ 0 → Nat.digitChar d ≠ '0' := by decide

theorem isDecimal_decimal {n : Nat} (hn : n ≠ 0) : IsDecimal (Error.decimal n) := by
  unfold Error.decimal
  induction n using Nat.strongRecOn with
  | ind n ih =>
    by_cases hlt : n < 10
    · rw [Nat.toDigits_of_lt_base hlt]
      exact ⟨by simpa using digitChar_isDigit n hlt, _, _, rfl, digitChar_ne_zero n hlt hn⟩
    · have hfront := ih (n / 10) (by omega) (by omega)
      rw [Nat.toDigits_of_base_le (by decide) (by omega)]
      obtain ⟨c, s, hds, hc⟩ := hfront.head
      refine ⟨?_, c, s ++ [Nat.digitChar (n % 10)], by rw [hds]; rfl, hc⟩
      rw [List.forall_mem_append]
      exact ⟨hfront.digits, by simpa using digitChar_isDigit (n % 10) (by omega)⟩

theorem value_append_singleton (ds : Text) (c : Char) :
    Text.value 10 (ds ++ [c]) = Text.value 10 ds * 10 + (Text.hexValue? c).getD 0 := by
  simp [Text.value]

theorem value_decimal (n : Nat) : Text.value 10 (Error.decimal n) = n := by
  unfold Error.decimal
  induction n using Nat.strongRecOn with
  | ind n ih =>
    by_cases hlt : n < 10
    · rw [Nat.toDigits_of_lt_base hlt]
      simp [Text.value, Quoted.hexValue?_digitChar n (by omega)]
    · rw [Nat.toDigits_of_base_le (by decide) (by omega), value_append_singleton,
        ih (n / 10) (by omega), Quoted.hexValue?_digitChar (n % 10) (by omega)]
      simp only [Option.getD_some]
      omega

/-- A mark of a date or of a time of day does not stand behind digits that end their line. -/
theorem Moment.mark_of_field (hds : ∀ c ∈ ds, Text.isDigit 10 c) {m : Char}
    (hmark : Text.isDigit 10 m = false) (hline : m ≠ '\n') {width low high n : Nat} {s : Text}
    (h : Moment.field width low high (ds ++ '\n' :: rest) = some (n, s)) :
    Moment.mark m s = none := by
  unfold Moment.field at h
  dsimp only at h
  split at h
  · next hfield =>
    cases h
    have hwidth : width ≤ ds.length := by
      by_contra hlt
      have hmem : '\n' ∈ (ds ++ '\n' :: rest).take width := by
        obtain ⟨k, hk⟩ := Nat.exists_eq_add_of_lt (Nat.lt_of_not_le hlt)
        rw [hk, Nat.add_assoc, List.take_length_add_append]
        simp
      exact absurd (List.all_eq_true.1 hfield.2.1 _ hmem) (by decide)
    rw [List.drop_append_of_le_length hwidth]
    cases hdrop : ds.drop width with
    | nil => simp [Moment.mark, Text.after?, hline]
    | cons c t =>
      have hc : Text.isDigit 10 c := hds c (List.mem_of_mem_drop (hdrop ▸ List.mem_cons_self))
      simp [Moment.mark, Text.after?, (ne_of_isDigit hc hmark).symm]
  · cases h

theorem Moment.read_digits (hds : ∀ c ∈ ds, Text.isDigit 10 c) :
    Moment.read (ds ++ '\n' :: rest) = none := by
  have hdate : Moment.date (ds ++ '\n' :: rest) = none := by
    unfold Moment.date
    cases hfield : Moment.field 4 0 9999 (ds ++ '\n' :: rest) with
    | none => rfl
    | some p =>
      simp [Moment.mark_of_field (m := '-') hds (by decide) (by decide) hfield]
  have htime : Moment.time (ds ++ '\n' :: rest) = none := by
    unfold Moment.time
    cases hfield : Moment.field 2 0 23 (ds ++ '\n' :: rest) with
    | none => rfl
    | some p =>
      simp [Moment.mark_of_field (m := ':') hds (by decide) (by decide) hfield]
  rw [Moment.read, hdate, htime]

namespace Numeral

theorem digits_of_isDigit (hds : ∀ c ∈ ds, Text.isDigit 10 c) :
    digits 10 false (ds ++ '\n' :: rest) = some (ds, '\n' :: rest) := by
  induction ds with
  | nil => rfl
  | cons c ds ih =>
    obtain ⟨hc, hds⟩ := List.forall_mem_cons.1 hds
    rw [List.cons_append, digits, if_pos hc, ih hds]
    rfl

theorem sign_of_isDigit {c : Char} (hc : Text.isDigit 10 c) (s : Text) :
    sign (c :: s) = (false, c :: s) := by
  unfold sign
  split
  · next h => exact absurd (List.cons.inj h).1 (ne_of_isDigit hc (by decide))
  · next h => exact absurd (List.cons.inj h).1 (ne_of_isDigit hc (by decide))
  · rfl

theorem whole_decimal (hds : IsDecimal ds) :
    whole (ds ++ '\n' :: rest) = some (false, ds, '\n' :: rest) := by
  obtain ⟨c, s, rfl, hzero⟩ := hds.head
  obtain ⟨hc, hs⟩ := List.forall_mem_cons.1 hds.digits
  unfold whole
  rw [List.cons_append, sign_of_isDigit hc]
  split
  · next h => exact absurd (List.cons.inj (Prod.mk.inj h).2).1 hzero
  · next h =>
    cases h
    rw [digits, if_pos hc, digits_of_isDigit hs]
    rfl

theorem finite_decimal (hds : IsDecimal ds) : finite (ds ++ '\n' :: rest) = none := by
  unfold finite
  rw [whole_decimal hds]
  rfl

theorem special_decimal (hds : IsDecimal ds) : special (ds ++ '\n' :: rest) = none := by
  obtain ⟨c, s, rfl, -⟩ := hds.head
  have hc : Text.isDigit 10 c := hds.digits c List.mem_cons_self
  have hi : c ≠ 'i' := ne_of_isDigit hc (by decide)
  have hn : c ≠ 'n' := ne_of_isDigit hc (by decide)
  unfold special
  rw [List.cons_append, sign_of_isDigit hc]
  simp [Text.after?, hi.symm, hn.symm]

theorem integer_decimal (hds : IsDecimal ds) (hword : Text.value 10 ds ≤ 9223372036854775807) :
    integer (ds ++ '\n' :: rest) = some ((Text.value 10 ds : Int), '\n' :: rest) := by
  have hzero : ∀ t, ds ++ '\n' :: rest ≠ '0' :: t := by
    obtain ⟨c, s, rfl, hc⟩ := hds.head
    intro t h
    exact hc (List.cons.inj h).1
  unfold integer
  dsimp only
  split
  · next h => exact absurd h (hzero _)
  · next h => exact absurd h (hzero _)
  · next h => exact absurd h (hzero _)
  · rw [whole_decimal hds]
    simp
    omega

theorem read_decimal (hds : IsDecimal ds) (hword : Text.value 10 ds ≤ 9223372036854775807) :
    read (ds ++ '\n' :: rest) = some (.integer (Text.value 10 ds), '\n' :: rest) := by
  rw [read, finite_decimal hds, special_decimal hds, integer_decimal hds hword]
  rfl

end Numeral

end Decimal

theorem value_write (levels : Nat) (s : Text) (hrest : rest.head? ≠ some '"') :
    value levels (Quoted.write s ++ rest) = some (.text s, rest) := by
  have hread := Quoted.read_write s hrest
  rw [Quoted.write_append] at hread ⊢
  rw [value.eq_def]
  simp [hread]

theorem value_of_isDigit {c : Char} (hc : Text.isDigit 10 c) (levels : Nat) (s : Text)
    (hmoment : Moment.read (c :: s) = none) : value levels (c :: s) = Numeral.read (c :: s) := by
  have hne (d : Char) (hd : Text.isDigit 10 d = false) : c ≠ d := ne_of_isDigit hc hd
  rw [value.eq_def]
  simp [hne '"' (by decide), hne '\'' (by decide), hne '[' (by decide), hne '{' (by decide),
    hne 't' (by decide), hne 'f' (by decide), hmoment]

theorem value_decimal_append (levels : Nat) {n : Nat} (hn : n ≠ 0)
    (hword : n ≤ 9223372036854775807) (rest : Text) :
    value levels (Error.decimal n ++ '\n' :: rest) = some (.integer n, '\n' :: rest) := by
  have hds := isDecimal_decimal hn
  have hmoment : Moment.read (Error.decimal n ++ '\n' :: rest) = none :=
    Moment.read_digits hds.digits
  have hread : Numeral.read (Error.decimal n ++ '\n' :: rest) =
      some (.integer n, '\n' :: rest) := by
    rw [Numeral.read_decimal hds (by rwa [value_decimal]), value_decimal]
  obtain ⟨c, s, hhead, -⟩ := hds.head
  rw [hhead] at hmoment hread ⊢
  rw [← hread]
  exact value_of_isDigit (hds.digits c (hhead ▸ List.mem_cons_self)) levels _ hmoment

theorem skipGap_decimal {n : Nat} (hn : n ≠ 0) (rest : Text) :
    skipGap (Error.decimal n ++ rest) = Error.decimal n ++ rest := by
  have hds := isDecimal_decimal hn
  obtain ⟨c, s, hhead, -⟩ := hds.head
  have hc : Text.isDigit 10 c := hds.digits c (hhead ▸ List.mem_cons_self)
  rw [hhead]
  exact skipGap_cons
    (isGap_eq_false (ne_of_isDigit hc (by decide)) (ne_of_isDigit hc (by decide))) _

/-- The entries of a table in which every key has a text. -/
def texts (es : List (Text × Text)) : Entries := es.map fun (name, s) => (name, .text s)

/-- An entry with a text, as it is written. -/
def writeText (e : Text × Text) : Text := writeEntry ⟨[], e.1⟩ (Quoted.write e.2)

/-- A table between braces, as it is written. -/
def writeTable : List (Text × Text) → Text
  | [] => ['{', '}']
  | e :: es =>
    ['{', ' '] ++ writeText e ++ es.flatMap (fun e => [',', ' '] ++ writeText e) ++ [' ', '}']

theorem skipGap_quoted (s rest : Text) :
    skipGap (Quoted.write s ++ rest) = Quoted.write s ++ rest := by
  rw [Quoted.write_append]
  exact skipGap_cons (by decide) _

theorem entry_writeText (levels : Nat) (e : Text × Text) (hrest : rest.head? ≠ some '"') :
    entry (value levels) (writeText e ++ rest) = some ((⟨[], e.1⟩, .text e.2), rest) :=
  entry_writeEntry (by decide : 0 < nestingBound - 1) (skipGap_quoted e.2 rest)
    (value_write levels e.2 hrest)

theorem inlineEntries_blank (value : Reader Value) (bound : Nat) (s : Text) :
    inlineEntries value (bound + 1) (' ' :: s) = inlineEntries value (bound + 1) s := rfl

theorem inlineEntries_writeText (levels : Nat) {bound : Nat} (e : Text × Text)
    (es : List (Text × Text)) (hbound : es.length < bound) (rest : Text) :
    inlineEntries (value levels) bound
      (writeText e ++ (es.flatMap (fun e => [',', ' '] ++ writeText e) ++ ' ' :: '}' :: rest)) =
        some ((e :: es).map fun e => (⟨[], e.1⟩, .text e.2), rest) := by
  induction es generalizing e bound with
  | nil =>
    obtain ⟨bound, rfl⟩ := Nat.exists_eq_add_one_of_ne_zero (Nat.ne_zero_of_lt hbound)
    have hclose : skipGap (' ' :: '}' :: rest) = '}' :: rest := rfl
    rw [inlineEntries, List.flatMap_nil, List.nil_append, entry_writeText levels e (by simp)]
    simp [hclose]
  | cons e' es ih =>
    obtain ⟨bound, rfl⟩ := Nat.exists_eq_add_one_of_ne_zero (Nat.ne_zero_of_lt hbound)
    obtain ⟨bound, rfl⟩ := Nat.exists_eq_add_one_of_ne_zero
      (Nat.ne_zero_of_lt (Nat.lt_of_succ_lt_succ hbound))
    let behind : Text :=
      writeText e' ++ (es.flatMap (fun e => [',', ' '] ++ writeText e) ++ ' ' :: '}' :: rest)
    have hsplit : (e' :: es).flatMap (fun e => [',', ' '] ++ writeText e) ++ ' ' :: '}' :: rest =
        ',' :: ' ' :: behind := by simp [behind]
    have hcomma : skipGap (',' :: ' ' :: behind) = ',' :: ' ' :: behind :=
      skipGap_cons (by decide) _
    have hnext := ih e' (Nat.lt_of_succ_lt_succ hbound)
    rw [← inlineEntries_blank] at hnext
    rw [hsplit, inlineEntries, entry_writeText levels e (by simp)]
    simp only [Option.bind_eq_bind, Option.bind_some, hcomma, behind, hnext]
    rfl

theorem foldlM_addEntry_texts {es : List (Text × Text)} {t : Table}
    (hnew : ∀ e ∈ es, t.get? e.1 = none) (hkeys : (es.map Prod.fst).Nodup) :
    (es.map fun e => (Key.mk [] e.1, Value.text e.2)).foldlM
      (fun t (k, v) => t.addEntry k.path k.last v) t =
        some ⟨t.origin, t.entries ++ texts es⟩ := by
  induction es generalizing t with
  | nil => simp [texts]
  | cons e es ih =>
    obtain ⟨he, hnew⟩ := List.forall_mem_cons.1 hnew
    rw [List.map_cons, List.nodup_cons] at hkeys
    have hput := Table.put_of_get?_eq_none he (.text e.2)
    have hnext : ∀ e' ∈ es, (t.put e.1 (.text e.2)).get? e'.1 = none := by
      intro e' he'
      have hne : e'.1 ≠ e.1 := fun h => hkeys.1 (h ▸ List.mem_map_of_mem he')
      rw [Table.get?_put, if_neg hne, hnew e' he']
    rw [List.map_cons, List.foldlM_cons]
    dsimp only
    rw [Table.addEntry_new he, Option.bind_eq_bind, Option.bind_some, ih hnext hkeys.2, hput]
    simp [texts]

theorem length_le_length_flatMap {α : Type} {f : α → Text} (hf : ∀ x, f x ≠ []) (l : List α) :
    l.length ≤ (l.flatMap f).length := by
  induction l with
  | nil => simp
  | cons x l ih =>
    have hx := List.length_pos_iff.2 (hf x)
    rw [List.flatMap_cons, List.length_append, List.length_cons]
    omega

theorem value_brace (levels : Nat) (s : Text) :
    value (levels + 1) ('{' :: s) = inlineTable (value levels) s := by
  rw [value.eq_def]
  simp

theorem inlineTable_of_entries {value : Reader Value} {s rest : Text} {es : List (Key × Value)}
    {t : Table} (hbrace : (skipGap s).head? ≠ some '}')
    (hes : inlineEntries value (skipGap s).length (skipGap s) = some (es, rest))
    (ht : es.foldlM (fun t (k, v) => t.addEntry k.path k.last v) ⟨.inline, []⟩ = some t) :
    inlineTable value s = some (t.toValue, rest) := by
  unfold inlineTable
  dsimp only
  split
  · next hclose => exact absurd (congrArg List.head? hclose) hbrace
  · rw [hes]
    simp [ht]

theorem value_writeTable (levels : Nat) {es : List (Text × Text)} (hkeys : (es.map Prod.fst).Nodup)
    (rest : Text) :
    value (levels + 1) (writeTable es ++ rest) = some (.table .inline (texts es), rest) := by
  have hadd := foldlM_addEntry_texts (t := ⟨.inline, []⟩) (fun _ _ => rfl) hkeys
  cases es with
  | nil => exact value_brace levels ('}' :: rest)
  | cons e es =>
    let behind : Text :=
      writeText e ++ (es.flatMap (fun e => [',', ' '] ++ writeText e) ++ ' ' :: '}' :: rest)
    have hsplit : writeTable (e :: es) ++ rest = '{' :: ' ' :: behind := by
      simp [writeTable, behind]
    obtain ⟨c, t, hhead, hc⟩ := head_write ⟨[], e.1⟩
    have hbehind : behind = c :: (t ++ [' ', '=', ' '] ++ Quoted.write e.2 ++
        (es.flatMap (fun e => [',', ' '] ++ writeText e) ++ ' ' :: '}' :: rest)) := by
      simp [behind, writeText, writeEntry, hhead]
    have hgap : skipGap (' ' :: behind) = behind := by
      rw [hbehind]
      exact skipGap_cons (isGap_eq_false_of_isBare hc) _
    have hbrace : behind.head? ≠ some '}' := by
      rw [hbehind]
      intro h
      exact ne_of_isBare hc (by decide) (Option.some.inj h)
    have hlength : es.length < behind.length := by
      have := length_le_length_flatMap (fun e => List.cons_ne_nil ',' (' ' :: writeText e)) es
      simp only [behind, List.length_append, List.length_cons, List.cons_append,
        List.nil_append] at this ⊢
      omega
    have hentries := inlineEntries_writeText levels e es hlength rest
    rw [hsplit, value_brace]
    exact inlineTable_of_entries (hgap.symm ▸ hbrace) (hgap.symm ▸ hentries) hadd

/-- A line that is read as a statement, wherever it stands. -/
structure IsLine (st : Statement) (s : Text) : Prop where
  head : ∃ c t, s = c :: t ∧ isGap c = false ∧ c ∉ ['#', '\n', '\uFEFF']
  unbroken : '\r' ∉ s
  read : ∀ rest, statement (s ++ '\n' :: rest) = some (st, '\n' :: rest)

def writeHeader (k : Key) : Text := '[' :: k.write ++ [']']

theorem cr_notMem_writePart (part : Text) : '\r' ∉ writePart part := by
  unfold writePart
  split
  · next h =>
    intro hmem
    exact absurd (List.all_eq_true.1 h.2 _ hmem) (by decide)
  · exact Quoted.cr_notMem_write part

theorem cr_notMem_key (k : Key) : '\r' ∉ k.write := by
  simp [Key.write, cr_notMem_writePart]

theorem cr_notMem_writeTable (es : List (Text × Text)) : '\r' ∉ writeTable es := by
  cases es <;> simp [writeTable, writeText, writeEntry, cr_notMem_key, Quoted.cr_notMem_write]

theorem isLine_entry {k : Key} (hbound : k.path.length < nestingBound - 1) {s : Text} {v : Value}
    (hunbroken : '\r' ∉ s) (hgap : ∀ rest, skipGap (s ++ '\n' :: rest) = s ++ '\n' :: rest)
    (hvalue : ∀ rest, value (nestingBound - 1) (s ++ '\n' :: rest) = some (v, '\n' :: rest)) :
    IsLine (.entry k v) (writeEntry k s) := by
  obtain ⟨c, t, hk, hc⟩ := head_write k
  refine ⟨⟨c, t ++ [' ', '=', ' '] ++ s, ?_, isGap_eq_false_of_isBare hc, ?_⟩, ?_, fun rest => ?_⟩
  · simp [writeEntry, hk]
  · intro hmem
    simp only [List.mem_cons, List.not_mem_nil, or_false] at hmem
    rcases hmem with h | h | h <;> exact ne_of_isBare hc (by decide) h
  · simp [writeEntry, cr_notMem_key, hunbroken]
  · have hentry := entry_writeEntry hbound (hgap rest) (hvalue rest)
    unfold statement
    split
    · next h =>
      rw [writeEntry, hk] at h
      exact absurd (List.cons.inj h).1 (ne_of_isBare hc (by decide))
    · rw [hentry]
      rfl

theorem isLine_header {k : Key} (hbound : k.path.length < nestingBound - 1) :
    IsLine (.header k) (writeHeader k) := by
  obtain ⟨c, t, hk, hc⟩ := head_write k
  refine ⟨⟨'[', k.write ++ [']'], rfl, by decide, by decide⟩, ?_, fun rest => ?_⟩
  · simp [writeHeader, cr_notMem_key]
  · have hsplit : writeHeader k ++ '\n' :: rest = '[' :: (k.write ++ ']' :: '\n' :: rest) := by
      simp [writeHeader]
    have hclose : skipGap (']' :: '\n' :: rest) = ']' :: '\n' :: rest := rfl
    have hkey : key (k.write ++ ']' :: '\n' :: rest) = some (k, ']' :: '\n' :: rest) :=
      key_write hbound (by simp; decide) (by simp [hclose])
    rw [hsplit, statement]
    unfold header
    split
    · next h =>
      rw [hk] at h
      exact absurd (List.cons.inj (List.cons.inj h).2).1 (ne_of_isBare hc (by decide))
    · next h =>
      cases h
      rw [hkey]
      rfl
    · next h => exact absurd rfl (h _)

theorem statements_lines {ls : List (Statement × Text)} (h : ∀ l ∈ ls, IsLine l.1 l.2) {bound : Nat}
    (hbound : ls.length < bound) :
    statements bound (ls.flatMap fun l => l.2 ++ ['\n']) = some (ls.map Prod.fst) := by
  induction ls generalizing bound with
  | nil =>
    obtain ⟨bound, rfl⟩ := Nat.exists_eq_add_one_of_ne_zero (Nat.ne_zero_of_lt hbound)
    rfl
  | cons l ls ih =>
    obtain ⟨bound, rfl⟩ := Nat.exists_eq_add_one_of_ne_zero (Nat.ne_zero_of_lt hbound)
    obtain ⟨hl, hls⟩ := List.forall_mem_cons.1 h
    obtain ⟨c, t, hhead, hgap, hmark⟩ := hl.head
    simp only [List.mem_cons, List.not_mem_nil, or_false, not_or] at hmark
    have hstatement := hl.read (ls.flatMap fun l => l.2 ++ ['\n'])
    have hend (s : Text) : endLine ('\n' :: s) = some s := rfl
    have hsplit : (l :: ls).flatMap (fun l => l.2 ++ ['\n']) =
        l.2 ++ '\n' :: ls.flatMap fun l => l.2 ++ ['\n'] := by simp
    rw [hsplit]
    rw [hhead, List.cons_append] at hstatement ⊢
    rw [statements, skipGap_cons hgap]
    simp only [hmark, or_self, if_false, hstatement, hend, Option.bind_eq_bind, Option.bind_some,
      ih hls (Nat.lt_of_succ_lt_succ hbound)]
    rfl

theorem unifyLines_eq_self {s : Text} (h : '\r' ∉ s) : unifyLines s = s := by
  induction s with
  | nil => rfl
  | cons c s ih =>
    rw [List.mem_cons, not_or] at h
    unfold unifyLines
    split
    · next heq => exact absurd (List.cons.inj heq).1.symm h.1
    · next heq =>
      cases heq
      rw [ih h.2]
    · next heq => cases heq

theorem read_of_unbroken {s : Text} (hmark : s.head? ≠ some '\uFEFF') (hunbroken : '\r' ∉ s) :
    Toml.read s =
      ((statements (s.length + 1) s).bind Document.ofStatements).map (·.root.entries) := by
  have hskip : Document.skipMark s = s := by
    unfold Document.skipMark
    split
    · exact absurd rfl hmark
    · rfl
  unfold Toml.read
  dsimp only
  rw [hskip, unifyLines_eq_self hunbroken]
  cases statements (s.length + 1) s with
  | none => rfl
  | some sts => exact (Option.map_eq_bind ..).symm

/-- A file of such lines is read as their statements. -/
theorem read_lines {ls : List (Statement × Text)} (h : ∀ l ∈ ls, IsLine l.1 l.2) :
    Toml.read (ls.flatMap fun l => l.2 ++ ['\n']) =
      (Document.ofStatements (ls.map Prod.fst)).map (·.root.entries) := by
  have hmark : (ls.flatMap fun l => l.2 ++ ['\n']).head? ≠ some '\uFEFF' := by
    cases ls with
    | nil => simp
    | cons l ls =>
      obtain ⟨c, t, hhead, -, hc⟩ := (h l List.mem_cons_self).head
      simp only [List.mem_cons, List.not_mem_nil, or_false, not_or] at hc
      simp [hhead, hc]
  have hunbroken : '\r' ∉ ls.flatMap fun l => l.2 ++ ['\n'] := by
    intro hmem
    obtain ⟨l, hl, hmem⟩ := List.mem_flatMap.1 hmem
    simp [(h l hl).unbroken] at hmem
  have hlength := length_le_length_flatMap (f := fun l : Statement × Text => l.2 ++ ['\n'])
    (by simp) ls
  rw [read_of_unbroken hmark hunbroken, statements_lines h (Nat.lt_succ_of_le hlength),
    Option.bind_some]

end HandlebarsToTwig.Toml
