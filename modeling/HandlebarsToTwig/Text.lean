/-! Text as a list of characters: its size in UTF-8 bytes, and cutting it at a mark. -/
namespace HandlebarsToTwig

abbrev Text := List Char

namespace Text

/-- Length in UTF-8 bytes, the unit of every offset. -/
def byteSize : Text → Nat
  | [] => 0
  | c :: s => c.utf8Size + byteSize s

@[simp] theorem byteSize_nil : byteSize [] = 0 := rfl

@[simp] theorem byteSize_cons (c : Char) (s : Text) :
    byteSize (c :: s) = c.utf8Size + byteSize s := rfl

@[simp] theorem byteSize_append (s t : Text) :
    byteSize (s ++ t) = byteSize s + byteSize t := by
  induction s with
  | nil => simp
  | cons c s ih => simp [ih, Nat.add_assoc]

theorem byteSize_eq_utf8ByteSize (s : Text) : s.byteSize = (String.ofList s).utf8ByteSize := by
  induction s with
  | nil => rfl
  | cons c s ih =>
    rw [String.ofList_cons]
    simp [ih]

/-- What follows `mark`, when the text begins with it. -/
def after? : (mark s : Text) → Option Text
  | [], s => some s
  | _ :: _, [] => none
  | m :: mark, c :: s => if m = c then after? mark s else none

theorem after?_eq_some {mark s t : Text} : after? mark s = some t ↔ s = mark ++ t := by
  induction mark generalizing s with
  | nil => simp [after?]
  | cons m mark ih =>
    cases s with
    | nil => simp [after?]
    | cons c s =>
      by_cases h : m = c
      · simp [after?, h, ih]
      · simp [after?, h, Ne.symm h]

/-- The text before and after the first place where `mark` stands. -/
def cut? (mark : Text) : Text → Option (Text × Text)
  | [] => (after? mark []).map ([], ·)
  | c :: s =>
    match after? mark (c :: s) with
    | some rest => some ([], rest)
    | none => (cut? mark s).map fun (before, rest) => (c :: before, rest)

theorem eq_append_of_cut? {mark s before rest : Text}
    (h : cut? mark s = some (before, rest)) : s = before ++ mark ++ rest := by
  induction s generalizing before with
  | nil =>
    obtain ⟨t, ht, he⟩ := Option.map_eq_some_iff.1 h
    obtain ⟨rfl, rfl⟩ := Prod.mk.inj he
    simpa using after?_eq_some.1 ht
  | cons c s ih =>
    simp only [cut?] at h
    split at h
    · next t ht =>
      obtain ⟨rfl, rfl⟩ := Prod.mk.inj (Option.some.inj h)
      simpa using after?_eq_some.1 ht
    · obtain ⟨⟨b, r⟩, hc, he⟩ := Option.map_eq_some_iff.1 h
      obtain ⟨rfl, rfl⟩ := Prod.mk.inj he
      simp [ih hc]

/-- Text that says something; an empty one counts as absent. -/
def nonempty? (s : Text) : Option Text := if s.isEmpty then none else some s

/-- The pieces between the places where `mark` stands. There is one more of them than marks. -/
def pieces (mark : Char) : Text → List Text
  | [] => [[]]
  | c :: s =>
    match pieces mark s with
    | [] => [[]]
    | piece :: rest => if c = mark then [] :: piece :: rest else (c :: piece) :: rest

end Text

end HandlebarsToTwig
