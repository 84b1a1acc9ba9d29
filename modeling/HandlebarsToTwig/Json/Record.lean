import HandlebarsToTwig.Json.Skip

/-! Lists, and records with named fields. A record is written as an object, or as a list of its
fields in order. Where the readers for the inside are none, nesting has reached its limit. -/
namespace HandlebarsToTwig.Json

/-- The text at the next item of a list, or none in front of the closing mark. -/
def nextItem (first : Bool) (s : Text) : Except Fault (Option Text) :=
  match skipGap s with
  | [] => .error .cutShort
  | c :: s =>
    if c = ']' then .ok none
    else if first then .ok (some (c :: s))
    else if c = ',' then
      match skipGap s with
      | [] => .error .cutShort
      | ']' :: _ => .error .malformed
      | s => .ok (some s)
    else .error .malformed

/-- The items up to the closing mark; `bound` exceeds their number. -/
def items {α : Type} (item : Reader α) : (bound : Nat) → (first : Bool) → Reader (List α)
  | 0, _, _ => .error .malformed
  | bound + 1, first, s => do
    match ← nextItem first s with
    | none => pure ([], s)
    | some s =>
      let (a, s) ← item s
      let (as, s) ← items item bound false s
      pure (a :: as, s)

def list {α : Type} (item : Option (Reader α)) : Reader (List α) := fun s =>
  match skipGap s with
  | '[' :: s =>
    match item with
    | none => .error .malformed
    | some item => do
      let (as, s) ← items item (s.length + 1) true s
      pure (as, ← expectMark ']' s)
  | s => .error (mismatch s)

/-- A field of a record that is being collected in `σ`. -/
structure Slot (σ : Type) where
  name : Text
  filled : σ → Bool
  fill : σ → Reader σ
  /-- Whether a list may end before this field. -/
  optional : Bool

def Slot.of {σ α : Type} (name : Text) (get : σ → Option α) (set : σ → α → σ) (read : Reader α)
    (optional : Bool) : Slot σ where
  name := name
  filled := fun draft => (get draft).isSome
  fill := fun draft s => (read s).map fun (a, s) => (set draft a, s)
  optional := optional

/-- The fields of a record in order, up to the closing mark of the list. -/
def byPosition {σ : Type} : List (Slot σ) → (first : Bool) → σ → Reader σ
  | [], _, draft, s => .ok (draft, s)
  | slot :: slots, first, draft, s => do
    match ← nextItem first s with
    | none => if (slot :: slots).all Slot.optional then pure (draft, s) else throw .wrongShape
    | some s =>
      let (draft, s) ← slot.fill draft s
      byPosition slots false draft s

/-- The text behind the quote that opens the next key, or none in front of the closing mark. -/
def nextKey (first : Bool) (s : Text) : Except Fault (Option Text) :=
  match skipGap s with
  | [] => .error .cutShort
  | c :: s =>
    if c = '}' then .ok none
    else if first then (expect ['"'] (c :: s)).map some
    else if c = ',' then (expectMark '"' s).map some
    else .error .malformed

/-- The fields of a record by name, up to the closing mark of the object. A field may come once. A
`strict` record has no other keys, in others they are skipped. `bound` exceeds the number of keys. -/
def byName {σ : Type} (slots : List (Slot σ)) (strict : Bool) :
    (bound : Nat) → (first : Bool) → σ → Reader σ
  | 0, _, _, _ => .error .malformed
  | bound + 1, first, draft, s => do
    match ← nextKey first s with
    | none => pure (draft, s)
    | some s =>
      let (key, s) ← Quoted.read s
      match slots.find? (·.name = key) with
      | some slot =>
        if slot.filled draft then throw .wrongShape
        let (draft, s) ← slot.fill draft (← expectMark ':' s)
        byName slots strict bound false draft s
      | none =>
        if strict then throw .wrongShape
        byName slots strict bound false draft (← skipValue (← expectMark ':' s))

/-- A record, collected from an empty draft and then completed. -/
def record {σ ρ : Type} (slots : Option (List (Slot σ))) (strict : Bool) (empty : σ)
    (complete : σ → Option ρ) : Reader ρ := fun s =>
  let finish (closer : Char) (draft : σ) (s : Text) : Except Fault (ρ × Text) := do
    match complete draft with
    | some r => pure (r, ← expectMark closer s)
    | none => throw .wrongShape
  match skipGap s, slots with
  | '[' :: _, none => .error .malformed
  | '{' :: _, none => .error .malformed
  | '[' :: s, some slots => do
    let (draft, s) ← byPosition slots true empty s
    finish ']' draft s
  | '{' :: s, some slots => do
    let (draft, s) ← byName slots strict (s.length + 1) true empty s
    finish '}' draft s
  | s, _ => .error (mismatch s)

end HandlebarsToTwig.Json
