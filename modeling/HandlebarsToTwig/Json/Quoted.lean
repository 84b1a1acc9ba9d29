import HandlebarsToTwig.Json.Reader
import HandlebarsToTwig.Text.Digit

/-! Quoted strings: reading, skipping and writing. -/
namespace HandlebarsToTwig.Json.Quoted

/-- Four hexadecimal digits. They are looked for in the next four bytes, and a text with fewer
bytes than that is cut short. -/
def hex4 (s : Text) : Except Fault (Nat × Text) :=
  let digits : Text := s.take 4
  if digits.byteSize < 4 then .error .cutShort
  else if digits.all (Text.isDigit 16) then .ok (Text.value 16 digits, s.drop 4)
  else .error .malformed

def isLeading (n : Nat) : Bool := 0xD800 ≤ n && n ≤ 0xDBFF

def isTrailing (n : Nat) : Bool := 0xDC00 ≤ n && n ≤ 0xDFFF

/-- The character for the code unit `n`. A leading surrogate takes the trailing one from the escape
that must follow. -/
def codePoint (n : Nat) (s : Text) : Except Fault (Char × Text) :=
  if isTrailing n then .error .malformed
  else if isLeading n then do
    let (m, s) ← hex4 (← expect ['\\', 'u'] s)
    if isTrailing m then pure (Char.ofNat (0x10000 + (n - 0xD800) * 0x400 + (m - 0xDC00)), s)
    else throw .malformed
  else .ok (Char.ofNat n, s)

/-- The escapes of one letter. -/
def shortEscapes : List (Char × Char) :=
  [('"', '"'), ('\\', '\\'), ('/', '/'), ('b', '\x08'), ('f', '\x0c'), ('n', '\n'), ('r', '\r'),
    ('t', '\t')]

/-- An escape, after its backslash. In a string that is only skipped, surrogates need no partner
and the character does not matter. -/
def escape (skipped : Bool) : Text → Except Fault (Char × Text)
  | [] => .error .cutShort
  | 'u' :: s => do
    let (n, s) ← hex4 s
    if skipped then pure ('\uFFFD', s) else codePoint n s
  | c :: s =>
    match shortEscapes.lookup c with
    | some d => .ok (d, s)
    | none => .error .malformed

/-- The next character of a string, or none after the closing quote. -/
def unit (skipped : Bool) : Text → Except Fault (Option Char × Text)
  | [] => .error .cutShort
  | '"' :: s => .ok (none, s)
  | '\\' :: s => (escape skipped s).map fun (c, s) => (some c, s)
  | c :: s => if c.toNat < 0x20 then .error .malformed else .ok (some c, s)

theorem hex4_le {s r : Text} {n : Nat} (h : hex4 s = .ok (n, r)) : r.length ≤ s.length := by
  simp only [hex4] at h
  split at h
  · simp at h
  · split at h
    · simp only [Except.ok.injEq, Prod.mk.injEq] at h
      simp [← h.2]
    · simp at h

theorem expect_le {word s r : Text} (h : expect word s = .ok r) : r.length ≤ s.length := by
  induction word generalizing s with
  | nil => simp_all [expect]
  | cons w word ih =>
    cases s with
    | nil => simp [expect] at h
    | cons c s =>
      simp only [expect] at h
      split at h
      · exact Nat.le_succ_of_le (ih h)
      · simp at h

theorem codePoint_le {n : Nat} {s r : Text} {c : Char} (h : codePoint n s = .ok (c, r)) :
    r.length ≤ s.length := by
  unfold codePoint at h
  split at h
  · simp at h
  · split at h
    · cases he : expect ['\\', 'u'] s with
      | error e => simp [he, bind, Except.bind] at h
      | ok t =>
        cases hx : hex4 t with
        | error e => simp [he, hx, bind, Except.bind] at h
        | ok p =>
          simp only [he, hx, bind, Except.bind] at h
          split at h
          · simp only [pure, Except.pure, Except.ok.injEq, Prod.mk.injEq] at h
            rw [← h.2]
            exact Nat.le_trans (hex4_le hx) (expect_le he)
          · simp [throw, throwThe, MonadExceptOf.throw] at h
    · simp only [Except.ok.injEq, Prod.mk.injEq] at h
      simp [h.2]

theorem escape_le {skipped : Bool} {s r : Text} {c : Char} (h : escape skipped s = .ok (c, r)) :
    r.length ≤ s.length := by
  unfold escape at h
  split at h
  · simp at h
  · next s =>
    cases hx : hex4 s with
    | error e => simp [hx, bind, Except.bind] at h
    | ok p =>
      simp only [hx, bind, Except.bind] at h
      split at h
      · simp only [pure, Except.pure, Except.ok.injEq, Prod.mk.injEq] at h
        exact Nat.le_succ_of_le (h.2 ▸ hex4_le hx)
      · exact Nat.le_succ_of_le (Nat.le_trans (codePoint_le h) (hex4_le hx))
  · split at h
    · simp only [Except.ok.injEq, Prod.mk.injEq] at h
      simp [← h.2]
    · simp at h

/-- Every step through a string consumes something. -/
theorem unit_lt {skipped : Bool} {s r : Text} {c : Option Char}
    (h : unit skipped s = .ok (c, r)) : r.length < s.length := by
  unfold unit at h
  split at h
  · simp at h
  · simp only [Except.ok.injEq, Prod.mk.injEq] at h
    simp [← h.2]
  · next s =>
    cases he : escape skipped s with
    | error e => simp [he, Except.map] at h
    | ok p =>
      simp only [he, Except.map, Except.ok.injEq, Prod.mk.injEq] at h
      exact Nat.lt_succ_of_le (h.2 ▸ escape_le he)
  · split at h
    · simp at h
    · simp only [Except.ok.injEq, Prod.mk.injEq] at h
      simp [← h.2]

/-- The characters of a string, after its opening quote. -/
def body (skipped : Bool) (s : Text) : Except Fault (Text × Text) :=
  match _h : unit skipped s with
  | .error e => .error e
  | .ok (none, r) => .ok ([], r)
  | .ok (some c, r) => (body skipped r).map fun (t, r) => (c :: t, r)
termination_by s.length
decreasing_by exact unit_lt _h

theorem body_eq (skipped : Bool) (s : Text) :
    body skipped s =
      match unit skipped s with
      | .error e => .error e
      | .ok (none, r) => .ok ([], r)
      | .ok (some c, r) => (body skipped r).map fun (t, r) => (c :: t, r) := by
  rw [body]
  split <;> simp_all

def read (s : Text) : Except Fault (Text × Text) := body false s

def skip (s : Text) : Except Fault Text := (body true s).map Prod.snd

/-- A character as it is written between quotes. -/
def encodeChar (c : Char) : Text :=
  if c = '"' then ['\\', '"']
  else if c = '\\' then ['\\', '\\']
  else if c = '\x08' then ['\\', 'b']
  else if c = '\x0c' then ['\\', 'f']
  else if c = '\n' then ['\\', 'n']
  else if c = '\r' then ['\\', 'r']
  else if c = '\t' then ['\\', 't']
  else if c.toNat < 0x20 then
    ['\\', 'u', '0', '0', Nat.digitChar (c.toNat / 16), Nat.digitChar (c.toNat % 16)]
  else [c]

def write (s : Text) : Text := '"' :: s.flatMap encodeChar ++ ['"']

end HandlebarsToTwig.Json.Quoted
