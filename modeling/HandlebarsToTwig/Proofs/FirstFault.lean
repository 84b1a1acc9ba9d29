import HandlebarsToTwig.Proofs.Grammar

/-! The first fault in reading order. A pass over the lexemes from left to right keeps the open
blocks on a stack and builds no tree; it stops at the first lexeme that cannot stand where it does.
The parser descends into every block, and reports the same fault. -/
namespace HandlebarsToTwig

/-- The blocks whose closing tags have not come yet, innermost first. -/
abbrev OpenBlocks := List Enclosing

namespace OpenBlocks

def knownHelpers : List Text := ["if".toList, "unless".toList, "each".toList]

/-- What one lexeme does to the open blocks, of which there may be at most `limit`. A helper is
looked up before the limit is. -/
def step (limit : Nat) (opened : OpenBlocks) (l : Lexeme) : Except Error OpenBlocks :=
  match l.token.unsupported?, l.token with
  | some kind, _ => .error (.unsupported kind)
  | none, .opening helper _ =>
    if helper ∉ knownHelpers then .error (.unsupported helper)
    else if limit ≤ opened.length then .error (.tooDeep limit)
    else .ok (⟨helper, l.offset⟩ :: opened)
  | none, .closing helper =>
    match opened with
    | [] => .error (.tag (.strayClose helper) l.offset)
    | e :: outer =>
      if e.helper = helper then .ok outer
      else .error (.tag (.mismatchedClose e.helper helper) l.offset)
  | none, _ => .ok opened

def run (limit : Nat) (opened : OpenBlocks) (ls : List Lexeme) : Except Error OpenBlocks :=
  ls.foldlM (step limit) opened

/-- At the end of the template no block may be open; the innermost one is reported. -/
def finish : OpenBlocks → Except Error Unit
  | [] => .ok ()
  | e :: _ => .error (.tag (.unclosedBlock e.helper) e.offset)

/-- The whole pass from where the blocks `opened` are open. -/
def check (limit : Nat) (opened : OpenBlocks) (ls : List Lexeme) : Except Error Unit :=
  run limit opened ls >>= finish

variable {limit : Nat} {opened : OpenBlocks}

theorem check_append (before after : List Lexeme) :
    check limit opened (before ++ after) =
      run limit opened before >>= fun next => check limit next after := by
  simp only [check, run, List.foldlM_append, bind_assoc]

theorem check_cons (l : Lexeme) (ls : List Lexeme) :
    check limit opened (l :: ls) = step limit opened l >>= fun next => check limit next ls := by
  simp only [check, run, List.foldlM_cons, bind_assoc]

theorem check_of_step {l : Lexeme} {next : OpenBlocks} (h : step limit opened l = .ok next)
    (ls : List Lexeme) : check limit opened (l :: ls) = check limit next ls := by
  rw [check_cons, h]
  rfl

theorem check_of_fault {l : Lexeme} {e : Error} (h : step limit opened l = .error e)
    (ls : List Lexeme) : check limit opened (l :: ls) = .error e := by
  rw [check_cons, h]
  rfl

theorem step_of_unsupported {l : Lexeme} {kind : Text} (h : l.token.unsupported? = some kind) :
    step limit opened l = .error (.unsupported kind) := by
  simp only [step, h]

theorem mem_knownHelpers {helper : Text} :
    helper ∈ knownHelpers ↔ (BlockKind.ofName? helper).isSome := by
  rw [Option.isSome_iff_exists]
  constructor
  · intro h
    simp only [knownHelpers, List.mem_cons, List.not_mem_nil, or_false] at h
    rcases h with h | h | h
    · exact ⟨.when, BlockKind.ofName?_eq_some.2 h⟩
    · exact ⟨.whenNot, BlockKind.ofName?_eq_some.2 h⟩
    · exact ⟨.each, BlockKind.ofName?_eq_some.2 h⟩
  · rintro ⟨kind, h⟩
    obtain rfl := BlockKind.ofName?_eq_some.1 h
    cases kind <;> decide

/-- The limit is looked at once the helper is known. -/
theorem step_of_known {l : Lexeme} {kind : BlockKind} {args : Option Text}
    (hl : l.token = .opening kind.name args) :
    step limit opened l =
      if limit ≤ opened.length then .error (.tooDeep limit)
      else .ok (⟨kind.name, l.offset⟩ :: opened) := by
  have hmem : kind.name ∈ knownHelpers :=
    mem_knownHelpers.2 (by simp [BlockKind.ofName?_eq_some.2 rfl])
  simp only [step, hl, Token.unsupported?, hmem, not_true, if_false]

/-- What the pass does after the body of the innermost open block has been read, or everything at
top level: it goes on behind the closing tag. -/
def resume (limit : Nat) (opened : OpenBlocks) (r : Reading) : Except Error Unit :=
  match r.result with
  | .error e => .error e
  | .ok _ =>
    match opened with
    | [] => .ok ()
    | _ :: outer => check limit outer r.rest

theorem resume_nil (r : Reading) : resume limit [] r = r.result.map fun _ => () := by
  obtain ⟨_ | _, _, _⟩ := r <;> rfl

theorem resume_prepend (ns : List Node) (r : Reading) :
    resume limit opened (r.prepend ns) = resume limit opened r := by
  obtain ⟨_ | _, _, _⟩ := r <;> rfl

/-- The pass and the parser agree on the body of the innermost open block, whether its reading fails
or ends with its closing tag. -/
theorem check_eq_resume (limit : Nat) (opened : OpenBlocks) (ls : List Lexeme) :
    check limit opened ls =
      resume limit opened (Reading.body limit opened.length opened.head? ls).1 := by
  -- The induction follows the parser. The stack varies: a body is read under one more open block
  -- than what comes behind it, and only its height and its top are known to the parser.
  generalize hd : opened.length = depth
  generalize he : opened.head? = enclosing
  induction depth, enclosing, ls using Reading.body_induction generalizing opened with
  | ended depth enclosing =>
    subst he
    cases opened <;> rfl
  | text depth enclosing l ls value r hl ih | reference depth enclosing l ls name r hl ih =>
    have hstep : step limit opened l = .ok opened := by simp only [step, hl, Token.unsupported?]
    rw [resume_prepend, check_of_step hstep, ih opened hd he]
  | unknownHelper depth enclosing l ls helper args hl hk =>
    refine check_of_fault ?_ ls
    simp [step, hl, Token.unsupported?, mem_knownHelpers, hk]
  | tooDeep depth enclosing l ls kind args hl hlimit =>
    subst hd
    exact check_of_fault ((step_of_known hl).trans (if_pos hlimit)) ls
  | failedBlock depth enclosing l ls kind args e rest hl hlimit ih =>
    subst hd
    have hstep := (step_of_known hl).trans (if_neg (Nat.not_le.2 hlimit))
    rw [check_of_step hstep, ih _ rfl rfl]
    rfl
  | block depth enclosing l ls kind args children rest r hl hlimit ihc ihn =>
    -- The pass goes through the body first, and then resumes where the parser does.
    subst hd
    have hstep := (step_of_known hl).trans (if_neg (Nat.not_le.2 hlimit))
    rw [resume_prepend, check_of_step hstep, ← ihn opened rfl he, ihc _ rfl rfl]
    rfl
  | closing depth enclosing l ls helper hl =>
    subst he
    cases opened with
    | nil => exact check_of_fault (by simp only [step, hl, Token.unsupported?]) ls
    | cons e outer =>
      by_cases h : e.helper = helper
      · have hstep : step limit (e :: outer) l = .ok outer := by
          simp only [step, hl, Token.unsupported?, h, if_true]
        rw [check_of_step hstep]
        simp [resume, Reading.atClose, h]
      · rw [check_of_fault (e := .tag (.mismatchedClose e.helper helper) l.offset)]
        · simp [resume, Reading.atClose, h]
        · simp only [step, hl, Token.unsupported?, h, if_false]
  | unsupported depth enclosing l ls kind hl => exact check_of_fault (step_of_unsupported hl) ls

/-- At top level the pass fails as the parser does, and passes when it does. -/
theorem check_eq_body (limit : Nat) (ls : List Lexeme) :
    check limit [] ls = (Reading.body limit 0 none ls).1.result.map fun _ => () := by
  rw [check_eq_resume]
  exact resume_nil _

end OpenBlocks

/-- The parser fails exactly as the lexer does, or as the pass over the lexemes does. -/
theorem Node.map_ofSource (source : Text) (limit : Nat) :
    ((Node.ofSource source limit).map fun _ => ()) =
      (Lexeme.ofSource source >>= OpenBlocks.check limit []) := by
  unfold Node.ofSource Parser.ofSource
  cases Lexeme.ofSource source with
  | error e => rfl
  | ok ls => exact (OpenBlocks.check_eq_body limit ls).symm

theorem Node.ofSource_eq_error_iff {source : Text} {limit : Nat} {e : Error} :
    Node.ofSource source limit = .error e ↔
      (Lexeme.ofSource source >>= OpenBlocks.check limit []) = .error e := by
  rw [← Node.map_ofSource]
  cases Node.ofSource source limit <;> simp [Except.map]

/-- A lexeme that cannot stand where it does decides the error, if none before it does. -/
theorem Node.ofSource_of_fault {source : Text} {limit : Nat} {before after : List Lexeme}
    {l : Lexeme} {opened : OpenBlocks} {e : Error}
    (hs : Lexeme.ofSource source = .ok (before ++ l :: after))
    (hrun : OpenBlocks.run limit [] before = .ok opened)
    (hstep : OpenBlocks.step limit opened l = .error e) : Node.ofSource source limit = .error e := by
  have hcheck : OpenBlocks.check limit [] (before ++ l :: after) = .error e := by
    rw [OpenBlocks.check_append, hrun]
    exact OpenBlocks.check_of_fault hstep after
  rw [Node.ofSource_eq_error_iff, hs]
  exact hcheck

/-- The fault that a parser reports is the first one in reading order, under every limit: a fault of
the lexer wherever it stands, else the one at which the pass over the lexemes stops. Where there is
none, the parser gives the tree that the lexemes are the tokens of. -/
theorem Node.ofSource_eq_first_fault (source : Text) (limit : Nat) :
    ((Node.ofSource source limit).map fun _ => ()) =
        (Lexeme.ofSource source >>= OpenBlocks.check limit []) ∧
      ∀ tree, Node.ofSource source limit = .ok tree →
        (Lexeme.ofSource source).map (List.map Lexeme.token) = .ok (Node.listTokens tree) := by
  refine ⟨Node.map_ofSource source limit, fun tree h => ?_⟩
  exact (Node.ofSource_eq_ok_iff_map.1 h).1

-- An unknown helper is named even where no block may be opened, and before the missing closing tag.
example : OpenBlocks.check 0 [] [⟨.opening "with".toList none, 0, false, false⟩] =
    .error (.unsupported "with".toList) := rfl

end HandlebarsToTwig
