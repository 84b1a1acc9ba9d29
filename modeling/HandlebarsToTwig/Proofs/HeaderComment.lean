import HandlebarsToTwig.Command.Arguments
import HandlebarsToTwig.Header
import HandlebarsToTwig.Proofs.Text

/-! The header of a component as a comment of the emitted template. The values of a header are
written into the comment as they are, so the comment ends in its own last line exactly if none of
them holds the mark that ends a comment. -/
namespace HandlebarsToTwig.Header

/-- The mark that ends a comment. -/
def commentEnd : Text := ['#', '}']

/-- What a header says: its title and the values of its fields. -/
def values (h : Header) : List Text := h.title :: h.fields.map Prod.snd

def fieldLine (field : Text × Text) : Text :=
  "  * @".toList ++ field.1 ++ ' ' :: field.2 ++ ['\n']

/-- The docblock without its last line. -/
def upperLines (h : Header) : Text :=
  ['{', '#'] ++ " @file\n".toList ++ "  * This is a component template for the ".toList ++
    h.title ++ " component\n".toList ++ h.fields.flatMap fieldLine

/-- The beginning of the last line, up to the mark. -/
def lastLine : Text := "  * ".toList

theorem docblock_eq (h : Header) :
    h.docblock = h.upperLines ++ lastLine ++ commentEnd ++ ['\n'] := by
  rw [List.append_assoc _ commentEnd]
  rfl

theorem fieldLine_eq (field : Text × Text) :
    fieldLine field = ("  * @".toList ++ field.1 ++ [' ']) ++ (field.2 ++ ['\n']) := by
  rw [← List.append_assoc, List.append_assoc _ [' '] field.2]
  rfl

theorem head?_fieldLines (fields : List (Text × Text)) :
    (fields.flatMap fieldLine).head? ≠ some '}' := by
  cases fields with
  | nil => simp
  | cons field fields =>
    have hfirst : (fieldLine field).head? = some ' ' := rfl
    simp [List.head?_append, hfirst]

theorem getLast?_upperLines (h : Header) : h.upperLines.getLast? = some '\n' := by
  unfold upperLines
  rcases List.eq_nil_or_concat h.fields with hnil | ⟨fields, field, hlast⟩
  · rw [hnil, List.flatMap_nil, List.append_nil, List.getLast?_append]
    rfl
  · rw [hlast, List.concat_eq_append, List.flatMap_append, List.flatMap_singleton, fieldLine_eq,
      ← List.append_assoc, ← List.append_assoc, ← List.append_assoc, List.getLast?_concat]

theorem label_plain {h : Header} {field : Text × Text} (hf : field ∈ h.fields) : '#' ∉ field.1 := by
  simp only [fields, List.mem_filterMap, Option.map_eq_some_iff] at hf
  obtain ⟨⟨label, value⟩, hmem, v, -, rfl⟩ := hf
  simp only [List.mem_cons, Prod.mk.injEq, List.not_mem_nil, or_false] at hmem
  rcases hmem with ⟨rfl, -⟩ | ⟨rfl, -⟩ | ⟨rfl, -⟩ | ⟨rfl, -⟩ <;> simp

theorem commentEnd_not_infix {s : Text} (h : '#' ∉ s) : ¬ commentEnd <:+: s := by
  intro hs
  exact h (hs.subset (by simp [commentEnd]))

/-- Text without a number sign holds no mark, and none begins in it. -/
theorem commentEnd_infix_append_of_notMem {s : Text} (h : '#' ∉ s) (t : Text) :
    commentEnd <:+: s ++ t ↔ commentEnd <:+: t := by
  induction s with
  | nil => rfl
  | cons c s ih =>
    obtain ⟨hc, hs⟩ := not_or.1 (mt List.mem_cons.2 h)
    have hp : ¬ commentEnd <+: c :: (s ++ t) := by simp [commentEnd, List.cons_prefix_cons, hc]
    rw [List.cons_append, List.infix_cons_iff, ih hs, or_iff_right hp]

/-- What is written behind a value does not begin with a brace, so the mark does not reach there. -/
theorem commentEnd_infix_append {t : Text} (ht : t.head? ≠ some '}') (value : Text) :
    commentEnd <:+: value ++ t ↔ commentEnd <:+: value ∨ commentEnd <:+: t :=
  Text.pair_infix_append ht value

/-- In the line of a field, the mark can only stand in the value. -/
theorem commentEnd_infix_fieldLine {field : Text × Text} (hlabel : '#' ∉ field.1) :
    commentEnd <:+: fieldLine field ↔ commentEnd <:+: field.2 := by
  have hfront : '#' ∉ "  * @".toList ++ field.1 ++ [' '] := by simp [hlabel]
  have hend : ¬ commentEnd <:+: ['\n'] := commentEnd_not_infix (by decide)
  rw [fieldLine_eq, commentEnd_infix_append_of_notMem hfront, commentEnd_infix_append (by decide),
    or_iff_left hend]

theorem commentEnd_infix_fieldLines {fields : List (Text × Text)}
    (hlabels : ∀ field ∈ fields, '#' ∉ field.1) :
    commentEnd <:+: fields.flatMap fieldLine ↔ ∃ v ∈ fields.map Prod.snd, commentEnd <:+: v := by
  induction fields with
  | nil => simp [commentEnd]
  | cons field fields ih =>
    obtain ⟨hlabel, hlabels⟩ := List.forall_mem_cons.1 hlabels
    rw [List.flatMap_cons, commentEnd_infix_append (head?_fieldLines fields),
      commentEnd_infix_fieldLine hlabel, ih hlabels, List.map_cons, List.exists_mem_cons_iff]

/-- In front of its last line, a docblock holds the mark exactly if one of the values does. -/
theorem commentEnd_infix_upperLines (h : Header) :
    commentEnd <:+: h.upperLines ↔ ∃ v ∈ h.values, commentEnd <:+: v := by
  let front : Text := " @file\n".toList ++ "  * This is a component template for the ".toList
  let behind : Text := " component\n".toList
  have hsplit : h.upperLines =
      ['{', '#'] ++ (front ++ (h.title ++ (behind ++ h.fields.flatMap fieldLine))) := by
    simp only [upperLines, front, behind, List.append_assoc]
  have hopening : ¬ commentEnd <:+: ['{', '#'] := by decide
  have hfront : '#' ∉ front := by decide
  have hbehind : ¬ commentEnd <:+: behind := commentEnd_not_infix (by decide)
  have hfirst (s : Text) : (front ++ s).head? ≠ some '}' := by simp [front]
  have hnext (s : Text) : (behind ++ s).head? ≠ some '}' := by simp [behind]
  rw [hsplit, commentEnd_infix_append (hfirst _), or_iff_right hopening,
    commentEnd_infix_append_of_notMem hfront, commentEnd_infix_append (hnext _),
    commentEnd_infix_append (head?_fieldLines _), or_iff_right hbehind,
    commentEnd_infix_fieldLines fun _ => label_plain, values, List.exists_mem_cons_iff]

theorem document_eq (h : Header) (body : Text) :
    h.document body = h.upperLines ++ lastLine ++ commentEnd ++ '\n' :: body := by
  rw [document, docblock_eq, List.append_assoc _ ['\n'] body]
  rfl

/-- The last line holds no mark in front of its own. -/
theorem commentEnd_infix_lastLine (s : Text) :
    commentEnd <:+: s ++ lastLine ++ commentEnd.dropLast ↔ commentEnd <:+: s := by
  have hlast : ¬ commentEnd <:+: lastLine ++ commentEnd.dropLast := by decide
  have hnext : (lastLine ++ commentEnd.dropLast).head? ≠ some '}' := by decide
  rw [List.append_assoc, commentEnd_infix_append hnext, or_iff_left hlast]

/-- Where the comment at the top of a component ends, for every header and every body. The component
begins with the mark that opens a comment, and its docblock ends in a line that holds nothing but
the mark that ends one; the body follows that line. If no value of the header holds this mark, the
first one of the component is that of the last line, and this is so only then. Otherwise the comment
ends inside of the lines above, and what is left of them stands outside. -/
theorem document_closed_iff (h : Header) (body : Text) :
    (['{', '#'] <+: h.document body ∧
      h.docblock = h.upperLines ++ lastLine ++ commentEnd ++ ['\n'] ∧
      h.upperLines.getLast? = some '\n') ∧
    (Text.cut? commentEnd (h.document body) = some (h.upperLines ++ lastLine, '\n' :: body) ↔
      ∀ v ∈ h.values, ¬ commentEnd <:+: v) ∧
    ((∃ v ∈ h.values, commentEnd <:+: v) →
      ∃ inside outside, h.upperLines = inside ++ commentEnd ++ outside ∧
        Text.cut? commentEnd (h.document body) =
          some (inside, outside ++ lastLine ++ commentEnd ++ '\n' :: body)) := by
  have hmark : commentEnd ≠ [] := by decide
  refine ⟨⟨?_, docblock_eq h, getLast?_upperLines h⟩, ?_, fun hheld => ?_⟩
  · rw [document_eq]
    simp only [upperLines, List.append_assoc]
    exact List.prefix_append _ _
  · rw [Text.cut?_eq_some hmark, commentEnd_infix_lastLine, commentEnd_infix_upperLines]
    simp [document_eq]
  · have hupper := (commentEnd_infix_upperLines h).2 hheld
    obtain ⟨⟨inside, outside⟩, hcut⟩ :=
      Option.ne_none_iff_exists'.1 (mt Text.cut?_eq_none.1 (not_not.2 hupper))
    refine ⟨inside, outside, Text.eq_append_of_cut? hcut, ?_⟩
    rw [document_eq, List.append_assoc, List.append_assoc, Text.cut?_append hmark hcut]
    simp only [List.append_assoc]

/-- Values that hold half of the mark at either end, and a line end, in front of a body that begins
with the mark. -/
theorem document_closed_iff_borders :
    let header : Header :=
      { title := "Hero #".toList, see := some "\x7d#".toList, author := some "# \x7d\n".toList }
    let body : Text := commentEnd ++ "<h1></h1>".toList
    (∀ v ∈ header.values, ¬ commentEnd <:+: v) ∧
    Text.cut? commentEnd (header.document body) =
      some (header.upperLines ++ lastLine, '\n' :: body) := by
  intro header body
  have hfree : ∀ v ∈ header.values, ¬ commentEnd <:+: v := by decide +kernel
  exact ⟨hfree, (document_closed_iff header body).2.1.2 hfree⟩

/-- A title that the command line admits and that holds the mark: the comment ends in it, and the
rest of the title is no longer part of a comment. -/
theorem document_cut_short :
    let header : Header := { title := "Hero #\x7d<b>now</b>".toList }
    let body : Text := "<h1></h1>".toList
    let job : Command.Transpilation := ⟨['-'], false, none, none, some header⟩
    Command.Request.ofArguments {} ["transpile".toList, "--title".toList, header.title, ['-']] =
      .ok (.transpile job) ∧
    Text.cut? commentEnd (header.document body) =
      some ("\x7b# @file\n  * This is a component template for the Hero ".toList,
        "<b>now</b> component\n".toList ++ lastLine ++ commentEnd ++ '\n' :: body) := by
  decide +kernel

end HandlebarsToTwig.Header
