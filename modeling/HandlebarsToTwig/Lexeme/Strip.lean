import HandlebarsToTwig.Lexeme.Scan

/-! Whitespace control: a `~` on either side of a tag drops the blanks of the text next to it, and
a text that loses everything disappears. -/
namespace HandlebarsToTwig.Lexeme

/-- Drops the blanks at the end of the newest lexeme, if it is text; `kept` is newest first. -/
def trimNewest : (kept : List Lexeme) → List Lexeme
  | ⟨.text value, offset, before, after⟩ :: kept =>
    let value := Text.trimEnd value
    if value.isEmpty then kept else ⟨.text value, offset, before, after⟩ :: kept
  | kept => kept

/-- Goes through the lexemes from left to right. `kept` holds those already settled, newest first;
`stripNext` says that the tag just passed drops the blanks after it. -/
def settle (kept : List Lexeme) (stripNext : Bool) : List Lexeme → List Lexeme
  | [] => kept.reverse
  | l :: ls =>
    match l.token with
    | .text value =>
      let value := if stripNext then Text.trimStart value else value
      settle (if value.isEmpty then kept else { l with token := .text value } :: kept) false ls
    | _ => settle (l :: if l.stripBefore then trimNewest kept else kept) l.stripAfter ls

/-- All lexemes of a template after whitespace control, or the first fault in it. -/
def ofSource (source : Text) : Except Error (List Lexeme) :=
  (Cursor.start source).lexemes.map (settle [] false)

end HandlebarsToTwig.Lexeme
