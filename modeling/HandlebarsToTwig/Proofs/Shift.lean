import HandlebarsToTwig.Proofs.FirstFault
import HandlebarsToTwig.Proofs.WhitespaceControl

/-! Reading from a later offset. The offset of a cursor is copied into lexemes and faults and has no
other use, so a template that starts further on in a text gives the same lexemes, and the same first
fault, with their offsets shifted. -/
namespace HandlebarsToTwig

/-- The error of a template that starts `n` bytes further on. Only faults in tags have a place. -/
def Error.shift (n : Nat) : Error → Error
  | .tag fault offset => .tag fault (offset + n)
  | e => e

def Lexeme.shift (n : Nat) (l : Lexeme) : Lexeme := { l with offset := l.offset + n }

def Enclosing.shift (n : Nat) (e : Enclosing) : Enclosing := { e with offset := e.offset + n }

def Cursor.shift (n : Nat) (c : Cursor) : Cursor := { c with offset := c.offset + n }

/-- A result with the offsets of its fault shifted, and those in what was read. -/
def shifted {α : Type} (n : Nat) (shift : α → α) : Except Error α → Except Error α
  | .ok a => .ok (shift a)
  | .error e => .error (e.shift n)

variable {α : Type} {n : Nat}

@[simp] theorem shifted_ok (shift : α → α) (a : α) : shifted n shift (.ok a) = .ok (shift a) := rfl

@[simp] theorem shifted_error (shift : α → α) (e : Error) :
    shifted n shift (.error e) = .error (e.shift n) := rfl

namespace Cursor
open Lexeme

@[simp] theorem shift_rest (n : Nat) (c : Cursor) : (c.shift n).rest = c.rest := rfl

@[simp] theorem shift_offset (n : Nat) (c : Cursor) : (c.shift n).offset = c.offset + n := rfl

@[simp] theorem past_shift (n : Nat) (c : Cursor) (consumed rest : Text) :
    (c.shift n).past consumed rest = (c.past consumed rest).shift n := by
  simp only [past, shift, mk.injEq, and_true]
  omega

theorem comment_shift (n : Nat) (c : Cursor) :
    (c.shift n).comment = (shifted n (Lexeme.shift n) c.comment.1, c.comment.2.shift n) := by
  simp only [comment, shift_rest, shift_offset, past_shift]
  split
  · split <;> rfl
  · rfl

theorem enclosed_shift (n : Nat) (c : Cursor) (opener closer : Text)
    (classify : Text → Except TagFault Token) :
    (c.shift n).enclosed opener closer classify =
      (shifted n (Lexeme.shift n) (c.enclosed opener closer classify).1,
        (c.enclosed opener closer classify).2.shift n) := by
  simp only [enclosed, shift_rest, shift_offset, past_shift]
  split
  · rfl
  · split <;> rfl

theorem tag_shift (n : Nat) (c : Cursor) :
    (c.shift n).tag = (shifted n (Lexeme.shift n) c.tag.1, c.tag.2.shift n) := by
  simp only [tag, shift_rest, comment_shift, enclosed_shift]
  split
  · rfl
  · split <;> rfl

theorem next_shift (n : Nat) (c : Cursor) :
    (c.shift n).next =
      (shifted n (Option.map (Lexeme.shift n)) c.next.1, c.next.2.shift n) := by
  simp only [next, shift_rest, shift_offset, past_shift, tag_shift]
  split
  · rfl
  · split
    · cases c.tag.1 <;> rfl
    · rfl
    · rfl

theorem lexemes_shift (n : Nat) (c : Cursor) :
    (c.shift n).lexemes = shifted n (List.map (Lexeme.shift n)) c.lexemes := by
  fun_induction lexemes c with
  | case1 c e d hn =>
    rw [lexemes_eq, next_shift, hn]
    rfl
  | case2 c d hn =>
    rw [lexemes_eq, next_shift, hn]
    rfl
  | case3 c l d hn ih =>
    rw [lexemes_eq, next_shift, hn]
    simp only [shifted_ok, Option.map_some, ih]
    cases d.lexemes <;> rfl

end Cursor

namespace Lexeme

theorem between_shift (n : Nat) (before after : Option Lexeme) (l : Lexeme) :
    (l.shift n).between (before.map (shift n)) (after.map (shift n)) =
      (l.between before after).map (shift n) := by
  have hafter : (before.map (shift n)).any dropsAfter = before.any dropsAfter := by
    cases before <;> rfl
  have hbefore : (after.map (shift n)).any dropsBefore = after.any dropsBefore := by
    cases after <;> rfl
  obtain ⟨token, offset, stripBefore, stripAfter⟩ := l
  cases token with
  | text value =>
    simp only [between, shift, hafter, hbefore]
    generalize (if before.any dropsAfter then Text.trimStart value else value) = v
    generalize (if after.any dropsBefore then Text.trimEnd v else v) = w
    cases w <;> rfl
  | _ => rfl

/-- Whitespace control does not look at offsets. -/
theorem controlled_shift (n : Nat) (before : Option Lexeme) (ls : List Lexeme) :
    controlled (before.map (shift n)) (ls.map (shift n)) =
      (controlled before ls).map (shift n) := by
  induction ls generalizing before with
  | nil => rfl
  | cons l ls ih =>
    have hrest := ih (some l)
    rw [Option.map_some] at hrest
    rw [List.map_cons, controlled, controlled, List.head?_map, between_shift, hrest,
      List.map_append]
    cases l.between before ls.head? <;> rfl

end Lexeme

namespace OpenBlocks

variable {limit : Nat} {opened : OpenBlocks}

theorem step_shift (n : Nat) (l : Lexeme) :
    step limit (opened.map (Enclosing.shift n)) (l.shift n) =
      shifted n (List.map (Enclosing.shift n)) (step limit opened l) := by
  simp only [step, Lexeme.shift, List.length_map]
  cases l.token with
  | opening helper args =>
    dsimp only [Token.unsupported?]
    split
    · rfl
    · split <;> rfl
  | closing helper =>
    cases opened with
    | nil => rfl
    | cons e outer =>
      have hhelper : (e.shift n).helper = e.helper := rfl
      simp only [Token.unsupported?, List.map_cons, hhelper]
      split <;> rfl
  | _ => rfl

theorem run_shift (n : Nat) (ls : List Lexeme) :
    run limit (opened.map (Enclosing.shift n)) (ls.map (Lexeme.shift n)) =
      shifted n (List.map (Enclosing.shift n)) (run limit opened ls) := by
  induction ls generalizing opened with
  | nil => rfl
  | cons l ls ih =>
    simp only [run, List.map_cons, List.foldlM_cons, step_shift]
    cases step limit opened l with
    | error e => rfl
    | ok next => exact ih

theorem check_shift (n : Nat) (opened : OpenBlocks) (ls : List Lexeme) :
    check limit (opened.map (Enclosing.shift n)) (ls.map (Lexeme.shift n)) =
      shifted n id (check limit opened ls) := by
  rw [check, check, run_shift]
  cases run limit opened ls with
  | error e => rfl
  | ok final => cases final <;> rfl

end OpenBlocks

end HandlebarsToTwig
