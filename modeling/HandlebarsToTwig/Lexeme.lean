import HandlebarsToTwig.Text

/-! Lexemes: runs of plain text and tags, each with its place in the template, and the marks that
delimit tags. -/
namespace HandlebarsToTwig

inductive Token
  | text (value : Text)
  | reference (name : Text)
  | opening (helper : Text) (args : Option Text)
  | closing (helper : Text)
  /-- The divider between the two branches of a block. -/
  | alternative
  | comment (body : Text)
  | unescaped (body : Text)
  | inclusion (body : Text)
  | inverse (body : Text)
  deriving DecidableEq, Repr

/-- A token, the byte offset where it starts, and whether its tag asks for the blanks on either
side to be dropped. -/
structure Lexeme where
  token : Token
  offset : Nat
  stripBefore : Bool := false
  stripAfter : Bool := false
  deriving DecidableEq, Repr

namespace Lexeme

def tagOpen : Text := ['{', '{']
def tagClose : Text := ['}', '}']
def rawOpen : Text := ['{', '{', '{']
def rawClose : Text := ['}', '}', '}']
def commentOpen : Text := ['{', '{', '!', '-', '-']
def commentClose : Text := ['-', '-', '}', '}']

end Lexeme

end HandlebarsToTwig
