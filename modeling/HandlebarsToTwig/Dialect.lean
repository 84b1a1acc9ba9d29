import HandlebarsToTwig.Text

/-! The delimiters of the emitted template language, and the tags written with them. -/
namespace HandlebarsToTwig

structure Dialect where
  varOpen : Text := ['{', '{']
  varClose : Text := ['}', '}']
  blockOpen : Text := ['{', '%']
  blockClose : Text := ['%', '}']
  /-- The expression for the index of the current loop. -/
  loopIndex : Text := "loop.index0".toList
  deriving DecidableEq, Repr

namespace Dialect

def interpolate (d : Dialect) (expr : Text) : Text := d.varOpen ++ expr ++ d.varClose

/-- A block tag: its body between the block delimiters, one space on either side. -/
def tag (d : Dialect) (body : Text) : Text := d.blockOpen ++ ' ' :: body ++ ' ' :: d.blockClose

def openIf (d : Dialect) (condition : Text) : Text := d.tag ("if ".toList ++ condition)

def openIfNot (d : Dialect) (condition : Text) : Text := d.tag ("if not ".toList ++ condition)

def endIf (d : Dialect) : Text := d.tag "endif".toList

def openFor (d : Dialect) (iterator iterable : Text) : Text :=
  d.tag ("for ".toList ++ iterator ++ " in ".toList ++ iterable)

def endFor (d : Dialect) : Text := d.tag "endfor".toList

end Dialect

end HandlebarsToTwig
