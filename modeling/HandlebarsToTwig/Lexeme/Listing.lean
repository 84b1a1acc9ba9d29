import HandlebarsToTwig.Error
import HandlebarsToTwig.Text.Shown

/-! The listing of lexemes, one to a line. -/
namespace HandlebarsToTwig

namespace Token

/-- A kind of token and what it holds. -/
def labelled (label : String) (body : Text) : Text :=
  label.toList ++ '(' :: Text.shown body ++ [')']

def listing : Token → Text
  | text value => labelled "Text" value
  | reference name => labelled "Variable" name
  | opening helper args =>
    let args := match args with
      | some s => labelled "Some" s
      | none => "None".toList
    "OpenBlock ".toList ++ ['{'] ++ " name: ".toList ++ Text.shown helper ++ ", args: ".toList ++
      args ++ [' ', '}']
  | closing helper => labelled "CloseBlock" helper
  | alternative => "Else".toList
  | comment body => labelled "Comment" body
  | unescaped body => labelled "Unescaped" body
  | inclusion body => labelled "Partial" body
  | inverse body => labelled "Inverse" body

end Token

namespace Lexeme

/-- The offset, right-aligned to six places, and the token. -/
def listing (l : Lexeme) : Text :=
  let offset := Error.decimal l.offset
  List.replicate (6 - offset.length) ' ' ++ offset ++ [' ', ' '] ++ l.token.listing

def listings (ls : List Lexeme) : Text := ls.flatMap fun l => l.listing ++ ['\n']

end Lexeme

end HandlebarsToTwig
