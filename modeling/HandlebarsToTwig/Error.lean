import HandlebarsToTwig.Lexeme
import HandlebarsToTwig.Json.Fault

/-! Every cause for which a template, a tree or a configuration is refused, and its wording. -/
namespace HandlebarsToTwig

/-- Faults in the tags of a template. -/
inductive TagFault
  | unterminatedComment
  | unterminatedTag
  | emptyTag
  | namelessBlock
  | namelessClose
  | mismatchedClose (expected found : Text)
  | strayClose (helper : Text)
  | unclosedBlock (helper : Text)
  deriving DecidableEq, Repr

/-- A configuration sets a depth limit of zero, or cannot be read as options at all. -/
inductive ConfigFault
  | zeroDepth
  | unreadable
  deriving DecidableEq, Repr

inductive Error
  | unsupported (kind : Text)
  | tag (fault : TagFault) (offset : Nat)
  | missingField (kind field : Text)
  | tooDeep (limit : Nat)
  | json (fault : Json.Fault)
  | config (fault : ConfigFault)
  | unreadableFile
  deriving DecidableEq, Repr

namespace TagFault

/-- A name as it stands in a tag that starts with `sigil`. -/
def tagged (sigil : Char) (name : Text) : Text := Lexeme.tagOpen ++ sigil :: name ++ Lexeme.tagClose

def message : TagFault → Text
  | unterminatedComment => "unterminated comment".toList
  | unterminatedTag => "unterminated tag".toList
  | emptyTag => "empty tag".toList
  | namelessBlock => "block tag without a helper name".toList
  | namelessClose => "close tag without a helper name".toList
  | mismatchedClose expected found =>
    "expected ".toList ++ tagged '/' expected ++ ", found ".toList ++ tagged '/' found
  | strayClose helper => tagged '/' helper ++ " without a matching open tag".toList
  | unclosedBlock helper => "unclosed ".toList ++ tagged '#' helper

end TagFault

namespace Error

def decimal (n : Nat) : Text := Nat.toDigits 10 n

/-- The wording of an error. An error that stands for a fault found by the reader of JSON, by the
reader of configuration files or by the file system ends in what that one says about it, the
`detail`; the other errors have none. -/
def message (e : Error) (detail : Text := []) : Text :=
  match e with
  | unsupported kind => "unsupported node kind: ".toList ++ kind
  | tag fault offset =>
    "parse error at byte ".toList ++ decimal offset ++ ": ".toList ++ fault.message
  | missingField kind field =>
    "malformed '".toList ++ kind ++ "' node: missing field '".toList ++ field ++ "'".toList
  | tooDeep limit => "block nesting exceeds the configured limit of ".toList ++ decimal limit
  | json _ => "invalid node tree JSON: ".toList ++ detail
  | config .zeroDepth => "invalid config: max_depth must be at least 1".toList
  | config .unreadable => "invalid config: ".toList ++ detail
  | unreadableFile => detail

/-- The wording of an error and of the fault that caused it, which only an error of the reader of
JSON keeps. So what that reader says comes twice. -/
def chain (e : Error) (detail : Text := []) : List Text :=
  match e with
  | json _ => [e.message detail, detail]
  | _ => [e.message detail]

end Error

end HandlebarsToTwig
