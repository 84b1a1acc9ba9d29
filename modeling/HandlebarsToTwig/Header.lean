import HandlebarsToTwig.Text

/-! The comment block at the top of an emitted component. -/
namespace HandlebarsToTwig

structure Header where
  title : Text
  see : Option Text := none
  version : Option Text := none
  date : Option Text := none
  author : Option Text := none
  deriving DecidableEq, Repr

namespace Header

/-- The labelled fields that are present, in the order in which they are written. -/
def fields (h : Header) : List (Text × Text) :=
  [("see".toList, h.see), ("version".toList, h.version), ("date".toList, h.date),
    ("author".toList, h.author)].filterMap fun (label, value) => value.map (label, ·)

def docblock (h : Header) : Text :=
  ['{', '#'] ++ " @file\n".toList ++
    "  * This is a component template for the ".toList ++ h.title ++ " component\n".toList ++
    (h.fields.flatMap fun (label, value) =>
      "  * @".toList ++ label ++ ' ' :: value ++ ['\n']) ++
    "  * ".toList ++ ['#', '}', '\n']

/-- A component: its header, then its body. -/
def document (h : Header) (body : Text) : Text := h.docblock ++ body

end Header

end HandlebarsToTwig
