import HandlebarsToTwig.Text

/-! Text in files. -/
namespace HandlebarsToTwig.Text

/-- The text that the bytes encode, if they are UTF-8. -/
def decode? (bytes : ByteArray) : Option Text := (String.fromUTF8? bytes).map String.toList

def encode (s : Text) : ByteArray := (String.ofList s).toUTF8

end HandlebarsToTwig.Text
