import VoiceCommand.Text.Blank

/-! The normal form in which commands are compared: words joined by single spaces, without
sentence punctuation at the edges. -/
namespace VoiceCommand.Text

def isSentenceMark (c : Char) : Bool :=
  c == '.' || c == ',' || c == '!' || c == '?' || c == ';' || c == ':' || c == '"'

def spaced (cs : List Char) : List Char := [' '].intercalate (runs cs)

def normalize (s : String) : String :=
  String.ofList (strip isBlank (strip isSentenceMark (spaced s.toList)))

end VoiceCommand.Text
