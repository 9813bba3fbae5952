/-! Replacing one run of characters by another wherever it occurs. -/
namespace VoiceCommand.Text

/-- Replaces the occurrences of `needle` from left to right; `skip` characters belong to the
occurrence just replaced. Text that was put in is not searched again. -/
def replaceFrom (needle new : List Char) : Nat → List Char → List Char
  | _, [] => []
  | skip + 1, _ :: cs => replaceFrom needle new skip cs
  | 0, c :: cs =>
    if needle.isPrefixOf (c :: cs) then new ++ replaceFrom needle new (needle.length - 1) cs
    else c :: replaceFrom needle new 0 cs

/-- Every occurrence of the non-empty text `needle` becomes `new`. -/
def replace (s needle new : String) : String :=
  String.ofList (replaceFrom needle.toList new.toList 0 s.toList)

end VoiceCommand.Text
