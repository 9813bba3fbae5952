import VoiceCommand.Parser.Ranking

/-! Splitting an utterance into a chain of commands at its conjunctions. -/
namespace VoiceCommand.Parser

def separators : List Pattern :=
  open Pattern in [
    blanks ++ word "and" ++ blanks ++ word "then" ++ blanks,
    blanks ++ word "then" ++ blanks,
    blanks ++ word "and" ++ blanks]

/-- The pieces between the separators of the first kind that occurs, trimmed, without the blank ones.
There must be at least two. -/
def splitSegments? (text : String) : Option (List String) :=
  (separators.find? (·.occurs text.toList)).bind fun separator =>
    let segments := ((separator.split text.toList).map (Text.strip Text.isBlank)).filter
      fun piece => !piece.isEmpty
    if 2 ≤ segments.length then some (segments.map String.ofList) else none

def splitChain? (minConfidence : Binary64) (text : String) : Option (List Command) :=
  (splitSegments? (Text.normalize text)).bind fun segments =>
    segments.mapM (matchPattern? minConfidence)

end VoiceCommand.Parser
