import VoiceCommand.Collaborators
import VoiceCommand.Settings

/-! The classifier of a program that makes no connections. Every question fails at once, with a
message that names the address it would have gone to. -/
namespace VoiceCommand

/-- Where questions to an endpoint go; slashes at its end do not count. -/
def questionAddress (endpoint : String) : String :=
  String.ofList (Text.dropEnd (· == '/') endpoint.toList) ++ "/api/generate"

def Classifier.offline (s : SemanticSettings) : Classifier :=
  ⟨fun _ _ => (0,.error ("Failed to reach classifier at " ++ questionAddress s.endpoint))⟩

end VoiceCommand
