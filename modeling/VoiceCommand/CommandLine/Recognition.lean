import VoiceCommand.Document.Json.Writer
import VoiceCommand.Session.Basic

/-! Recognition without execution: the commands that a session with the same configuration would run,
as a document. -/
namespace VoiceCommand

def Command.toValue (c : Command) : Document.Value :=
  let entities := c.entities.entries.map fun e => (some e.1,Document.Value.text e.2)
  .table [
    (some "intent",.text c.intent.name),
    (some "entities",.table entities .closed),
    (some "raw_text",.text c.rawText),
    (some "confidence",.real c.confidence),
    (some "display_name",.text c.displayName),
    (some "source",.text c.source.name)] .closed

namespace CommandLine

/-- Chains are recognised unless the settings or the list of disabled intents forbid it. -/
def chains (c : Config) : Bool :=
  c.session.chaining && !c.disabledIntents.any fun name => Intent.parse? name == some .chainedCommand

def commandsOf (c : Config) (classifierOf : SemanticSettings → Classifier) (text : String) :
    Course (List Command) :=
  let parser := Session.parserOf c.parser classifierOf
  if chains c then parser.parseChain c.customCommands text
  else do return (← parser.parse c.customCommands text).toOption.toList

def recognise (c : Config) (classifierOf : SemanticSettings → Classifier) (text : String) :
    Course (Except CommandError (List Command)) := do
  let commands ← commandsOf c classifierOf text
  return if commands.isEmpty then .error (.unrecognized (Text.trim text)) else .ok commands

-- There is no message for commands that cannot be written, since all can.
def commandsText (commands : List Command) : String :=
  Document.Json.write (.list (commands.map Command.toValue) .closed)

end CommandLine

end VoiceCommand
