import VoiceCommand.Command
import VoiceCommand.CustomCommand
import VoiceCommand.Text.Normal

/-! Recognition of the user's own commands by their trigger phrase. -/
namespace VoiceCommand.Parser

/-- The first enabled custom command that the text triggers, as it stands or normalised. -/
def trigger? (store : Store) (text : String) : Option CustomCommand :=
  store.find? fun c => c.enabled && (c.isTriggeredBy text || c.isTriggeredBy (Text.normalize text))

/-- The command that runs a custom command. -/
def aliasCommand (text : String) (c : CustomCommand) : Command :=
  { Command.new .customAlias (Text.trim text) .alias with
    entities := .ofList [(aliasNameKey,c.name),(triggerKey,c.trigger)]
    displayName := c.name }

def matchAlias? (store : Store) (text : String) : Option Command :=
  (trigger? store text).map (aliasCommand text)

end VoiceCommand.Parser
