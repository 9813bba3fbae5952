import VoiceCommand.ConfigFile
import VoiceCommand.Registry

/-! Enabling and disabling an intent in a configuration file. -/
namespace VoiceCommand.CommandLine

/-- The intent of a name, or what is wrong with it. -/
def intentOf (name : String) : Except String Intent :=
  match Intent.parse? name with
  | some intent => .ok intent
  | none => .error ("Unknown intent: " ++ Text.trim name)

def stateName (enabled : Bool) : String := if enabled then "enabled" else "disabled"

def toggledLine (intent : Intent) (enabled : Bool) : String :=
  (if enabled then "Enabled " else "Disabled ") ++ intent.name

/-- Sets the flag of an intent. The file is written only if that changes something. -/
def toggle (path name : String) (enabled : Bool) : FileTask (List String) := do
  let intent ← ExceptT.mk (pure (intentOf name))
  let c ← Config.ofFileOrDefault path
  let registry := Registry.new.loadDisabled c.disabledIntents
  if registry.isEnabled intent = enabled then
    return [intent.name ++ " is already " ++ stateName enabled]
  else
    Config.saveDisabled path (registry.setEnabled intent enabled).disabledNames
    return [toggledLine intent enabled]

end VoiceCommand.CommandLine
