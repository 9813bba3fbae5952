import VoiceCommand.Binary64.Decimal
import VoiceCommand.CustomCommand

/-! What a user can set, with the value that holds where nothing is set. -/
namespace VoiceCommand

structure WakeWordSettings where
  phrase : String := "hey type"
  caseSensitive : Bool := false
  -- The similarity from which a near miss counts as the phrase.
  fuzzyThreshold : Binary64 := Decimal.toBinary64 false ⟨8,-1⟩
  cooldown : Nat := 2000 -- milliseconds
  deriving DecidableEq, Repr

structure SessionSettings where
  listeningTimeout : Nat := 10 -- seconds
  resultDisplay : Nat := 1500 -- milliseconds
  stepDelay : Nat := 300 -- milliseconds
  executionTimeout : Nat := 30 -- seconds
  chaining : Bool := true
  deriving DecidableEq, Repr

structure SemanticSettings where
  model : String
  endpoint : String := "http://127.0.0.1:11434"
  minConfidence : Binary64 := Decimal.toBinary64 false ⟨6,-1⟩
  timeout : Nat := 1500 -- milliseconds
  deriving DecidableEq, Repr

structure ParserSettings where
  minConfidence : Binary64 := Decimal.toBinary64 false ⟨5,-1⟩
  semantic : Option SemanticSettings := none
  deriving DecidableEq, Repr

structure Config where
  wakeWord : WakeWordSettings := {}
  session : SessionSettings := {}
  parser : ParserSettings := {}
  disabledIntents : List String := []
  customCommands : Store := []
  deriving DecidableEq, Repr

namespace Config

def customCommand? (c : Config) (name : String) : Option CustomCommand :=
  c.customCommands.find? fun custom => Text.sameName custom.name (Text.trim name)

end Config

end VoiceCommand
