import VoiceCommand.Document.Shapes
import VoiceCommand.Document.Toml.Reader
import VoiceCommand.Document.Toml.Writer

/-! The text of a configuration. Everything that has a default may be left out when it is read; what
is written is complete. -/
namespace VoiceCommand

namespace Document
open Toml (Section)

def stepSections (step : Step) : List Section := [
  ⟨.item ["custom_commands","steps"],[("intent",.text step.intent.name)]⟩,
  ⟨.table ["custom_commands","steps","parameters"],
    step.parameters.entries.map fun e => (e.1,.text e.2)⟩]

def customCommandSections (c : CustomCommand) : List Section :=
  let noSteps := if c.steps.isEmpty then [("steps",Toml.Entry.texts [])] else []
  let lastUse := (c.lastUsedAt.map fun t => ("last_used_at",Toml.Entry.text t.text)).toList
  ⟨.item ["custom_commands"],
    [("name",.text c.name),("trigger_phrase",.text c.trigger)] ++ noSteps ++
      [("enabled",.flag c.enabled),("use_count",.whole c.useCount.toNat)] ++ lastUse⟩ ::
    c.steps.flatMap stepSections

def wakeWordSection (s : WakeWordSettings) : Section :=
  ⟨.table ["wake_word"],[
    ("phrase",.text s.phrase),
    ("case_sensitive",.flag s.caseSensitive),
    ("fuzzy_threshold",.real s.fuzzyThreshold),
    ("cooldown_ms",.whole s.cooldown)]⟩

def sessionSection (s : SessionSettings) : Section :=
  ⟨.table ["command_mode"],[
    ("listening_timeout_secs",.whole s.listeningTimeout),
    ("result_display_ms",.whole s.resultDisplay),
    ("chain_step_delay_ms",.whole s.stepDelay),
    ("execution_timeout_secs",.whole s.executionTimeout),
    ("chaining_enabled",.flag s.chaining)]⟩

def semanticSection (s : SemanticSettings) : Section :=
  ⟨.table ["parser","semantic"],[
    ("model",.text s.model),
    ("endpoint",.text s.endpoint),
    ("min_confidence",.real s.minConfidence),
    ("timeout_ms",.whole s.timeout)]⟩

def configSections (c : Config) : List Section :=
  let noCommands := if c.customCommands.isEmpty then [("custom_commands",Toml.Entry.texts [])] else []
  ⟨.root,("disabled_intents",.texts c.disabledIntents) :: noCommands⟩ ::
    wakeWordSection c.wakeWord :: sessionSection c.session ::
    ⟨.table ["parser"],[("min_confidence",.real c.parser.minConfidence)]⟩ ::
    (c.parser.semantic.map semanticSection).toList ++ c.customCommands.flatMap customCommandSections

end Document

namespace Config

/-- The configuration that a text describes. -/
def ofText? (s : String) : Option Config :=
  (Document.Toml.decode (Document.config .toml) s).toOption

/-- A text that describes the configuration. -/
def text (c : Config) : String := Document.Toml.write (Document.configSections c)

end Config

end VoiceCommand
