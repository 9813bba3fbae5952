import VoiceCommand.Binary64.Basic
import VoiceCommand.Intent
import VoiceCommand.KeyMap

/-! Recognised commands, on their way from recognition to execution. -/
namespace VoiceCommand

inductive Source where
  | pattern
  | semantic
  | alias
  deriving DecidableEq, Repr, Inhabited

namespace Source

def all : List Source := [.pattern,.semantic,.alias]

def name : Source → String
  | .pattern => "pattern_match"
  | .semantic => "semantic_fallback"
  | .alias => "alias"

def label : Source → String
  | .pattern => "pattern"
  | .semantic => "semantic"
  | .alias => "alias"

def ofName? (s : String) : Option Source := all.find? fun source => source.name == s

end Source

structure Command where
  intent : Intent
  entities : Entities
  rawText : String
  confidence : Binary64
  displayName : String
  source : Source
  deriving DecidableEq, Repr

namespace Command

def new (intent : Intent) (rawText : String) (source : Source) : Command :=
  ⟨intent,.empty,rawText,.one,intent.label,source⟩

def entity? (c : Command) (key : String) : Option String := c.entities.get? key

def extension? (c : Command) : Option String :=
  if c.intent = .customAlias then c.entity? extensionKey else none

/-- The required keys for which the command has no value or a blank one. -/
def missing (c : Command) (required : List String) : List String :=
  required.filter fun key => (c.entity? key).all Text.allBlank

end Command

end VoiceCommand
