import VoiceCommand.CommandError
import VoiceCommand.Parser.Alias
import VoiceCommand.Parser.Chain
import VoiceCommand.Parser.Semantic

/-! From text to commands: a custom command first, then the table of phrasings, then the classifier.
A text is only split into a chain if every segment is a command of the table. -/
namespace VoiceCommand

structure Parser where
  minConfidence : Binary64
  semantic : Option Parser.Semantic
  extensions : List String

namespace Parser

def new (minConfidence : Binary64) : Parser := ⟨minConfidence.confidence,none,[]⟩

def withSemantic (p : Parser) (classifier : Classifier) (minConfidence : Binary64) (timeout : Nat) :
    Parser :=
  { p with semantic := some ⟨classifier,minConfidence.confidence,timeout⟩ }

def withExtensions (p : Parser) (names : List String) : Parser :=
  { p with extensions := names.map fun name => Text.lower (Text.trim name) }

def classify? (p : Parser) (text : String) : Course (Option Command) :=
  match p.semantic with
  | some s => s.command? p.extensions text
  | none => return none

def parse (p : Parser) (store : Store) (text : String) : Course (Except CommandError Command) :=
  let normalized := Text.normalize text
  if normalized.isEmpty then return .error (.unrecognized text)
  else match matchAlias? store text with
    | some command => return .ok command
    | none =>
      match matchPattern? p.minConfidence text with
      | some command => return .ok command
      | none => do
        match ← p.classify? normalized with
        | some command => return .ok command
        | none => return .error (.unrecognized (Text.trim text))

/-- The commands of a text: a custom command, a chain, or at most one other command. -/
def parseChain (p : Parser) (store : Store) (text : String) : Course (List Command) :=
  match matchAlias? store text with
  | some command => return [command]
  | none =>
    match splitChain? p.minConfidence text with
    | some commands => return commands
    | none => do
      match ← p.parse store text with
      | .ok command => return [command]
      | .error _ => return []

end Parser

end VoiceCommand
