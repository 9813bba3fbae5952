import VoiceCommand.KeyMap
import VoiceCommand.Pattern.Table
import VoiceCommand.Text.Replace

/-! Display names. A template holds keys in braces; each key that has a value is replaced by it, key
after key in ascending order. -/
namespace VoiceCommand.Template

def placeholder (key : String) : String := "\x7b" ++ key ++ "\x7d"

def render (template : String) (entities : Entities) : String :=
  entities.entries.foldl (fun text e => Text.replace text (placeholder e.1) e.2) template

/-- The template of the intent when that leaves no brace open, and its label otherwise. -/
def displayName (intent : Intent) (entities : Entities) : String :=
  match PatternRow.ofIntent? intent with
  | some row =>
    let name := render row.template entities
    if name.toList.contains '\x7b' then intent.label else name
  | none => intent.label

end VoiceCommand.Template
