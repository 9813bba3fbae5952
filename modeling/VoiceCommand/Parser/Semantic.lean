import VoiceCommand.Collaborators
import VoiceCommand.Parser.Ranking

/-! Recognition by a classifier, the last resort. Its answer is only used if it comes in time, is sure
enough, and names an extension or an intent that it may choose. -/
namespace VoiceCommand.Parser

structure Semantic where
  classifier : Classifier
  minConfidence : Binary64
  timeout : Nat -- milliseconds

def declaredEntities (intent : Intent) (entities : Entities) : Entities :=
  (entities.filter fun key value =>
    !Text.allBlank value && (intent.required.contains key || intent.optional.contains key)).mapValues
    Text.trim

/-- The command that a classification stands for. Chains and custom commands are not for a classifier
to choose; the names of extensions are in lower case. -/
def ofClassification? (extensions : List String) (text : String) (c : Classification)
    (confidence : Binary64) : Option Command :=
  let name := Text.trim c.intent
  if extensions.contains (Text.lower name) then
    some { Command.new .customAlias text .semantic with
      entities := .ofList [(extensionKey,name)]
      confidence := confidence
      displayName := name }
  else match Intent.parse? name with
    | none | some .chainedCommand | some .customAlias => none
    | some intent =>
      let entities := declaredEntities intent c.entities
      some { Command.new intent text .semantic with
        entities := entities
        confidence := confidence
        displayName := Template.displayName intent entities }

def Semantic.command? (s : Semantic) (extensions : List String) (text : String) :
    Course (Option Command) := do
  match ← Course.within s.timeout (Course.classify s.classifier text) with
  | some (.ok c) =>
    let confidence := c.confidence.confidence
    if confidence.lt s.minConfidence then return none
    else return ofClassification? extensions text c confidence
  | _ => return none

end VoiceCommand.Parser
