import VoiceCommand.Command
import VoiceCommand.Template
import VoiceCommand.Text.Normal

/-! Recognition by the table of phrasings. Every row that matches the beginning of the normalised text
is weighed by the share of the text that it covers and by its priority; the heaviest row is taken, and
accepted if its share is large enough. -/
namespace VoiceCommand.Parser

structure Fit where
  row : PatternRow
  hit : Pattern.Match
  confidence : Binary64
  score : Binary64
  deriving DecidableEq, Repr

def fit? (normalized : List Char) (row : PatternRow) : Option Fit :=
  (row.pattern.match? normalized).map fun hit =>
    let confidence := (Binary64.ofRatio hit.length normalized.length).confidence
    ⟨row,hit,confidence,confidence.scale row.priority⟩

/-- Keeps the earlier of two fits unless the later one weighs more. -/
def better (best : Option Fit) (f : Fit) : Option Fit :=
  match best with
  | none => some f
  | some b => if b.score.lt f.score then some f else some b

def best? (normalized : List Char) : Option Fit :=
  (PatternRow.all.filterMap (fit? normalized)).foldl better none

def Fit.entities (f : Fit) : Entities :=
  .ofList ((f.row.keys.zip (f.hit.captures.map (Text.strip Text.isBlank))).filterMap
    fun (key,value) => if value.isEmpty then none else some (key,String.ofList value))

def Fit.command (f : Fit) (text : String) : Command :=
  { Command.new f.row.intent (Text.trim text) .pattern with
    entities := f.entities
    confidence := f.confidence
    displayName := Template.render f.row.template f.entities }

def matchPattern? (minConfidence : Binary64) (text : String) : Option Command :=
  let normalized := (Text.normalize text).toList
  if normalized.isEmpty then none
  else match best? normalized with
    | some f => if f.confidence.lt minConfidence then none else some (f.command text)
    | none => none

end VoiceCommand.Parser
