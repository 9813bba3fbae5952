import VoiceCommand.CommandLine.Arguments
import VoiceCommand.CommandLine.DryRun
import VoiceCommand.CommandLine.Listing
import VoiceCommand.CommandLine.Recognition
import VoiceCommand.CommandLine.Starter
import VoiceCommand.CommandLine.Toggle
import VoiceCommand.Offline

/-! The program as a whole: from arguments and input to lines, files and an exit code. -/
namespace VoiceCommand.CommandLine

structure Report where
  lines : List String
  failure : Option String
  deriving DecidableEq, Repr

def Report.ofResult : Except String (List String) → Report
  | .ok lines => ⟨lines,none⟩
  | .error message => ⟨[],some message⟩

def Invocation.path (inv : Invocation) (home : String) : String :=
  inv.config.getD (Config.defaultPath home)

def parseTask (classifierOf : SemanticSettings → Classifier) (path text : String) :
    FileTask (List String) := do
  let c ← Config.ofFileOrDefault path
  match (recognise c classifierOf text []).2 with
  | .ok commands => return [commandsText commands]
  | .error e => FileTask.fail e.message

def intentsTask (path : String) (category : Option String) : FileTask (List String) := do
  let c ← Config.ofFileOrDefault path
  return listing c (← ExceptT.mk (pure (categoriesOf category)))

/-- A session over lines that are all there from the beginning. -/
def listenReport (classifierOf : SemanticSettings → Classifier) (path : String) (assumeYes : Bool)
    (input : List String) (epoch : Timestamp) : Program Report := do
  match ← (Config.ofFileOrDefault path).run with
  | .error message => return ⟨[],some message⟩
  | .ok c =>
    let s := hearLines (drySession c classifierOf assumeYes epoch) input
    let saved ← (saveUse path c.customCommands s.store).run
    return ⟨greeting c :: sessionLines s,match saved with | .error message => some message | .ok _ => none⟩

def Invocation.report (inv : Invocation) (home : String) (input : List String) (epoch : Timestamp)
    (classifierOf : SemanticSettings → Classifier := .offline) : Program Report :=
  let path := inv.path home
  let task (t : FileTask (List String)) : Program Report := do return .ofResult (← t.run)
  match inv.task with
  | .parse text => task (parseTask classifierOf path text)
  | .listen assumeYes => listenReport classifierOf path assumeYes input epoch
  | .intents category => task (intentsTask path category)
  | .toggle intent enabled => task (toggle path intent enabled)
  | .init force => task (writeStarter path force)

end VoiceCommand.CommandLine
