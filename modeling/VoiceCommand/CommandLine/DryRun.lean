import VoiceCommand.ConfigFile
import VoiceCommand.Session.Queue

/-! A session over lines of text, in which handlers only tell what they would do. -/
namespace VoiceCommand.CommandLine
open FileTask (perform)

def dryHandler : Handler :=
  ⟨fun _ c => (0,.ok { Outcome.succeeded (c.displayName ++ " (dry run)") with
    undo := UndoAction.inverseOf? c })⟩

def dryRegistry : Registry := Intent.all.foldl (fun r intent => r.setHandler intent dryHandler) .new

def fixedPrompt (answer : Bool) : Prompt := ⟨fun _ _ => (0,answer)⟩

def drySession (c : Config) (classifierOf : SemanticSettings → Classifier) (assumeYes : Bool)
    (epoch : Timestamp) : Session :=
  .ofConfig c dryRegistry classifierOf (some (fixedPrompt assumeYes)) epoch

def greeting (c : Config) : String :=
  "Say \"" ++ c.wakeWord.phrase ++ "\" followed by a command (one line per utterance, Ctrl-D to stop)"

def eventLine? : Event → Option String
  | .entered .inactive | .entered (.processing _) => none
  | .entered phase => some ("[" ++ phase.name ++ "] " ++ phase.display)
  | .finished o =>
    some ("  " ++ (if o.success then "ok" else "failed") ++ " " ++ o.message ++ " (" ++
      Outcome.durationText o.nanoseconds ++ ")")
  | .ignored text => some ("  (busy, ignored \"" ++ text ++ "\")")

def undoLines (actions : List UndoAction) : List String :=
  if actions.isEmpty then []
  else "Undo available for the last run:" :: actions.map fun u => "  - " ++ u.description

def sessionLines (s : Session) : List String :=
  (Event.ofHistory s.past).filterMap eventLine? ++ undoLines s.undo

def wasUsed (before after : Store) : Bool :=
  (after.zip before).any fun (now,was) => now.useCount != was.useCount

/-- Stores how often the custom commands have run, in a file that is still there. -/
def saveUse (path : String) (before after : Store) : FileTask Unit := do
  if wasUsed before after then
    if ← perform (.present path) then
      let c ← Config.ofFile path
      Config.save { c with customCommands := after } path

/-- Splits bytes at line feeds; a carriage return before one belongs to it. `got` is the current line,
last byte first. -/
def splitLines (got : List UInt8) : List UInt8 → List (List UInt8)
  | [] => if got.isEmpty then [] else [got.reverse]
  | b :: bs =>
    if b = 10 then (if got.head? = some 13 then got.drop 1 else got).reverse :: splitLines [] bs
    else splitLines (b :: got) bs

def textLines : List (List UInt8) → List String
  | [] => []
  | line :: rest =>
    match String.fromUTF8? ⟨line.toArray⟩ with
    | some s => s :: textLines rest
    | none => []

def inputLines (bytes : List UInt8) : List String := textLines (splitLines [] bytes)

def hearLines (s : Session) (lines : List String) : Session :=
  s.serve 0 [] 0 (lines.map fun line => ⟨0,line⟩)

end VoiceCommand.CommandLine
