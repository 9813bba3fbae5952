import VoiceCommand.Outcome

/-! The ways in which a command can fail, each with the message that a user reads. -/
namespace VoiceCommand

inductive CommandError where
  | unrecognized (text : String)
  | missingEntity (intent : Intent) (key : String)
  | disabled (name : String)
  | confirmationDeclined (name : String)
  | noHandler (name : String)
  | handlerFailed (intent : Intent) (cause : String)
  | chainFailed (intent : Intent) (index : Nat) (cause : String)
  | timeout (seconds : Nat)
  | classifier (cause : String)
  deriving DecidableEq, Repr

namespace CommandError

def message : CommandError → String
  | unrecognized text => "Unrecognized command: \"" ++ text ++ "\""
  | missingEntity intent key => intent.name ++ " is missing required value: " ++ key
  | disabled name => "The " ++ name ++ " command is disabled"
  | confirmationDeclined name => "Cancelled: " ++ name ++ " was not confirmed"
  | noHandler name => "No handler registered for " ++ name
  | handlerFailed intent cause => intent.name ++ " failed: " ++ cause
  | chainFailed intent index cause =>
    "Step " ++ toString (index + 1) ++ " (" ++ intent.name ++ ") failed: " ++ cause
  | timeout seconds => "Command timed out after " ++ toString seconds ++ "s"
  | classifier cause => "Semantic classifier error: " ++ cause

end CommandError

/-- The failure of a chain, if its last outcome is none of success. -/
def chainFailure? (commands : List Command) (outcomes : List Outcome) : Option CommandError :=
  match outcomes.getLast? with
  | none => none
  | some last =>
    if last.success then none
    else
      let index := outcomes.length - 1
      some (.chainFailed ((commands[index]?.map (·.intent)).getD .chainedCommand) index last.message)

end VoiceCommand
