import VoiceCommand.Timestamp

/-! The phases of a session, from waiting for the wake phrase to showing a result. -/
namespace VoiceCommand

inductive Phase where
  | inactive
  | listening (since : Timestamp)
  | processing (text : String)
  | executing (displayName : String)
  | completed (success : Bool) (message : String)
  | error (message : String)
  deriving DecidableEq, Repr

namespace Phase

def isInactive : Phase → Bool
  | inactive => true
  | _ => false

def isListening : Phase → Bool
  | listening _ => true
  | _ => false

/-- A command is being recognised or run. -/
def isBusy : Phase → Bool
  | processing _ | executing _ => true
  | _ => false

def isShowingResult : Phase → Bool
  | completed _ _ | error _ => true
  | _ => false

def name : Phase → String
  | inactive => "inactive"
  | listening _ => "listening"
  | processing _ => "processing"
  | executing _ => "executing"
  | completed _ _ => "completed"
  | error _ => "error"

/-- What a person reads. -/
def display : Phase → String
  | inactive => "Inactive"
  | listening _ => "Listening"
  | processing text => "Processing \"" ++ text ++ "\""
  | executing displayName => "Executing " ++ displayName
  | completed _ message => "Done: " ++ message
  | error message => "Error: " ++ message

end Phase

end VoiceCommand
