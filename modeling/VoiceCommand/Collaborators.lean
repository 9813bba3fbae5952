import VoiceCommand.Action

/-! The parties that a session calls on. Each answers with the help of everything that has happened
so far, after a delay in milliseconds. -/
namespace VoiceCommand

structure Handler where
  respond : List Action → Command → Nat × Except String Outcome

structure Prompt where
  respond : List Action → String → Nat × Bool

structure Classification where
  intent : String
  entities : Entities
  confidence : Binary64
  deriving DecidableEq, Repr

structure Classifier where
  respond : List Action → String → Nat × Except String Classification

namespace Course

def call (handler : Handler) (command : Command) : Course (Except String Outcome) := do
  let (delay,reply) := handler.respond (← past) command
  perform (.call command)
  wait delay
  return reply

def ask (prompt : Prompt) (question : String) : Course Bool := do
  let (delay,answer) := prompt.respond (← past) question
  perform (.put question)
  wait delay
  perform (.ask question answer)
  return answer

def classify (classifier : Classifier) (text : String) : Course (Except String Classification) := do
  let (delay,reply) := classifier.respond (← past) text
  perform (.classify text)
  wait delay
  return reply

end Course

end VoiceCommand
