import VoiceCommand.CommandError
import VoiceCommand.Registry
import VoiceCommand.Template

/-! Execution of commands. A command passes four gates in order: its entry is enabled, the required
values are there, the user agrees where that is asked for, and there is a handler. A chain stops at
the first failure; what is done stays done. -/
namespace VoiceCommand

structure Executor where
  registry : Registry
  confirmation : Option Prompt
  store : Option Store
  stepDelay : Nat -- milliseconds

namespace Executor

def confirm (ex : Executor) (c : Command) : Course Bool :=
  match ex.confirmation with
  | some prompt => Course.ask prompt (c.displayName ++ "?")
  | none => return false

/-- A blank message is replaced by the display name of the command. -/
def speaking (c : Command) (o : Outcome) : Outcome :=
  if Text.allBlank o.message then { o with message := c.displayName } else o

def callHandler (e : Entry) (c : Command) : Course (Except CommandError Outcome) :=
  match e.handler with
  | none => return .error (.noHandler e.name)
  | some handler => do
    match ← Course.call handler c with
    | .ok outcome => return .ok (speaking c outcome)
    | .error cause => return .error (.handlerFailed c.intent cause)

def tryExecute (ex : Executor) (c : Command) : Course (Except CommandError Outcome) :=
  match ex.registry.entryFor? c with
  | none => return .error (.noHandler c.displayName)
  | some e =>
    if !e.enabled then return .error (.disabled c.displayName)
    else match (c.missing e.required).head? with
      | some key => return .error (.missingEntity c.intent key)
      | none =>
        if e.needsConfirmation then do
          if ← ex.confirm c then callHandler e c
          else return .error (.confirmationDeclined c.displayName)
        else callHandler e c

def executeStep (ex : Executor) (c : Command) : Course Outcome := do
  let start ← Course.now
  let result ← ex.tryExecute c
  let taken := Outcome.nanosecondsOf ((← Course.now) - start)
  match result with
  | .ok outcome => return { outcome with nanoseconds := taken }
  | .error e => return { Outcome.failed e.message with nanoseconds := taken }

/-- Runs commands in order until one fails, with a pause before each but the first. -/
def inOrder (pause : Nat) (execute : Command → Course Outcome) :
    List Command → Course (List Outcome)
  | [] => return []
  | [c] => return [← execute c]
  | c :: d :: rest => do
    let outcome ← execute c
    if outcome.success then
      Course.wait pause
      return outcome :: (← inOrder pause execute (d :: rest))
    else return [outcome]

def stepCommands (trigger : String) (custom : CustomCommand) : List Command :=
  custom.steps.map fun step =>
    { Command.new step.intent trigger .alias with
      entities := step.parameters
      displayName := Template.displayName step.intent step.parameters }

def triggerOf (c : Command) : String := (c.entity? triggerKey).getD c.rawText

def resolve (ex : Executor) (c : Command) : Except String CustomCommand :=
  if !ex.registry.isEnabled .customAlias then
    .error (CommandError.disabled Intent.customAlias.label).message
  else match ex.store with
    | none => .error "Custom commands are not available"
    | some store =>
      match store.triggered? (triggerOf c) with
      | none => .error ("Custom command \"" ++ c.displayName ++ "\" is no longer available")
      | some custom =>
        if custom.steps.isEmpty then .error (custom.name ++ " has no actions")
        else if custom.steps.any fun step => step.intent == .customAlias then
          .error (custom.name ++ " cannot run another custom command")
        else .ok custom

def aliasOutcome (custom : CustomCommand) (steps : List Command) (outcomes : List Outcome) : Outcome :=
  match chainFailure? steps outcomes with
  | some e => .failed (custom.name ++ ": " ++ e.message)
  | none => .succeeded (custom.name ++ ": " ++ toString outcomes.length ++ " actions done")

def executeAlias (ex : Executor) (c : Command) : Course Outcome :=
  match ex.resolve c with
  | .error message => return .failed message
  | .ok custom => do
    let start ← Course.now
    let steps := stepCommands (triggerOf c) custom
    Course.perform (.credit custom.name)
    let outcomes ← inOrder ex.stepDelay ex.executeStep steps
    let taken := Outcome.nanosecondsOf ((← Course.now) - start)
    return { aliasOutcome custom steps outcomes with nanoseconds := taken }

def execute (ex : Executor) (c : Command) : Course Outcome :=
  if c.intent = .customAlias ∧ c.source = .alias then ex.executeAlias c else ex.executeStep c

def executeChain (ex : Executor) (commands : List Command) : Course (List Outcome) :=
  inOrder ex.stepDelay ex.execute commands

end Executor

end VoiceCommand
