import VoiceCommand.Executor
import VoiceCommand.Parser.Basic
import VoiceCommand.WakeWord

/-! The state of a session for one user. It holds the whole past, and all of the state that changes
follows from the actions of the past, one by one. -/
namespace VoiceCommand

structure Deadline where
  time : Nat
  timer : Timer
  deriving DecidableEq, Repr

structure Session where
  registry : Registry
  wakeWord : WakeWord
  parser : Parser
  confirmation : Option Prompt
  settings : SessionSettings
  /-- The instant at which the clock of the session showed zero. -/
  epoch : Timestamp
  past : List Action
  clock : Nat
  phase : Phase
  deadline : Option Deadline
  lastHit : Option Nat
  /-- Start and end of the most recent run. -/
  lastRun : Option (Nat × Nat)
  undo : List UndoAction
  store : Store

namespace Session

def new (registry : Registry) (wakeWord : WakeWord) (parser : Parser) (store : Store)
    (settings : SessionSettings) (confirmation : Option Prompt) (epoch : Timestamp) : Session :=
  ⟨registry,wakeWord,parser,confirmation,settings,epoch,[],0,.inactive,none,none,none,[],
    store⟩

def parserOf (settings : ParserSettings) (classifierOf : SemanticSettings → Classifier) : Parser :=
  let parser := Parser.new settings.minConfidence
  match settings.semantic with
  | some s => parser.withSemantic (classifierOf s) s.minConfidence s.timeout
  | none => parser

def ofConfig (config : Config) (registry : Registry) (classifierOf : SemanticSettings → Classifier)
    (confirmation : Option Prompt) (epoch : Timestamp) : Session :=
  let registry := registry.loadDisabled config.disabledIntents
  let parser := (parserOf config.parser classifierOf).withExtensions registry.extensionNames
  new registry (.ofSettings config.wakeWord) parser config.customCommands config.session confirmation
    epoch

def change (s : Session) : Action → Session
  | .elapse ms => { s with clock := s.clock + ms }
  | .credit name => { s with store := s.store.recordUse name (s.epoch.later s.clock) }
  | .wake => { s with lastHit := some s.clock }
  | .enter phase => { s with phase := phase }
  | .arm timer after => { s with deadline := some ⟨s.clock + after,timer⟩ }
  | .disarm => { s with deadline := none }
  | .keepUndo actions => { s with undo := actions }
  | .ranSince start => { s with lastRun := some (start,s.clock) }
  | .call _ | .put _ | .ask _ _ | .classify _ | .report _ | .ignore _ => s

def apply (s : Session) (action : Action) : Session :=
  let next := s.change action
  { next with past := next.past ++ [action] }

def after (s : Session) (actions : List Action) : Session := actions.foldl apply s

def follow (s : Session) (c : Course α) : Session × α :=
  let (actions,a) := c s.past
  (s.after actions,a)

end Session

inductive Event where
  | entered (phase : Phase)
  | finished (outcome : Outcome)
  | ignored (text : String)
  deriving DecidableEq, Repr

namespace Event

def ofAction? : Action → Option Event
  | .enter phase => some (.entered phase)
  | .report outcome => some (.finished outcome)
  | .ignore text => some (.ignored text)
  | _ => none

def ofHistory (actions : List Action) : List Event := actions.filterMap ofAction?

end Event

end VoiceCommand
