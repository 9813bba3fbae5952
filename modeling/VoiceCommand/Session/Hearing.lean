import VoiceCommand.Session.Basic

/-! What a session does with speech and with time. It handles one text at a time; a text that arrives
during a run is dropped, never queued, and a cancel phrase ends everything. -/
namespace VoiceCommand

def cancelPhrases : List String := ["cancel","never mind","stop","dismiss","forget it"]

def isCancelPhrase (text : String) : Bool :=
  cancelPhrases.contains (Text.lower (Text.normalize text))

structure Segment where
  text : String
  received : Nat
  deriving DecidableEq, Repr

namespace Session
open Course (perform)

def enterListening (s : Session) : Course Unit := do
  perform (.enter (.listening (s.epoch.later (← Course.now))))
  perform (.arm .listening (s.settings.listeningTimeout * 1000))

def deactivate (s : Session) : Course Unit := do
  perform .disarm
  if s.phase.isInactive then return ()
  else perform (.enter .inactive)

def activate (s : Session) : Course Unit :=
  if s.phase.isBusy then return () else s.enterListening

def chains (s : Session) : Bool := s.settings.chaining && s.registry.isEnabled .chainedCommand

def recognise (s : Session) (text : String) : Course (Except CommandError (List Command)) := do
  if s.chains then
    let commands ← s.parser.parseChain s.store text
    return if commands.isEmpty then .error (.unrecognized text) else .ok commands
  else
    return (← s.parser.parse s.store text).map fun command => [command]

def executor (s : Session) : Executor :=
  ⟨s.registry,s.confirmation,some s.store,s.settings.stepDelay⟩

def describe (commands : List Command) : String :=
  ", then ".intercalate (commands.map (·.displayName))

/-- The phase in which a run ends. A lone command that fails reports its own message, a chain names the
step. -/
def verdict (commands : List Command) (outcomes : List Outcome) : Phase :=
  match chainFailure? commands outcomes with
  | some e =>
    if commands.length = 1 then .error ((outcomes.getLast?.map (·.message)).getD "")
    else .error e.message
  | none => .completed true (", ".intercalate (outcomes.map (·.message)))

def finish (commands : List Command) (outcomes : List Outcome) : Course Unit := do
  perform (.keepUndo (Outcome.undoActions outcomes))
  outcomes.forM fun outcome => perform (.report outcome)
  perform (.enter (verdict commands outcomes))

def execute (s : Session) (commands : List Command) : Course Unit := do
  perform (.enter (.executing (describe commands)))
  let limit := s.settings.executionTimeout
  match ← Course.within (limit * 1000) (s.executor.executeChain commands) with
  | some outcomes => finish commands outcomes
  | none => do
    perform (.keepUndo [])
    perform (.enter (.error (CommandError.timeout limit).message))

def run (s : Session) (text : String) : Course Unit := do
  let start ← Course.now
  perform (.enter (.processing text))
  match ← s.recognise text with
  | .ok commands => s.execute commands
  | .error e => perform (.enter (.error e.message))
  perform (.ranSince start)
  perform (.arm .result s.settings.resultDisplay)

def process (s : Session) (text : String) : Course Unit := do
  perform .disarm
  if isCancelPhrase text then perform (.enter .inactive)
  else s.run text

def hear (s : Session) (text : String) : Course Unit :=
  let text := Text.trim text
  if text.isEmpty then return ()
  else if isCancelPhrase text then s.deactivate
  else if s.phase.isBusy then perform (.ignore text)
  else if s.phase.isListening then s.process text
  else match s.wakeWord.detect? s.lastHit s.clock text with
    | some hit => do
      perform .wake
      s.enterListening
      if hit.remainder.isEmpty then return () else s.process hit.remainder
    | none => if s.phase.isShowingResult then s.process text else return ()

/-- Whether something that arrived at this time arrived during the last run. -/
def missed (s : Session) (received : Nat) : Bool :=
  s.lastRun.any fun (start,stop) => start ≤ received && received < stop

def hearSegment (s : Session) (segment : Segment) : Course Unit :=
  if s.missed segment.received then perform (.ignore segment.text) else s.hear segment.text

def fire (s : Session) (timer : Timer) : Course Unit := do
  perform .disarm
  match timer with
  | .listening => if s.phase.isListening then perform (.enter .inactive) else return ()
  | .result => if s.phase.isShowingResult then perform (.enter .inactive) else return ()

def tick (s : Session) : Course Bool :=
  match s.deadline with
  | none => return false
  | some d => do
    Course.wait (d.time - s.clock)
    s.fire d.timer
    return true

end Session

end VoiceCommand
