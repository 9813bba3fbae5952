import VoiceCommand.Session.Hearing

/-! The calls by which a session is driven from outside, one after another. -/
namespace VoiceCommand

inductive Call where
  | hear (text : String)
  | hearSegment (segment : Segment)
  | activate
  | deactivate
  | tick
  /-- So many milliseconds pass; no timer runs out. -/
  | idle (ms : Nat)
  | setEnabled (intent : Intent) (enabled : Bool)
  deriving DecidableEq, Repr

namespace Session

def course (s : Session) : Call → Course Unit
  | .hear text => s.hear text
  | .hearSegment segment => s.hearSegment segment
  | .activate => s.activate
  | .deactivate => s.deactivate
  | .tick => do
    let _ ← s.tick
    return ()
  | .idle ms => Course.wait ms
  | .setEnabled _ _ => return ()

def adjust (s : Session) : Call → Session
  | .setEnabled intent enabled => { s with registry := s.registry.setEnabled intent enabled }
  | _ => s

def call (s : Session) (c : Call) : Session := (s.adjust c).after (s.course c s.past).1

def calls (s : Session) (cs : List Call) : Session := cs.foldl call s

end Session

end VoiceCommand
