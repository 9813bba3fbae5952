import VoiceCommand.Session.Hearing

/-! A session that is fed through a queue. The sender waits between its segments and also while the
queue is full; the session takes a segment out whenever it is idle, and otherwise lets its timer run
out. -/
namespace VoiceCommand

structure Sending where
  delay : Nat
  text : String
  deriving DecidableEq, Repr

namespace Session

def queueSize : Nat := 32

def idleUntil (s : Session) (time : Nat) : Course Unit :=
  match s.deadline with
  | some d =>
    if s.clock < time ∧ d.time < time then do
      Course.wait (d.time - s.clock)
      s.fire d.timer
      Course.wait (time - max d.time s.clock)
    else Course.wait (time - s.clock)
  | none => Course.wait (time - s.clock)

/-- Serves the queue until the sender closes it. `sent` is the time of the previous sending, and `taken`
are the times at which the last segments were taken out, the oldest first: each left a free place. -/
def serve (s : Session) (sent : Nat) (taken : List Nat) (closing : Nat) : List Sending → Session
  | [] => (s.follow (s.idleUntil (sent + closing))).1
  | x :: rest =>
    let received := sent + x.delay
    let full := queueSize ≤ taken.length
    let sent := if full then max received (taken.headD 0) else received
    let idle := (s.follow (s.idleUntil sent)).1
    let next := (idle.follow (idle.hearSegment ⟨x.text,received⟩)).1
    next.serve sent ((if full then taken.drop 1 else taken) ++ [idle.clock]) closing rest

end Session

end VoiceCommand
