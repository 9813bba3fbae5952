import VoiceCommand.Outcome
import VoiceCommand.Phase

/-! What happens in a session. Everything that its collaborators or its observers could notice is an
action, and so is the passing of time; a list of actions is a history, the oldest first. -/
namespace VoiceCommand

inductive Timer where
  | listening
  | result
  deriving DecidableEq, Repr

inductive Action where
  | elapse (ms : Nat)
  | call (command : Command)
  | put (question : String)
  | ask (question : String) (answer : Bool)
  | classify (text : String)
  | credit (name : String) -- a custom command of this name begins
  | wake
  | enter (phase : Phase)
  | arm (timer : Timer) (after : Nat)
  | disarm
  | report (outcome : Outcome)
  | ignore (text : String)
  | keepUndo (actions : List UndoAction)
  | ranSince (start : Nat)
  deriving DecidableEq, Repr

def elapsed : List Action → Nat
  | [] => 0
  | .elapse ms :: rest => ms + elapsed rest
  | _ :: rest => elapsed rest

/-- The part of a history that fits into `limit` milliseconds. A wait that would last longer is cut
short, and nothing comes after it. -/
def cutAt : Nat → List Action → List Action
  | _, [] => []
  | limit, .elapse ms :: rest =>
    if ms ≤ limit then .elapse ms :: cutAt (limit - ms) rest else [.elapse limit]
  | limit, action :: rest => action :: cutAt limit rest

/-- A course of events with a result: what happens next, given all that happened before. -/
def Course (α : Type) : Type := List Action → List Action × α

namespace Course

def pure (a : α) : Course α := fun _ => ([],a)

def bind (c : Course α) (next : α → Course β) : Course β := fun past =>
  let (first,a) := c past
  let (second,b) := next a (past ++ first)
  (first ++ second,b)

instance : Monad Course where
  pure := Course.pure
  bind := Course.bind

def perform (action : Action) : Course Unit := fun _ => ([action],())

def past : Course (List Action) := fun past => ([],past)

def now : Course Nat := fun past => ([],elapsed past)

def wait (ms : Nat) : Course Unit := fun _ => (if ms = 0 then [] else [.elapse ms],())

def within (limit : Nat) (c : Course α) : Course (Option α) := fun past =>
  let (actions,a) := c past
  if elapsed actions ≤ limit then (actions,some a) else (cutAt limit actions,none)

end Course

end VoiceCommand
