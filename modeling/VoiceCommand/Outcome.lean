import VoiceCommand.Command

/-! What became of an executed command, and the actions that would reverse it. Undo actions are
plain data; whether to offer or run them is for the caller to decide. -/
namespace VoiceCommand

structure UndoAction where
  intent : Intent
  entities : Entities
  description : String
  deriving DecidableEq, Repr

namespace UndoAction

def inverseOf? (c : Command) : Option UndoAction :=
  c.intent.inverse?.map fun i => ⟨i,c.entities,"Undo " ++ c.displayName⟩

def toCommand (u : UndoAction) : Command :=
  { Command.new u.intent u.description .pattern with
    entities := u.entities
    displayName := u.description }

end UndoAction

structure Outcome where
  success : Bool
  message : String
  nanoseconds : Nat
  undo : Option UndoAction
  deriving DecidableEq, Repr

namespace Outcome

def succeeded (message : String) : Outcome := ⟨true,message,0,none⟩

def failed (message : String) : Outcome := ⟨false,message,0,none⟩

def undoActions (outcomes : List Outcome) : List UndoAction :=
  (outcomes.reverse.filter (·.success)).filterMap (·.undo)

def nanosecondsOf (ms : Nat) : Nat := ms * 1000000

def fractionText (rest scale : Nat) : List Char :=
  let width := (Nat.toDigits 10 scale).length - 1
  let ds := Nat.toDigits 10 rest
  let padded := List.replicate (width - ds.length) '0' ++ ds
  if rest = 0 then [] else '.' :: (padded.reverse.dropWhile (· == '0')).reverse

/-- A duration in the largest unit in which it is at least one. -/
def durationText (nanoseconds : Nat) : String :=
  let inUnit (scale : Nat) (unit : String) :=
    String.ofList (Nat.toDigits 10 (nanoseconds / scale) ++
      fractionText (nanoseconds % scale) scale) ++ unit
  if 1000000000 ≤ nanoseconds then inUnit 1000000000 "s"
  else if 1000000 ≤ nanoseconds then inUnit 1000000 "ms"
  else if 1000 ≤ nanoseconds then inUnit 1000 "µs"
  else inUnit 1 "ns"

end Outcome

end VoiceCommand
