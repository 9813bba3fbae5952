import VoiceCommand.Binary64.Decimal

/-! Documents as they are read: values, lists and tables, and the places where reading broke off. A
document that is malformed somewhere is still a value up to that place, so that whoever reads it in
order meets the first fault first. -/
namespace VoiceCommand.Document

inductive Fault where
  | shape
  | malformed
  | ended
  deriving DecidableEq, Repr

inductive Beginning where
  | nothing
  | text
  | scalar
  deriving DecidableEq, Repr

inductive Ending where
  | closed
  | broken (afterComma : Bool) (fault : Fault)
  deriving DecidableEq, Repr

inductive Value where
  | null
  | bool (b : Bool)
  | integer (i : Int)
  | real (x : Binary64)
  | text (s : String)
  | list (items : List Value) (ending : Ending)
  | table (members : List (Option String × Value)) (ending : Ending)
  /-- A fault for whoever reads the value, and the fault, if any, for whoever passes over it. -/
  | faulty (beginning : Beginning) (read : Fault) (skipped : Option Fault)

namespace Ending

def fault? : Ending → Option Fault
  | closed => none
  | broken _ fault => some fault

def overrun? : Ending → Option Fault
  | closed => none
  | broken true _ => some .malformed
  | broken false fault => some fault

end Ending

namespace Value

mutual

def skipped? : Value → Option Fault
  | faulty _ _ skipped => skipped
  | list items ending => skippedItems? items <|> ending.fault?
  | table members ending => skippedMembers? members <|> ending.fault?
  | _ => none

def skippedItems? : List Value → Option Fault
  | [] => none
  | v :: vs => v.skipped? <|> skippedItems? vs

def skippedMembers? : List (Option String × Value) → Option Fault
  | [] => none
  | (_,v) :: ms => v.skipped? <|> skippedMembers? ms

end

mutual

/-- The first fault that is met when the whole value is read, with so many levels of lists and tables
at most. -/
def held? (levels : Nat) : Value → Option Fault
  | faulty _ read _ => some read
  | list items ending =>
    match levels with
    | 0 => some .malformed
    | levels + 1 => heldItems? levels items <|> ending.fault?
  | table members ending =>
    match levels with
    | 0 => some .malformed
    | levels + 1 => heldMembers? levels members <|> ending.fault?
  | _ => none

def heldItems? (levels : Nat) : List Value → Option Fault
  | [] => none
  | v :: vs => v.held? levels <|> heldItems? levels vs

def heldMembers? (levels : Nat) : List (Option String × Value) → Option Fault
  | [] => none
  | (none,_) :: _ => some .malformed
  | (some _,v) :: ms => v.held? levels <|> heldMembers? levels ms

end

end Value

end VoiceCommand.Document
