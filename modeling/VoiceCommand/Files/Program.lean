/-! What a program does with files, one operation after another, as data. An interpreter gives each
operation its reply. -/
namespace VoiceCommand

inductive FileOp where
  | present (path : String)
  | read (path : String)
  | makeFolders (path : String)
  | create (path : String)
  | lock (path : String)
  | unlock (path : String)
  | write (path : String) (text : String)
  | sync (path : String) -- waits until the text of a file is stored
  | rename (source target : String)
  deriving DecidableEq, Repr

/-- A read gives the text of a file that can be read. The reply of any other operation tells whether it
succeeded. -/
abbrev FileOp.Reply : FileOp → Type
  | read _ => Option String
  | _ => Bool

inductive Program (α : Type) where
  | done (a : α)
  | step (op : FileOp) (next : op.Reply → Program α)

namespace Program

def bind : Program α → (α → Program β) → Program β
  | done a, f => f a
  | step op next, f => step op fun reply => (next reply).bind f

instance : Monad Program where
  pure := done
  bind := bind

end Program

abbrev FileTask := ExceptT String Program

namespace FileTask

def perform (op : FileOp) : FileTask op.Reply := ExceptT.lift (.step op .done)

def fail (message : String) : FileTask α := throw message

def require (succeeded : Bool) (message : String) : FileTask Unit :=
  if succeeded then pure () else fail message

end FileTask

end VoiceCommand
