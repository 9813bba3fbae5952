import VoiceCommand.Files.Disk

/-! Two programs at a time on one disk. At every turn one of them performs its next operation; one that has to wait
for a lock, or is done, lets its turn pass. -/
namespace VoiceCommand

inductive Side where
  | left
  | right
  deriving DecidableEq, Repr

structure Deed where
  side : Side
  op : FileOp
  reply : op.Reply

structure Race (α : Type) where
  program : Side → Program α
  disk : Disk
  log : List Deed

namespace Race

def start (programs : Side → Program α) (d : Disk) : Race α := ⟨programs,d,[]⟩

def turn (r : Race α) (side : Side) : Race α :=
  match r.program side with
  | .done _ => r
  | .step op next =>
    if r.disk.blocks op then r
    else
      let (reply,disk) := r.disk.perform op
      ⟨fun other => if other = side then next reply else r.program other,disk,r.log ++ [⟨side,op,reply⟩]⟩

def run (r : Race α) (schedule : List Side) : Race α := schedule.foldl turn r

def result? (r : Race α) (side : Side) : Option α :=
  match r.program side with
  | .done a => some a
  | .step _ _ => none

end Race

end VoiceCommand
