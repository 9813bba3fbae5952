import VoiceCommand.Files.Disk

/-! Programs on a disk, run to their end. One after another, the second begins on the disk that the first leaves. -/
namespace VoiceCommand

variable {α β : Type}

instance : LawfulMonad Program := LawfulMonad.mk' Program
  (fun p => by
    induction p with
    | done a => rfl
    | step op next ih => exact congrArg (Program.step op) (funext ih))
  (fun _ _ => rfl)
  (fun p f g => by
    induction p with
    | done a => rfl
    | step op next ih => exact congrArg (Program.step op) (funext ih))

theorem Program.stepRun (op : FileOp) (next : op.Reply → Program α) (d : Disk) :
    (step op next).run d = (next (d.perform op).1).run (d.perform op).2 := rfl

theorem Program.runBind (p : Program α) (next : α → Program β) (d : Disk) :
    (p >>= next).run d = (next (p.run d).1).run (p.run d).2 := by
  induction p generalizing d with
  | done a => rfl
  | step op rest ih => exact ih (d.perform op).1 (d.perform op).2

theorem FileTask.runBind {t : FileTask α} {d e : Disk} {a : α} (h : t.run.run d = (.ok a,e))
    (next : α → FileTask β) : (t >>= next).run.run d = (next a).run.run e := by
  refine (Program.runBind t.run _ d).trans ?_
  rw [h]
  rfl

/-- Whether an operation does what it is there for. To look whether there is anything cannot fail. -/
def FileOp.succeeds : (op : FileOp) → op.Reply → Bool
  | .present _, _ => true
  | .read _, text => Option.isSome text
  | .makeFolders _, done | .create _, done | .lock _, done => done
  | .unlock _, done | .write _ _, done | .sync _, done | .rename _ _, done => done

/-- Whether every operation of a program does, one after another. -/
def Program.succeeds : Program α → Disk → Bool
  | .done _, _ => true
  | .step op next, d =>
    let (reply,d) := d.perform op
    op.succeeds reply && (next reply).succeeds d

theorem Program.stepSucceeds {op : FileOp} {next : op.Reply → Program α} {d : Disk}
    (h : (step op next).succeeds d = true) : op.succeeds (d.perform op).1 = true ∧
      (next (d.perform op).1).succeeds (d.perform op).2 = true := Bool.and_eq_true_iff.mp h

end VoiceCommand
