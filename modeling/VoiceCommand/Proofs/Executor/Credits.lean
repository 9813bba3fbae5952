import VoiceCommand.Proofs.Executor.Expansion

/-! Which custom commands a chain begins to run. A credit is given for each of them and for nothing else, however
early the chain is given up. -/
namespace VoiceCommand

def Action.credited? : Action → Option String
  | .credit name => some name
  | _ => none

/-- The names of the custom commands that are credited in a history, in order. -/
def credits (history : List Action) : List String := history.filterMap Action.credited?

@[simp] theorem creditsAppend (first second : List Action) :
    credits (first ++ second) = credits first ++ credits second := List.filterMap_append

theorem creditsNone {history : List Action} (uncredited : ∀ a ∈ history, a.credited? = none) :
    credits history = [] := List.filterMap_eq_nil_iff.mpr uncredited

/- A cut adds no more than a part of a wait. -/
theorem creditsCut {history : List Action} (uncredited : ∀ a ∈ history, a.credited? = none) (limit : Nat) :
    credits (cutAt limit history) = [] := by
  refine creditsNone fun a mem => ?_
  rcases memCut mem with inside | elapse
  · exact uncredited a inside
  · cases a <;> first | rfl | cases elapse

theorem waitingUncredited (ms : Nat) : ∀ a ∈ Course.waiting ms, a.credited? = none := by
  intro a mem
  rw [Course.memWaiting mem]
  rfl

namespace Executor
open Course (waiting)

/-- The custom command whose steps are run when the command is executed, unless it is refused. -/
def begins? (ex : Executor) (c : Command) : Option CustomCommand :=
  if c.intent = .customAlias ∧ c.source = .alias then (ex.resolve c).toOption else none

/-- The custom commands of a chain whose first step is reached, if the chain is given up after so many
milliseconds. -/
def begun (ex : Executor) : Nat → List Action → List Command → List CustomCommand
  | _, _, [] => []
  | limit, past, c :: rest =>
    let (actions,outcome) := ex.execute c past
    let spent := elapsed actions + ex.stepDelay
    (ex.begins? c).toList ++
      if outcome.success ∧ spent ≤ limit then
        ex.begun (limit - spent) (past ++ actions ++ waiting ex.stepDelay) rest
      else []

/- Whether it is cut or not, an execution begins with its credit or has none. -/
theorem executeCredits (ex : Executor) (c : Command) (past : List Action) (limit : Nat) :
    credits (cutAt limit (ex.execute c past).1) = (ex.begins? c).toList.map (·.name) := by
  unfold execute begins?
  split
  · cases resolved : ex.resolve c with
    | error message =>
      rw [executeAlias,resolved]
      rfl
    | ok custom =>
      have plain := (resolvedSteps resolved).2
      rw [aliasRun plain resolved past]
      have rest : credits (cutAt limit (ex.executeChain (stepCommands (triggerOf c) custom)
          (past ++ [.credit custom.name])).1) = [] := by
        refine creditsCut (fun a mem => ?_) limit
        have own := (stepsDo plain ex (triggerOf c) _ a mem).1
        cases a <;> first | rfl | exact absurd rfl (own _)
      exact congrArg (custom.name :: ·) rest
  · refine creditsCut ?_ limit
    exact stepOnly (p := fun a => a.credited? = none) (fun _ => rfl) (fun _ => rfl) (fun _ _ => rfl) rfl ex past

theorem pausedCredits (ex : Executor) (c : Command) (past : List Action) (limit : Nat) :
    credits (cutAt limit ((ex.execute c past).1 ++ waiting ex.stepDelay)) = (ex.begins? c).toList.map (·.name) := by
  have whole := executeCredits ex c past (elapsed (ex.execute c past).1)
  rw [cutWhole (Nat.le_refl _)] at whole
  rw [cutAppend]
  split
  · rw [creditsAppend,whole,creditsCut (waitingUncredited _),List.append_nil]
  · exact executeCredits ex c past limit

/- Command by command, each with what is left of the limit. -/
theorem chainBegun (ex : Executor) (commands : List Command) (past : List Action) (limit : Nat) :
    credits (cutAt limit (ex.executeChain commands past).1) = (ex.begun limit past commands).map (·.name) := by
  unfold executeChain
  induction commands generalizing past limit with
  | nil => rfl
  | cons c rest ih =>
    cases rest with
    | nil => simpa [inOrder,begun] using executeCredits ex c past limit
    | cons d rest =>
      have paused := pausedCredits ex c past limit
      have spent : elapsed ((ex.execute c past).1 ++ waiting ex.stepDelay) =
          elapsed (ex.execute c past).1 + ex.stepDelay := by
        rw [elapsedAppend,Course.elapsedWaiting]
      rw [inOrderCons,begun,List.map_append]
      split
      · rename_i succeeded
        simp only [succeeded,true_and]
        rw [← List.append_assoc,cutAppend,spent]
        split
        · rename_i inTime
          rw [cutWhole (Nat.le_trans (Nat.le_of_eq spent) inTime)] at paused
          rw [creditsAppend,paused,ih]
        · rw [paused,List.map_nil,List.append_nil]
      · rename_i failed
        rw [if_neg fun both => failed both.1,executeCredits,List.map_nil,List.append_nil]

theorem begunStored {ex : Executor} {store : Store} (kept : ex.store = some store) (limit : Nat)
    (past : List Action) (commands : List Command) : ∀ custom ∈ ex.begun limit past commands, custom ∈ store := by
  induction commands generalizing limit past with
  | nil => simp [begun]
  | cons c rest ih =>
    intro custom mem
    rcases List.mem_append.mp mem with own | later
    · rw [begins?] at own
      split at own
      · cases resolved : ex.resolve c with
        | error message => simp [resolved,Except.toOption] at own
        | ok other =>
          have same : custom = other := by simpa [resolved,Except.toOption] using own
          rw [same]
          exact (resolvedRunnable kept resolved).stored
      · cases own
    · split at later
      · exact ih _ _ custom later
      · cases later

end Executor

end VoiceCommand
