import VoiceCommand.Proofs.Executor.Actions
import VoiceCommand.Proofs.Executor.Gates

/-! Steps of custom commands. They run only under a credit to their custom command, and a credit is only
given while custom commands are enabled and to one that is enabled itself. -/
namespace VoiceCommand.Executor
open Course (Only)
open Gates (Guarded isCall guardedUncalled guardedAppend guardedWeaken)

structure Runnable (registry : Registry) (store : Store) (custom : CustomCommand) : Prop where
  allowed : registry.isEnabled .customAlias = true
  stored : custom ∈ store
  enabled : custom.enabled = true

/-- The command is a step of a custom command that may run and that was credited before. -/
def Credited (registry : Registry) (store : Store) (before : List Action) (c : Command) : Prop :=
  ∃ custom trigger, Runnable registry store custom ∧ .credit custom.name ∈ before ∧
    c ∈ stepCommands trigger custom

theorem resolvedSource {ex : Executor} {c : Command} {custom : CustomCommand}
    (h : ex.resolve c = .ok custom) : ∃ store, ex.store = some store ∧
      store.triggered? (triggerOf c) = some custom ∧ Runnable ex.registry store custom := by
  unfold resolve at h
  cases allowed : ex.registry.isEnabled .customAlias with
  | false => simp [allowed] at h
  | true =>
    simp only [allowed,Bool.not_true,Bool.false_eq_true,if_false] at h
    cases kept : ex.store with
    | none => simp [kept] at h
    | some store =>
      simp only [kept] at h
      cases found : store.triggered? (triggerOf c) with
      | none => simp [found] at h
      | some other =>
        simp only [found] at h
        split at h
        · simp at h
        · split at h
          · simp at h
          · cases Except.ok.inj h
            have fits := List.find?_some found
            simp only [Bool.and_eq_true] at fits
            exact ⟨store,rfl,found,allowed,List.mem_of_find?_eq_some found,fits.1⟩

theorem inOrderGuarded {p : List Action → Command → Prop} {pause : Nat}
    {execute : Command → Course Outcome} {commands : List Command}
    (later : ∀ front before c, p before c → p (front ++ before) c)
    (each : ∀ c ∈ commands, ∀ past, Guarded p (execute c past).1) (past : List Action) :
    Guarded p (inOrder pause execute commands past).1 := by
  induction commands generalizing past with
  | nil => exact guardedUncalled (by simp [inOrder])
  | cons c rest ih =>
    have first := each c List.mem_cons_self past
    have tail := ih fun d mem => each d (List.mem_cons_of_mem _ mem)
    cases rest with
    | nil => simpa [inOrder] using first
    | cons d rest =>
      simp only [inOrder,Course.bindRun]
      refine guardedAppend first ?_
      split
      · simp only [Course.bindRun,Course.waitRun,Course.pureRun,List.append_nil]
        refine guardedAppend (guardedUncalled Gates.waitingUncalled) ?_
        exact guardedWeaken (tail _) fun before c h => later _ _ c (later _ before c h)
      · exact guardedUncalled (by simp)

/- The steps are called behind the credit, each for the command that the custom command makes of it. -/
theorem aliasSteps (ex : Executor) (c : Command) (past : List Action) :
    Guarded (fun before d => ∃ custom, ex.resolve c = .ok custom ∧ .credit custom.name ∈ before ∧
      d ∈ stepCommands (triggerOf c) custom) (ex.executeAlias c past).1 := by
  unfold executeAlias
  cases resolved : ex.resolve c with
  | error message => exact guardedUncalled (by simp)
  | ok custom =>
    simp only [Course.bindRun,Course.nowRun,Course.performRun,Course.pureRun,List.nil_append,
      List.append_nil]
    refine guardedAppend (guardedUncalled (by simp [isCall])) fun before d after split => ?_
    have steps : Only (fun a => ∀ d, a = .call d → d ∈ stepCommands (triggerOf c) custom)
        (inOrder ex.stepDelay ex.executeStep (stepCommands (triggerOf c) custom)) :=
      inOrderOnly (by simp) fun d mem =>
        stepOnly (by simp) (by simp) (by simp) (fun e same => Action.call.inj same ▸ mem) ex
    exact ⟨custom,rfl,by simp,steps _ (.call d) (by rw [split]; simp) d rfl⟩

/- A command that bears the source of a custom command without being one does not come from
recognition; the others reach their handler through `executeAlias` or not under that source. -/
theorem chainSteps (ex : Executor) {commands : List Command}
    (sources : ∀ c ∈ commands, c.source = .alias → c.intent = .customAlias) (past : List Action) :
    Guarded (fun before d => d.source = .alias → ∃ c ∈ commands, c.source = .alias ∧
      ∃ custom, ex.resolve c = .ok custom ∧ .credit custom.name ∈ before ∧
        d ∈ stepCommands (triggerOf c) custom) (ex.executeChain commands past).1 := by
  refine inOrderGuarded ?_ (fun c mem past => ?_) past
  · intro front before d stepped source
    obtain ⟨c,mem,own,custom,resolved,credit,step⟩ := stepped source
    exact ⟨c,mem,own,custom,resolved,List.mem_append_right front credit,step⟩
  · unfold execute
    split
    · rename_i isAlias
      exact guardedWeaken (aliasSteps ex c past) fun _ _ stepped _ => ⟨c,mem,isAlias.2,stepped⟩
    · rename_i otherwise
      intro before d after split source
      have own : Only (fun a => ∀ d, a = .call d → d = c) (ex.executeStep c) :=
        stepOnly (by simp) (by simp) (by simp) (fun d same => (Action.call.inj same).symm) ex
      have same := own past (.call d) (by rw [split]; simp) d rfl
      subst d
      exact absurd ⟨sources c mem source,source⟩ otherwise

section
variable {ex : Executor} {store : Store} (kept : ex.store = some store)
include kept

theorem resolvedRunnable {c : Command} {custom : CustomCommand} (h : ex.resolve c = .ok custom) :
    Runnable ex.registry store custom := by
  obtain ⟨other,same,_,runnable⟩ := resolvedSource h
  rw [kept] at same
  cases Option.some.inj same
  exact runnable

theorem chainCredits (commands : List Command) : Only (fun a => ∀ name, a = .credit name →
    ∃ custom, custom.name = name ∧ Runnable ex.registry store custom) (ex.executeChain commands) := by
  refine inOrderOnly (by simp) fun c _ => ?_
  unfold execute
  split
  · refine aliasOnly (by simp) (by simp) (by simp) (fun custom resolved name same => ?_) (by simp)
    exact ⟨custom,Action.credit.inj same,resolvedRunnable kept resolved⟩
  · exact stepOnly (by simp) (by simp) (by simp) (by simp) ex

theorem chainCredited {commands : List Command}
    (sources : ∀ c ∈ commands, c.source = .alias → c.intent = .customAlias) (past : List Action) :
    Guarded (fun before d => d.source = .alias → Credited ex.registry store before d)
      (ex.executeChain commands past).1 := by
  refine guardedWeaken (chainSteps ex sources past) fun before d stepped source => ?_
  obtain ⟨c,_,_,custom,resolved,credit,step⟩ := stepped source
  exact ⟨custom,triggerOf c,resolvedRunnable kept resolved,credit,step⟩

end

end VoiceCommand.Executor
