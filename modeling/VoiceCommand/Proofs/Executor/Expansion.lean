import VoiceCommand.Proofs.Executor.Sequence

/-! Custom commands as chains. Behind the credit, a custom command does what the chain of its steps does, and its
outcome is that of the chain; only the permission to run custom commands at all is its own. -/
namespace VoiceCommand.Executor
open Course (Only)

theorem inOrderAgree {pause : Nat} {first second : Command → Course Outcome} {commands : List Command}
    (agree : ∀ c ∈ commands, first c = second c) :
    inOrder pause first commands = inOrder pause second commands := by
  induction commands with
  | nil => rfl
  | cons c rest ih =>
    have own := agree c List.mem_cons_self
    have later := ih fun d mem => agree d (List.mem_cons_of_mem _ mem)
    cases rest with
    | nil => simp only [inOrder,own]
    | cons d rest => simp only [inOrder,own,later]

theorem resolvedSteps {ex : Executor} {c : Command} {custom : CustomCommand} (h : ex.resolve c = .ok custom) :
    custom.steps ≠ [] ∧ ∀ step ∈ custom.steps, step.intent ≠ .customAlias := by
  obtain ⟨store,kept,found,runnable⟩ := resolvedSource h
  unfold resolve at h
  simp only [runnable.allowed,kept,found,Bool.not_true,Bool.false_eq_true,if_false] at h
  split at h
  · cases h
  · rename_i nonempty
    split at h
    · cases h
    · rename_i unnested
      exact ⟨fun empty => nonempty (List.isEmpty_iff.mpr empty),by simpa using unnested⟩

section
variable {custom : CustomCommand} (plain : ∀ step ∈ custom.steps, step.intent ≠ .customAlias)
include plain

theorem stepIntent {trigger : String} {c : Command} (mem : c ∈ stepCommands trigger custom) :
    c.intent ≠ .customAlias := by
  obtain ⟨step,inside,made⟩ := List.mem_map.mp mem
  rw [← made]
  exact plain step inside

/- No step is a custom command itself, so each is executed in a chain as it is behind its custom command. -/
theorem stepsChained (ex : Executor) (trigger : String) :
    inOrder ex.stepDelay ex.executeStep (stepCommands trigger custom) =
      ex.executeChain (stepCommands trigger custom) := by
  refine inOrderAgree fun c mem => ?_
  unfold execute
  rw [if_neg fun own => stepIntent plain mem own.1]

theorem resolvedFound {ex : Executor} {store : Store} {c : Command} (kept : ex.store = some store)
    (found : store.triggered? (triggerOf c) = some custom) (stepped : custom.steps ≠ []) :
    ex.resolve c = if ex.registry.isEnabled .customAlias then .ok custom
      else .error (CommandError.disabled Intent.customAlias.label).message := by
  have unnested : (custom.steps.any fun step => step.intent == .customAlias) = false := by
    simpa using plain
  unfold resolve
  simp only [kept,found,List.isEmpty_iff,stepped,unnested]
  cases ex.registry.isEnabled .customAlias <;> rfl

theorem aliasRun {ex : Executor} {c : Command} (resolved : ex.resolve c = .ok custom) (past : List Action) :
    let steps := stepCommands (triggerOf c) custom
    let chain := ex.executeChain steps (past ++ [.credit custom.name])
    ex.executeAlias c past = (.credit custom.name :: chain.1,
      { aliasOutcome custom steps chain.2 with nanoseconds := Outcome.nanosecondsOf (elapsed chain.1) }) := by
  unfold executeAlias
  simp only [resolved,stepsChained plain,Course.bindRun,Course.nowRun,Course.performRun,Course.pureRun,
    List.nil_append,List.append_nil,List.cons_append]
  generalize ex.executeChain (stepCommands (triggerOf c) custom) (past ++ [.credit custom.name]) = chain
  have time : elapsed (past ++ [.credit custom.name] ++ chain.1) - elapsed past = elapsed chain.1 := by
    simp [elapsedAppend,elapsed]
  rw [time]

/- The steps do nothing but wait, ask, and call the handlers of steps. -/
theorem stepsDo (ex : Executor) (trigger : String) (past : List Action) :
    ∀ a ∈ (ex.executeChain (stepCommands trigger custom) past).1, (∀ name, a ≠ .credit name) ∧
      ∀ d, a = .call d → d ∈ stepCommands trigger custom := by
  rw [← stepsChained plain]
  refine inOrderOnly (by simp) (fun c mem => ?_) past
  refine stepOnly (by simp) (by simp) (by simp) ⟨by simp,fun d same => ?_⟩ ex
  exact Action.call.inj same ▸ mem

end

/- An outcome of a custom command bears no failure but that of its chain. -/
theorem aliasSucceeds (custom : CustomCommand) (steps : List Command) (outcomes : List Outcome) :
    (aliasOutcome custom steps outcomes).success = true ↔ chainFailure? steps outcomes = none := by
  unfold aliasOutcome
  cases chainFailure? steps outcomes <;> simp [Outcome.failed,Outcome.succeeded]

/-- What is left of a history when its credits are passed over. -/
def uncredited (history : List Action) : List Action :=
  history.filter fun
    | .credit _ => false
    | _ => true

theorem uncreditedAppend (first second : List Action) :
    uncredited (first ++ second) = uncredited first ++ uncredited second := List.filter_append ..

theorem elapsedUncredited (history : List Action) : elapsed (uncredited history) = elapsed history := by
  induction history with
  | nil => rfl
  | cons a rest ih =>
    cases a with
    | elapse ms => exact congrArg (ms + ·) ih
    | _ => exact ih

/-- Nobody who is called on looks at the credits. -/
structure Unaware (ex : Executor) : Prop where
  handlers : ∀ c e handler, ex.registry.entryFor? c = some e → e.handler = some handler →
    ∀ past, handler.respond past c = handler.respond (uncredited past) c
  prompts : ∀ prompt, ex.confirmation = some prompt →
    ∀ past question, prompt.respond past question = prompt.respond (uncredited past) question

section
variable {first second : List Action} (same : uncredited first = uncredited second)
include same

theorem alikeBehind (actions : List Action) : uncredited (first ++ actions) = uncredited (second ++ actions) := by
  rw [uncreditedAppend,uncreditedAppend,same]

theorem alikeElapsed : elapsed first = elapsed second := by
  rw [← elapsedUncredited first,same,elapsedUncredited]

section
variable {ex : Executor} (unaware : Unaware ex)
include unaware

theorem alikeCalled {c : Command} {e : Entry} (dispatched : ex.registry.entryFor? c = some e) :
    callHandler e c first = callHandler e c second := by
  unfold callHandler
  cases handled : e.handler with
  | none => rfl
  | some handler =>
    have reply : handler.respond first c = handler.respond second c := by
      rw [unaware.handlers c e handler dispatched handled first,same,
        ← unaware.handlers c e handler dispatched handled second]
    simp only [Course.bindRun,Course.callRun,reply]
    cases (handler.respond second c).2 <;> rfl

theorem alikeConfirmed (c : Command) : ex.confirm c first = ex.confirm c second := by
  unfold confirm
  cases asked : ex.confirmation with
  | none => rfl
  | some prompt =>
    have answer := unaware.prompts prompt asked
    simp only [Course.askRun]
    rw [answer first,same,← answer second]

theorem alikeTried (c : Command) : ex.tryExecute c first = ex.tryExecute c second := by
  unfold tryExecute
  cases dispatched : ex.registry.entryFor? c with
  | none => rfl
  | some e =>
    simp only
    cases e.enabled with
    | false => rfl
    | true =>
      cases (c.missing e.required).head? with
      | some key => rfl
      | none =>
        have called := alikeCalled same unaware dispatched
        cases e.needsConfirmation with
        | false => exact called
        | true =>
          have behind := alikeBehind same (ex.confirm c second).1
          simp only [Bool.not_true,Bool.false_eq_true,if_false,if_true,Course.bindRun,
            alikeConfirmed same unaware c]
          cases (ex.confirm c second).2 with
          | false => rfl
          | true => simp only [if_true,alikeCalled behind unaware dispatched]

theorem alikeStepped (c : Command) : ex.executeStep c first = ex.executeStep c second := by
  have tried := alikeTried same unaware c
  have before := alikeElapsed same
  have behind := alikeElapsed (alikeBehind same (ex.tryExecute c second).1)
  unfold executeStep
  simp only [Course.bindRun,Course.nowRun,List.append_nil,tried,before,behind]
  cases (ex.tryExecute c second).2 <;> rfl

end

theorem alikeInOrder (pause : Nat) {execute : Command → Course Outcome} {commands : List Command}
    (each : ∀ c ∈ commands, ∀ first second, uncredited first = uncredited second →
      execute c first = execute c second) :
    inOrder pause execute commands first = inOrder pause execute commands second := by
  induction commands generalizing first second with
  | nil => rfl
  | cons c rest ih =>
    have own := each c List.mem_cons_self first second same
    have later {first second : List Action} (same : uncredited first = uncredited second) :=
      ih same fun d mem => each d (List.mem_cons_of_mem _ mem)
    cases rest with
    | nil => simp only [inOrder,Course.bindRun,own,Course.pureRun]
    | cons d rest =>
      have behind := alikeBehind (alikeBehind same (execute c second).1) (Course.waiting pause)
      rw [inOrderCons,inOrderCons]
      simp only [own,later behind]

end

/- A credit in front of the steps goes unnoticed. -/
theorem stepsUncredited {custom : CustomCommand} (plain : ∀ step ∈ custom.steps, step.intent ≠ .customAlias)
    {ex : Executor} (unaware : Unaware ex) (trigger name : String) (past : List Action) :
    ex.executeChain (stepCommands trigger custom) (past ++ [.credit name]) =
      ex.executeChain (stepCommands trigger custom) past := by
  have same : uncredited (past ++ [.credit name]) = uncredited past := by
    rw [uncreditedAppend]
    exact List.append_nil _
  rw [← stepsChained plain]
  exact alikeInOrder same ex.stepDelay fun d _ _ _ same => alikeStepped same unaware d

/- The message of a custom command names the failure of its chain, and this the place of the last outcome. -/
theorem aliasFailedAt {ex : Executor} {past : List Action} {steps : List Command}
    {chain : List Action × List Outcome} (ends : ChainEnd ex past steps chain) {custom : CustomCommand}
    (fails : (aliasOutcome custom steps chain.2).success = false) :
    ∃ i d o, i + 1 = chain.2.length ∧ steps[i]? = some d ∧ chain.2[i]? = some o ∧ o.success = false ∧
      (aliasOutcome custom steps chain.2).message = custom.name ++ ": " ++
        ("Step " ++ toString (i + 1) ++ " (" ++ d.intent.name ++ ") failed: " ++ o.message) := by
  cases named : chainFailure? steps chain.2 with
  | none =>
    rw [(aliasSucceeds custom steps chain.2).mpr named] at fails
    cases fails
  | some e =>
    obtain ⟨i,d,o,last,placed,outcome,failed,same⟩ := chainFailedAt ends named
    refine ⟨i,d,o,last,placed,outcome,failed,?_⟩
    simp only [aliasOutcome,named,same]
    rfl

/-- While custom commands are enabled, one that is found, has steps and has no custom command among them does
behind its credit what the chain of its steps does there, and what that chain does without a credit if nobody looks
at credits. It succeeds if and only if every step does, and else names the place of the step that failed. Its steps
are all that it calls and nothing else is credited. While custom commands are disabled it does nothing. -/
theorem stepsRunAsChain (ex : Executor) (store : Store) (c : Command) (custom : CustomCommand)
    (past : List Action) (kept : ex.store = some store)
    (found : store.triggered? (triggerOf c) = some custom) (stepped : custom.steps ≠ [])
    (plain : ∀ step ∈ custom.steps, step.intent ≠ .customAlias) :
    let steps := custom.steps.map fun step =>
      { Command.new step.intent (triggerOf c) .alias with
        entities := step.parameters
        displayName := Template.displayName step.intent step.parameters }
    let run := ex.executeAlias c past
    let chain := ex.executeChain steps (past ++ [.credit custom.name])
    (ex.registry.isEnabled .customAlias = true →
      run.1 = .credit custom.name :: chain.1 ∧ (Unaware ex → chain = ex.executeChain steps past) ∧
      (run.2.success = true ↔ chain.2.length = steps.length ∧ ∀ o ∈ chain.2, o.success = true) ∧
      (run.2.success = false → ∃ i d o, i + 1 = chain.2.length ∧ steps[i]? = some d ∧
        chain.2[i]? = some o ∧ o.success = false ∧ (∀ p ∈ chain.2.dropLast, p.success = true) ∧
        run.2.message = custom.name ++ ": " ++
          ("Step " ++ toString (i + 1) ++ " (" ++ d.intent.name ++ ") failed: " ++ o.message)) ∧
      ∀ a ∈ chain.1, (∀ name, a ≠ .credit name) ∧ ∀ d, a = .call d → d ∈ steps) ∧
    (ex.registry.isEnabled .customAlias = false →
      run = ([],.failed (CommandError.disabled "Custom Command").message)) := by
  intro steps run chain
  have resolved := resolvedFound plain kept found stepped
  refine ⟨fun enabled => ?_,fun disabled => ?_⟩
  · rw [if_pos enabled] at resolved
    have ran : run = (.credit custom.name :: chain.1,
        { aliasOutcome custom steps chain.2 with nanoseconds := Outcome.nanosecondsOf (elapsed chain.1) }) :=
      aliasRun plain resolved past
    have ends : ChainEnd ex (past ++ [.credit custom.name]) steps chain := chainEnds ex steps _
    have succeeds := (aliasSucceeds custom steps chain.2).trans (chainUnfailed ends)
    rw [ran]
    refine ⟨rfl,fun unaware => ?_,succeeds,fun fails => ?_,?_⟩
    · exact stepsUncredited plain unaware (triggerOf c) custom.name past
    · obtain ⟨i,d,o,last,placed,outcome,failed,message⟩ := aliasFailedAt ends fails
      exact ⟨i,d,o,last,placed,outcome,failed,chainEarlier ends,message⟩
    · exact stepsDo plain ex (triggerOf c) _
  · rw [if_neg (by simp [disabled])] at resolved
    have refused : run = ex.executeAlias c past := rfl
    rw [refused,executeAlias,resolved]
    rfl

/- The user refuses the second of three steps. -/
theorem eveningAsChain :
    let slow : Handler := ⟨fun _ c => (100,.ok (.succeeded c.displayName))⟩
    let evening := { CustomCommand.new "Evening" "evening" with
      steps := [⟨.volumeDown,.empty⟩,⟨.lockScreen,.empty⟩,⟨.volumeMute,.empty⟩] }
    let ex : Executor := ⟨⟨fun _ => ⟨true,some slow⟩,.empty⟩,some ⟨fun _ _ => (50,false)⟩,some [evening],300⟩
    let c := { Command.new .customAlias "Evening!" .alias with entities := .ofList [(triggerKey,"evening")] }
    let steps := stepCommands "evening" evening
    (ex.executeAlias c []).1 = .credit "Evening" :: (ex.executeChain steps []).1 ∧
      (ex.executeChain steps []).1 = [
        .call { Command.new .volumeDown "evening" .alias with displayName := "Volume down" },
        .elapse 100,.elapse 300,.put "Lock screen?",.elapse 50,.ask "Lock screen?" false] ∧
      (∃ d o, steps[1]? = some d ∧ (ex.executeChain steps []).2[1]? = some o ∧ (ex.executeAlias c []).2.message =
        "Evening: " ++ ("Step 2 (" ++ d.intent.name ++ ") failed: " ++ o.message)) := by
  intro slow evening ex c steps
  have unaware : Unaware ex := by
    refine ⟨fun d e handler dispatched handled past => ?_,fun prompt asked past question => ?_⟩
    · have only : handler = slow := by
        unfold Registry.entryFor? at dispatched
        split at dispatched
        · cases dispatched
        · cases Option.some.inj dispatched
          exact (Option.some.inj handled).symm
      rw [only]
    · rw [← Option.some.inj asked]
  obtain ⟨runs,_⟩ := stepsRunAsChain ex [evening] c evening [] rfl (by decide +kernel) (by decide) (by decide)
  obtain ⟨does,alike,_,fails,_⟩ := runs rfl
  have chain : ex.executeChain steps ([] ++ [.credit "Evening"]) = ex.executeChain steps [] := alike unaware
  have length : (ex.executeChain steps []).2.length = 2 := by decide +kernel
  obtain ⟨i,d,o,last,placed,outcome,_,_,message⟩ := fails (by decide +kernel)
  have second : i = 1 := by
    have count : i + 1 = (ex.executeChain steps ([] ++ [.credit "Evening"])).2.length := last
    rw [chain,length] at count
    omega
  rw [second] at placed outcome message
  refine ⟨?_,by decide +kernel,d,o,placed,?_,message⟩
  · rw [← chain]
    exact does
  · rw [← chain]
    exact outcome

/- A custom command that is found and could run is refused while custom commands as such are disabled; the chain of
its steps is not. -/
theorem hushRefused :
    let hush := { CustomCommand.new "Hush" "hush" with steps := [⟨.volumeMute,.empty⟩] }
    let quick : Handler := ⟨fun _ c => (0,.ok (.succeeded c.displayName))⟩
    let registry := (Registry.new.setHandler .volumeMute quick).setEnabled .customAlias false
    let ex : Executor := ⟨registry,none,some [hush],300⟩
    let c := { Command.new .customAlias "hush" .alias with entities := .ofList [(triggerKey,"hush")] }
    let chain := ex.executeChain (stepCommands "hush" hush) []
    Store.triggered? [hush] (triggerOf c) = some hush ∧ hush.steps ≠ [] ∧
      (∀ step ∈ hush.steps, step.intent ≠ .customAlias) ∧
      chain.1 = [.call { Command.new .volumeMute "hush" .alias with displayName := "Toggle mute" }] ∧
      (∀ o ∈ chain.2, o.success = true) ∧
      (ex.executeAlias c []).1 = [] ∧ (ex.executeAlias c []).2.success = false := by
  decide +kernel

end VoiceCommand.Executor
