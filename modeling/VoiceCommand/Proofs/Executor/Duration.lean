import Mathlib.Algebra.BigOperators.Group.List.Basic
import Mathlib.Algebra.Ring.Nat
import VoiceCommand.Proofs.Executor.Expansion

/-! How long executions take. A chain takes the time of the answers that it waits for and a pause in front of each
command but the first, and a custom command in it does so with its steps. -/
namespace VoiceCommand.Executor
open Course (waiting elapsedWaiting)

/-- How long it takes to answer an action: the handler of a called command, or the user who is asked. -/
def delay (ex : Executor) (past : List Action) : Action → Nat
  | .call c =>
    match (ex.registry.entryFor? c).bind (·.handler) with
    | some handler => (handler.respond past c).1
    | none => 0
  | .put question =>
    match ex.confirmation with
    | some prompt => (prompt.respond past question).1
    | none => 0
  | _ => 0

def answering (ex : Executor) : List Action → List Action → Nat
  | _, [] => 0
  | past, a :: rest => ex.delay past a + answering ex (past ++ [a]) rest

theorem answeringAppend (ex : Executor) (past first second : List Action) :
    ex.answering past (first ++ second) = ex.answering past first + ex.answering (past ++ first) second := by
  induction first generalizing past with
  | nil => simp [answering]
  | cons a rest ih =>
    simp only [List.cons_append,answering,ih,List.append_assoc,List.nil_append]
    omega

theorem answeringWaiting (ex : Executor) (past : List Action) (ms : Nat) : ex.answering past (waiting ms) = 0 := by
  unfold waiting
  split <;> rfl

theorem calledTime {ex : Executor} {c : Command} {e : Entry} (dispatched : ex.registry.entryFor? c = some e)
    (past : List Action) : elapsed (callHandler e c past).1 = ex.answering past (callHandler e c past).1 := by
  unfold callHandler
  cases handled : e.handler with
  | none => rfl
  | some handler =>
    have own : ex.delay past (.call c) = (handler.respond past c).1 := by
      simp only [delay,dispatched,Option.bind_some,handled]
    simp only [Course.bindRun,Course.callRun]
    cases (handler.respond past c).2 <;>
      simp [elapsed,elapsedWaiting,answering,own,answeringWaiting]

theorem confirmedTime (ex : Executor) (c : Command) (past : List Action) :
    elapsed (ex.confirm c past).1 = ex.answering past (ex.confirm c past).1 := by
  unfold confirm
  cases asked : ex.confirmation with
  | none => rfl
  | some prompt =>
    have own : ex.delay past (.put (c.displayName ++ "?")) =
        (prompt.respond past (c.displayName ++ "?")).1 := by simp only [delay,asked]
    have answered (before : List Action) (answer : Bool) :
        ex.delay before (.ask (c.displayName ++ "?") answer) = 0 := rfl
    simp [Course.askRun,Course.asking,elapsed,elapsedAppend,elapsedWaiting,answering,answeringAppend,own,
      answeringWaiting,answered]

theorem triedTime (ex : Executor) (c : Command) (past : List Action) :
    elapsed (ex.tryExecute c past).1 = ex.answering past (ex.tryExecute c past).1 := by
  unfold tryExecute
  cases dispatched : ex.registry.entryFor? c with
  | none => rfl
  | some e =>
    have called := calledTime dispatched
    simp only
    cases e.enabled with
    | false => rfl
    | true =>
      cases (c.missing e.required).head? with
      | some key => rfl
      | none =>
        cases e.needsConfirmation with
        | false => exact called past
        | true =>
          have asked := confirmedTime ex c past
          simp only [Bool.not_true,Bool.false_eq_true,if_false,if_true,Course.bindRun]
          cases (ex.confirm c past).2 with
          | false => simpa using asked
          | true => simp only [if_true,elapsedAppend,answeringAppend,asked,called]

section
variable {ex : Executor} (inner : List Action → Command → Nat)

/- The induction is on what was executed; a pause and all of the rest come behind each success. -/
theorem executedTime {past done work outcomes} (h : Executed ex past done work outcomes)
    (each : ∀ c ∈ done, ∀ past, elapsed (ex.execute c past).1 =
      ex.answering past (ex.execute c past).1 + ex.stepDelay * inner past c) :
    elapsed work = ex.answering past work + ex.stepDelay * (done.length - 1 +
      (done.mapIdx fun i c => inner (ex.reached past done i) c).sum) := by
  induction h with
  | last past c => simpa [reachedFirst] using each c List.mem_cons_self past
  | @next past c rest work outcomes succeeded later ih =>
    have own := each c List.mem_cons_self past
    have behind := ih fun d mem => each d (List.mem_cons_of_mem _ mem)
    have placed : (rest.mapIdx fun i d => inner (ex.reached past (c :: rest) (i + 1)) d) =
        rest.mapIdx fun i d =>
          inner (ex.reached (past ++ (ex.execute c past).1 ++ waiting ex.stepDelay) rest i) d :=
      List.mapIdx_eq_mapIdx_iff.mpr fun i inside => by rw [reachedNext succeeded inside]
    obtain ⟨count,more⟩ : ∃ count, rest.length = count + 1 :=
      Nat.exists_eq_succ_of_ne_zero (by simpa using (executedSome later).1)
    rw [List.mapIdx_cons,List.sum_cons,reachedFirst,placed,elapsedAppend,elapsedAppend,elapsedWaiting,
      answeringAppend,answeringAppend,answeringWaiting,own,behind,List.length_cons,more]
    simp only [Nat.add_sub_cancel,Nat.mul_add,Nat.mul_one]
    omega

theorem chainTimeOf {commands : List Command} (past : List Action)
    (each : ∀ c ∈ commands, ∀ past, elapsed (ex.execute c past).1 =
      ex.answering past (ex.execute c past).1 + ex.stepDelay * inner past c) :
    let run := ex.executeChain commands past
    elapsed run.1 = ex.answering past run.1 + ex.stepDelay * (run.2.length - 1 +
      ((commands.take run.2.length).mapIdx fun i c => inner (ex.reached past commands i) c).sum) := by
  intro run
  by_cases empty : commands = []
  · have idle : run = ([],[]) := by
      simp only [run,empty]
      rfl
    simp [idle,elapsed,answering]
  obtain ⟨done,rest,split,executed,_⟩ := chainExecuted ex empty past
  have count : run.2.length = done.length := executedCount executed
  have taken : commands.take run.2.length = done := by rw [split,count,List.take_left]
  have same : (done.mapIdx fun i c => inner (ex.reached past commands i) c) =
      done.mapIdx fun i c => inner (ex.reached past done i) c :=
    List.mapIdx_eq_mapIdx_iff.mpr fun i inside => by rw [split,reachedAmong ex past rest inside]
  rw [taken,same,count]
  exact executedTime inner executed fun c mem => each c (by rw [split]; exact List.mem_append_left _ mem)

end

/-- The pauses within a command: one in front of each step that it executes but the first, if it runs a custom
command. -/
def innerPauses (ex : Executor) (past : List Action) (c : Command) : Nat :=
  if c.intent = .customAlias ∧ c.source = .alias then
    match ex.resolve c with
    | .ok custom =>
      (ex.executeChain (stepCommands (triggerOf c) custom) (past ++ [.credit custom.name])).2.length - 1
    | .error _ => 0
  else 0

/-- The pauses of a chain: one in front of each command that it executes but the first, and those within them. -/
def pauses (ex : Executor) (past : List Action) (commands : List Command) : Nat :=
  let executed := (ex.executeChain commands past).2.length
  executed - 1 + ((commands.take executed).mapIdx fun i c => ex.innerPauses (ex.reached past commands i) c).sum

theorem stepTime (ex : Executor) (c : Command) (past : List Action) :
    elapsed (ex.executeStep c past).1 = ex.answering past (ex.executeStep c past).1 := by
  rw [Gates.stepActions]
  exact triedTime ex c past

theorem aliasTime (ex : Executor) (c : Command) (past : List Action) : elapsed (ex.executeAlias c past).1 =
    ex.answering past (ex.executeAlias c past).1 + ex.stepDelay * match ex.resolve c with
      | .ok custom =>
        (ex.executeChain (stepCommands (triggerOf c) custom) (past ++ [.credit custom.name])).2.length - 1
      | .error _ => 0 := by
  cases resolved : ex.resolve c with
  | error message =>
    unfold executeAlias
    rw [resolved]
    rfl
  | ok custom =>
    have plain := (resolvedSteps resolved).2
    have each : ∀ d ∈ stepCommands (triggerOf c) custom, ∀ past, elapsed (ex.execute d past).1 =
        ex.answering past (ex.execute d past).1 + ex.stepDelay * 0 := by
      intro d mem past
      unfold execute
      rw [if_neg fun own => stepIntent plain mem own.1]
      exact stepTime ex d past
    have steps := chainTimeOf (fun _ _ => 0) (past ++ [.credit custom.name]) each
    have still {ds : List Command} : (ds.mapIdx fun _ _ => 0).sum = 0 :=
      List.sum_eq_zero fun n mem => by
        obtain ⟨i,inside,same⟩ := List.mem_mapIdx.mp mem
        exact same.symm
    rw [aliasRun plain resolved]
    simp only [elapsed,answering,delay,Nat.zero_add]
    rw [steps,still,Nat.add_zero]

theorem commandTime (ex : Executor) (c : Command) (past : List Action) : elapsed (ex.execute c past).1 =
    ex.answering past (ex.execute c past).1 + ex.stepDelay * ex.innerPauses past c := by
  unfold execute innerPauses
  split
  · exact aliasTime ex c past
  · exact stepTime ex c past

/- A chain takes the time of all answers and of all pauses. -/
theorem chainTime (ex : Executor) (commands : List Command) (past : List Action) :
    elapsed (ex.executeChain commands past).1 =
      ex.answering past (ex.executeChain commands past).1 + ex.stepDelay * ex.pauses past commands :=
  chainTimeOf ex.innerPauses past fun c _ => commandTime ex c

end VoiceCommand.Executor
