import VoiceCommand.Proofs.Executor.Undo

/-! Chains command by command. A chain executes its commands from the front, each next one behind a success and a
pause; where one fails, the others are left out. -/
namespace VoiceCommand.Executor
open Course (waiting)

/-- All of these commands were executed, one after another, and each but the last succeeded. -/
inductive Executed (ex : Executor) : List Action → List Command → List Action → List Outcome → Prop where
  | last (past : List Action) (c : Command) :
      Executed ex past [c] (ex.execute c past).1 [(ex.execute c past).2]
  | next {past c rest work outcomes} (succeeded : (ex.execute c past).2.success = true)
      (later : Executed ex (past ++ (ex.execute c past).1 ++ waiting ex.stepDelay) rest work outcomes) :
      Executed ex past (c :: rest) ((ex.execute c past).1 ++ (waiting ex.stepDelay ++ work))
        ((ex.execute c past).2 :: outcomes)

theorem executedCount {ex past commands work outcomes} (h : Executed ex past commands work outcomes) :
    outcomes.length = commands.length := by
  induction h with
  | last past c => rfl
  | next succeeded later ih => simp [ih]

theorem executedSome {ex past commands work outcomes} (h : Executed ex past commands work outcomes) :
    commands ≠ [] ∧ outcomes ≠ [] := by
  cases h <;> simp

theorem executedEarlier {ex past commands work outcomes} (h : Executed ex past commands work outcomes) :
    ∀ o ∈ outcomes.dropLast, o.success = true := by
  induction h with
  | last past c => simp
  | next succeeded later ih =>
    rw [List.dropLast_cons_of_ne_nil (executedSome later).2]
    exact List.forall_mem_cons.mpr ⟨succeeded,ih⟩

/-- Nothing is left out, or the last outcome tells why. -/
def Stopped (rest : List Command) (outcomes : List Outcome) : Prop :=
  rest = [] ∨ ∃ o, outcomes.getLast? = some o ∧ o.success = false

theorem stoppedLater {rest : List Command} {o : Outcome} {outcomes : List Outcome} (nonempty : outcomes ≠ []) :
    Stopped rest (o :: outcomes) ↔ Stopped rest outcomes := by
  obtain ⟨first,others,begins⟩ := List.exists_cons_of_ne_nil nonempty
  rw [Stopped,Stopped,begins,List.getLast?_cons_cons]

theorem chainExecuted (ex : Executor) {commands : List Command} (nonempty : commands ≠ [])
    (past : List Action) : ∃ done rest, commands = done ++ rest ∧
      Executed ex past done (ex.executeChain commands past).1 (ex.executeChain commands past).2 ∧
      Stopped rest (ex.executeChain commands past).2 := by
  unfold executeChain
  induction commands generalizing past with
  | nil => exact absurd rfl nonempty
  | cons c rest ih =>
    cases rest with
    | nil => exact ⟨[c],[],rfl,by simpa [inOrder] using Executed.last past c,.inl rfl⟩
    | cons d rest =>
      rw [inOrderCons]
      cases success : (ex.execute c past).2.success with
      | false => exact ⟨[c],d :: rest,rfl,.last past c,.inr ⟨_,rfl,success⟩⟩
      | true =>
        obtain ⟨done,left,split,executed,stopped⟩ :=
          ih (by simp) (past ++ (ex.execute c past).1 ++ waiting ex.stepDelay)
        refine ⟨c :: done,left,by rw [split,List.cons_append],.next success executed,?_⟩
        exact (stoppedLater (executedSome executed).2).mpr stopped

/- The relation leaves no choice: what was executed and why it ended says what the chain does. -/
theorem executedChain {ex past done work outcomes} (h : Executed ex past done work outcomes)
    {rest : List Command} (stopped : Stopped rest outcomes) :
    ex.executeChain (done ++ rest) past = (work,outcomes) := by
  unfold executeChain
  induction h with
  | last past c =>
    cases rest with
    | nil => simp [inOrder]
    | cons d rest =>
      obtain ⟨o,last,failed⟩ := stopped.resolve_left (by simp)
      have own : (ex.execute c past).2 = o := Option.some.inj last
      rw [List.singleton_append,inOrderCons,own,failed]
      rfl
  | @next past c others work outcomes succeeded later ih =>
    obtain ⟨d,tail,begins⟩ := List.exists_cons_of_ne_nil (executedSome later).1
    have behind := ih ((stoppedLater (executedSome later).2).mp stopped)
    rw [begins,List.cons_append] at behind
    rw [begins,List.cons_append,List.cons_append,inOrderCons,if_pos succeeded,behind]

theorem failureAbsent (commands : List Command) {outcomes : List Outcome}
    (succeeded : ∀ o ∈ outcomes, o.success = true) : chainFailure? commands outcomes = none := by
  unfold chainFailure?
  cases last : outcomes.getLast? with
  | none => rfl
  | some o => simp [succeeded o (List.mem_of_getLast? last)]

/- The position of the failure is that of the last outcome, and the commands have the same position for it. -/
theorem failureNamed {earlier : List Command} (c : Command) (rest : List Command) {outcomes : List Outcome}
    {o : Outcome} (count : outcomes.length = earlier.length) (failed : o.success = false) :
    chainFailure? (earlier ++ c :: rest) (outcomes ++ [o]) =
      some (.chainFailed c.intent earlier.length o.message) := by
  simp [chainFailure?,failed,count]

/-- How a chain can end, with its commands, all that it does and its outcomes. -/
inductive ChainEnd (ex : Executor) (past : List Action) :
    List Command → List Action × List Outcome → Prop where
  | none : ChainEnd ex past [] ([],[])
  | whole {commands work outcomes} (executed : Executed ex past commands work outcomes)
      (succeeded : ∀ o ∈ outcomes, o.success = true) : ChainEnd ex past commands (work,outcomes)
  | broken {earlier c rest work outcomes o}
      (executed : Executed ex past (earlier ++ [c]) work (outcomes ++ [o]))
      (succeeded : ∀ p ∈ outcomes, p.success = true) (failed : o.success = false) :
      ChainEnd ex past (earlier ++ c :: rest) (work,outcomes ++ [o])

theorem chainEnds (ex : Executor) (commands : List Command) (past : List Action) :
    ChainEnd ex past commands (ex.executeChain commands past) := by
  by_cases empty : commands = []
  · rw [empty]
    exact .none
  obtain ⟨done,rest,split,executed,stopped⟩ := chainExecuted ex empty past
  generalize ex.executeChain commands past = run at executed stopped
  obtain ⟨work,all⟩ := run
  obtain ⟨outcomes,o,ends⟩ : ∃ outcomes o, all = outcomes ++ [o] :=
    ⟨_,_,(List.dropLast_concat_getLast (executedSome executed).2).symm⟩
  obtain ⟨earlier,c,last⟩ : ∃ earlier c, done = earlier ++ [c] :=
    ⟨_,_,(List.dropLast_concat_getLast (executedSome executed).1).symm⟩
  have first : ∀ p ∈ outcomes, p.success = true := by simpa [ends] using executedEarlier executed
  simp only at executed stopped
  rw [ends] at executed stopped ⊢
  rw [split]
  cases success : o.success with
  | false =>
    rw [last] at executed ⊢
    rw [List.append_assoc,List.singleton_append]
    exact .broken executed first success
  | true =>
    have all : rest = [] := stopped.resolve_right (by simp [success])
    rw [all,List.append_nil]
    refine .whole executed fun p mem => ?_
    rcases List.mem_append.mp mem with mem | mem
    · exact first p mem
    · rw [List.mem_singleton.mp mem]
      exact success

/-- What has happened when the command at this place of a chain is executed: the commands in front of it were, and
the pause behind the last of them is over. -/
def reached (ex : Executor) (past : List Action) (commands : List Command) (i : Nat) : List Action :=
  past ++ (ex.executeChain (commands.take i) past).1 ++ if i = 0 then [] else waiting ex.stepDelay

theorem reachedFirst (ex : Executor) (past : List Action) (commands : List Command) :
    ex.reached past commands 0 = past := by
  simp [reached,executeChain,inOrder]

/- Behind a success the rest of the chain is reached as if it stood alone. -/
theorem reachedNext {ex : Executor} {past : List Action} {c : Command}
    (succeeded : (ex.execute c past).2.success = true) {rest : List Command} {i : Nat} (inside : i < rest.length) :
    ex.reached past (c :: rest) (i + 1) =
      ex.reached (past ++ (ex.execute c past).1 ++ waiting ex.stepDelay) rest i := by
  cases i with
  | zero => simp [reached,executeChain,inOrder]
  | succ i =>
    obtain ⟨d,others,begins⟩ : ∃ d others, rest = d :: others :=
      List.exists_cons_of_ne_nil (List.ne_nil_of_length_pos (by omega))
    rw [begins]
    unfold reached executeChain
    rw [List.take_succ_cons,List.take_succ_cons,inOrderCons,if_pos succeeded]
    simp

/-- The command at this place is executed, and nothing happens behind it if it is the last one. -/
structure Performed (ex : Executor) (past : List Action) (commands : List Command)
    (run : List Action × List Outcome) (i : Nat) (c : Command) : Prop where
  placed : commands[i]? = some c
  outcome : run.2[i]? = some (ex.execute c (ex.reached past commands i)).2
  actions : ∃ back, past ++ run.1 = ex.reached past commands i ++
    ((ex.execute c (ex.reached past commands i)).1 ++ back) ∧ (i + 1 = run.2.length → back = [])

theorem executedAt {ex past done work outcomes} (h : Executed ex past done work outcomes) {i : Nat}
    (inside : i < outcomes.length) : ∃ c, Performed ex past done (work,outcomes) i c := by
  induction h generalizing i with
  | last past c =>
    have first : i = 0 := by simpa using inside
    rw [first]
    exact ⟨c,rfl,by rw [reachedFirst]; rfl,[],by rw [reachedFirst]; simp,fun _ => rfl⟩
  | @next past c rest work outcomes succeeded later ih =>
    cases i with
    | zero =>
      refine ⟨c,rfl,by rw [reachedFirst]; rfl,waiting ex.stepDelay ++ work,by rw [reachedFirst],fun only => ?_⟩
      have positive := List.length_pos_iff.mpr (executedSome later).2
      simp only [List.length_cons] at only
      omega
    | succ i =>
      have within : i < outcomes.length := by simpa using inside
      obtain ⟨d,placed,outcome,back,actions,last⟩ := ih within
      have same := reachedNext succeeded (executedCount later ▸ within)
      refine ⟨d,placed,?_,back,?_,fun end' => last (by simpa using end')⟩
      · rw [same]
        exact outcome
      · rw [same,← actions]
        simp

/- Nothing but pauses lies between the executed commands. -/
theorem executedDoes {ex past done work outcomes} (h : Executed ex past done work outcomes) :
    ∀ a ∈ work, a.isElapse = true ∨
      ∃ i c, done[i]? = some c ∧ a ∈ (ex.execute c (ex.reached past done i)).1 := by
  induction h with
  | last past c =>
    intro a mem
    exact .inr ⟨0,c,rfl,by rwa [reachedFirst]⟩
  | @next past c rest work outcomes succeeded later ih =>
    intro a mem
    rcases List.mem_append.mp mem with mem | mem
    · exact .inr ⟨0,c,rfl,by rwa [reachedFirst]⟩
    · rcases List.mem_append.mp mem with mem | mem
      · rw [Course.memWaiting mem]
        exact .inl rfl
      · rcases ih a mem with pause | ⟨i,d,placed,done⟩
        · exact .inl pause
        · have inside := (List.getElem?_eq_some_iff.mp placed).1
          exact .inr ⟨i + 1,d,placed,by rwa [reachedNext succeeded inside]⟩

/- What stands behind a command changes nothing about how it is reached. -/
theorem reachedAmong (ex : Executor) (past : List Action) {done : List Command} (rest : List Command) {i : Nat}
    (inside : i < done.length) : ex.reached past (done ++ rest) i = ex.reached past done i := by
  unfold reached
  rw [List.take_append_of_le_length (Nat.le_of_lt inside)]

theorem performedAmong {ex : Executor} {past : List Action} {done : List Command}
    {run : List Action × List Outcome} {i : Nat} {c : Command} (h : Performed ex past done run i c)
    (rest : List Command) : Performed ex past (done ++ rest) run i c := by
  have inside := (List.getElem?_eq_some_iff.mp h.placed).1
  have same := reachedAmong ex past rest inside
  refine ⟨?_,?_,?_⟩
  · rw [List.getElem?_append_left inside]
    exact h.placed
  · rw [same]
    exact h.outcome
  · rw [same]
    exact h.actions

section
variable {ex : Executor} {past : List Action} {commands : List Command} {run : List Action × List Outcome}
  (h : ChainEnd ex past commands run)
include h

theorem chainShorter : run.2.length ≤ commands.length := by
  cases h with
  | none => exact Nat.le_refl _
  | whole executed => exact Nat.le_of_eq (executedCount executed)
  | broken executed =>
    have count := executedCount executed
    simp only [List.length_append,List.length_singleton] at count
    simp only [List.length_append,List.length_cons,List.length_nil]
    omega

theorem chainEarlier : ∀ o ∈ run.2.dropLast, o.success = true := by
  cases h with
  | none => simp
  | whole executed succeeded => exact fun o mem => succeeded o (List.dropLast_subset _ mem)
  | broken executed succeeded => simpa using succeeded

theorem chainIdle (idle : run.2.length = 0) : run.1 = [] := by
  cases h with
  | none => rfl
  | whole executed => exact absurd (List.length_eq_zero_iff.mp idle) (executedSome executed).2
  | broken => simp at idle

/- The commands behind the failure might as well be others. -/
theorem chainBroken (less : run.2.length < commands.length) :
    (∃ o, run.2.getLast? = some o ∧ o.success = false) ∧
      ∀ others, ex.executeChain (commands.take run.2.length ++ others) past = run := by
  cases h with
  | none => simp at less
  | whole executed => exact absurd (executedCount executed) (Nat.ne_of_lt less)
  | @broken earlier c rest work outcomes o executed _ failed =>
    have count := executedCount executed
    have done : (earlier ++ c :: rest).take (outcomes ++ [o]).length = earlier ++ [c] := by
      rw [List.append_cons earlier c rest,count,List.take_left]
    refine ⟨⟨o,by simp,failed⟩,fun others => ?_⟩
    rw [done]
    exact executedChain executed (.inr ⟨o,by simp,failed⟩)

theorem chainPerformed {i : Nat} (inside : i < run.2.length) : ∃ c, Performed ex past commands run i c := by
  cases h with
  | none => simp at inside
  | whole executed => exact executedAt executed inside
  | @broken earlier c rest work outcomes o executed =>
    obtain ⟨d,performed⟩ := executedAt executed inside
    rw [List.append_cons earlier c rest]
    exact ⟨d,performedAmong performed rest⟩

theorem chainDoes : ∀ a ∈ run.1, a.isElapse = true ∨ ∃ i c, i < run.2.length ∧ commands[i]? = some c ∧
    a ∈ (ex.execute c (ex.reached past commands i)).1 := by
  cases h with
  | none => simp
  | whole executed =>
    intro a mem
    rcases executedDoes executed a mem with pause | ⟨i,c,placed,done⟩
    · exact .inl pause
    · have inside := (List.getElem?_eq_some_iff.mp placed).1
      exact .inr ⟨i,c,executedCount executed ▸ inside,placed,done⟩
  | @broken earlier c rest work outcomes o executed =>
    intro a mem
    rcases executedDoes executed a mem with pause | ⟨i,d,placed,done⟩
    · exact .inl pause
    · have inside := (List.getElem?_eq_some_iff.mp placed).1
      rw [List.append_cons earlier c rest]
      refine .inr ⟨i,d,executedCount executed ▸ inside,?_,?_⟩
      · rw [List.getElem?_append_left inside]
        exact placed
      · rw [reachedAmong ex past rest inside]
        exact done

theorem chainUnfailed : chainFailure? commands run.2 = none ↔
    run.2.length = commands.length ∧ ∀ o ∈ run.2, o.success = true := by
  cases h with
  | none => simp [chainFailure?]
  | whole executed succeeded =>
    exact ⟨fun _ => ⟨executedCount executed,succeeded⟩,fun _ => failureAbsent commands succeeded⟩
  | @broken earlier c rest work outcomes o executed _ failed =>
    have count : outcomes.length = earlier.length := by simpa using executedCount executed
    rw [failureNamed c rest count failed]
    refine ⟨fun nothing => absurd nothing (by simp),fun ⟨_,all⟩ => ?_⟩
    rw [all o (by simp)] at failed
    cases failed

theorem chainFailedAt {e : CommandError} (named : chainFailure? commands run.2 = some e) :
    ∃ i c o, i + 1 = run.2.length ∧ commands[i]? = some c ∧ run.2[i]? = some o ∧ o.success = false ∧
      e = .chainFailed c.intent i o.message := by
  cases h with
  | none => simp [chainFailure?] at named
  | whole executed succeeded =>
    rw [failureAbsent commands succeeded] at named
    cases named
  | @broken earlier c rest work outcomes o executed _ failed =>
    have count : outcomes.length = earlier.length := by simpa using executedCount executed
    rw [failureNamed c rest count failed] at named
    exact ⟨earlier.length,c,o,by simp [count],by simp,by simp [← count],failed,(Option.some.inj named).symm⟩

end

/-- A chain executes its commands from the front up to the first failure, if there is one. Each outcome is what
the command at its place comes to at that point, nothing is done for the commands behind the last outcome, and
the failure of the chain is that of this outcome, with the place and the intent of its command. -/
theorem shortestFailingPrefix (ex : Executor) (commands : List Command) (past : List Action) :
    let run := ex.executeChain commands past
    let r := run.2.length
    r ≤ commands.length ∧ (∀ o ∈ run.2.dropLast, o.success = true) ∧
      (r < commands.length → (∃ o, run.2.getLast? = some o ∧ o.success = false) ∧
        ∀ others, ex.executeChain (commands.take r ++ others) past = run) ∧
      (r = 0 → run.1 = []) ∧ (∀ i, i < r → ∃ c, Performed ex past commands run i c) ∧
      (∀ a ∈ run.1, a.isElapse = true ∨ ∃ i c, i < r ∧ commands[i]? = some c ∧
        a ∈ (ex.execute c (ex.reached past commands i)).1) ∧
      (chainFailure? commands run.2 = none ↔ r = commands.length ∧ ∀ o ∈ run.2, o.success = true) ∧
      ∀ e, chainFailure? commands run.2 = some e → ∃ i c o, i + 1 = r ∧ commands[i]? = some c ∧
        run.2[i]? = some o ∧ o.success = false ∧ e = .chainFailed c.intent i o.message := by
  intro run r
  have ends : ChainEnd ex past commands run := chainEnds ex commands past
  exact ⟨chainShorter ends,chainEarlier ends,chainBroken ends,chainIdle ends,fun _ => chainPerformed ends,
    chainDoes ends,chainUnfailed ends,fun _ => chainFailedAt ends⟩

/- The second handler reports a failure without an error; whatever the third command is, it is left out. -/
theorem thirdUnreached :
    let slow : Handler := ⟨fun _ c => (100,.ok (.succeeded c.displayName))⟩
    let stuck : Handler := ⟨fun _ _ => (100,.ok (.failed "Stuck"))⟩
    let registry := ((Registry.new.setHandler .volumeUp slow).setHandler .volumeDown stuck).setHandler .volumeMute slow
    let ex : Executor := ⟨registry,none,none,300⟩
    let up := Command.new .volumeUp "volume up" .pattern
    let down := Command.new .volumeDown "volume down" .pattern
    let mute := Command.new .volumeMute "mute" .pattern
    let run := ex.executeChain [up,down,mute] []
    run.1 = [.call up,.elapse 100,.elapse 300,.call down,.elapse 100] ∧
      chainFailure? [up,down,mute] run.2 = some (.chainFailed .volumeDown 1 "Stuck") ∧
      ∀ c, ex.executeChain [up,down,c] [] = run := by
  intro slow stuck registry ex up down mute run
  have two : run.2.length = 2 := by decide +kernel
  obtain ⟨_,_,broken,_⟩ := shortestFailingPrefix ex [up,down,mute] []
  obtain ⟨_,others⟩ := broken (by change run.2.length < _; rw [two]; decide)
  refine ⟨by decide +kernel,by decide +kernel,fun c => ?_⟩
  have same : ex.executeChain ([up,down,mute].take run.2.length ++ [c]) [] = run := others [c]
  rwa [two] at same

end VoiceCommand.Executor
