import VoiceCommand.Proofs.Executor.Duration
import VoiceCommand.Proofs.Session.Verdict

/-! The time that a run may take. A chain that ends by then is not affected at all, and another one is cut at that
very time: what it did until then stays as it was, and the session says how long it waited. -/
namespace VoiceCommand.Session
open Gates (isCall)

section
variable {limit : Nat} {history : List Action} (late : limit < elapsed history)
include late

theorem cutElapsed : elapsed (cutAt limit history) = limit := by
  rw [elapsedCut,Nat.min_eq_left (Nat.le_of_lt late)]

theorem cutCalls : (cutAt limit history).filter isCall <+: history.filter isCall := by
  obtain ⟨kept,ms,rest,split,_,_,cut⟩ := cutLate late
  have front : kept <+: history := ⟨_,split.symm⟩
  have early : (cutAt limit history).filter isCall = kept.filter isCall := by
    rw [cut,List.filter_append]
    exact List.append_nil _
  rw [early]
  exact front.filter isCall

end

section
variable (s : Session) (commands : List Command) (past : List Action)

theorem effortInTime (inTime : elapsed (s.executor.executeChain commands past).1 ≤
      s.settings.executionTimeout * 1000) :
    s.effort commands past = ((s.executor.executeChain commands past).1,
      some (s.executor.executeChain commands past).2) := by
  simp only [effort,Course.within,if_pos inTime]

theorem effortLate (late : s.settings.executionTimeout * 1000 <
      elapsed (s.executor.executeChain commands past).1) :
    s.effort commands past =
      (cutAt (s.settings.executionTimeout * 1000) (s.executor.executeChain commands past).1,none) := by
  simp only [effort,Course.within,if_neg (Nat.not_le.mpr late)]

theorem concludedPhase : (s.conclusion commands (s.effort commands past).2).2 =
    if elapsed (s.executor.executeChain commands past).1 ≤ s.settings.executionTimeout * 1000 then
      verdict commands (s.executor.executeChain commands past).2
    else .error ("Command timed out after " ++ toString s.settings.executionTimeout ++ "s") := by
  by_cases inTime : elapsed (s.executor.executeChain commands past).1 ≤ s.settings.executionTimeout * 1000
  · rw [effortInTime s commands past inTime,if_pos inTime]
    rfl
  · rw [effortLate s commands past (Nat.not_le.mp inTime),if_neg inTime]
    rfl

theorem executedPhase (t : Session) : (t.after (s.execute commands past).1).phase =
    (s.conclusion commands (s.effort commands (past ++ [.enter (.executing (describe commands))])).2).2 := by
  rw [executeRun,afterCons,afterAppend,afterAppend]
  rfl

end

/-- A chain takes the time of the answers that it waits for and of its pauses. If that is not more than the limit,
the session has all of its outcomes, the same as without a limit. Otherwise it has none and gives up at the limit:
the calls that were made are those that the chain makes by then, and the error tells the limit. -/
theorem limitExact (s : Session) (commands : List Command) (past : List Action) :
    let ex := s.executor
    let limit := s.settings.executionTimeout * 1000
    let whole := ex.executeChain commands past
    let limited := Course.within limit (ex.executeChain commands) past
    let result := if elapsed whole.1 ≤ limit then verdict commands whole.2
      else .error ("Command timed out after " ++ toString s.settings.executionTimeout ++ "s")
    elapsed whole.1 = ex.answering past whole.1 + s.settings.stepDelay * ex.pauses past commands ∧
      (elapsed whole.1 ≤ limit → limited = (whole.1,some whole.2)) ∧
      (limit < elapsed whole.1 → limited.2 = none ∧ elapsed limited.1 = limit ∧
        limited.1.filter isCall <+: whole.1.filter isCall ∧
        ∀ before c, (∃ after, limited.1 = before ++ .call c :: after) ↔
          elapsed before ≤ limit ∧ ∃ after, whole.1 = before ++ .call c :: after) ∧
      (∀ earlier, past = earlier ++ [.enter (.executing (describe commands))] →
        ∀ t : Session, (t.after (s.execute commands earlier).1).phase = result) ∧
      ∀ text earlier lead, isCancelPhrase text = false → Undertaken s text earlier commands lead →
        past = earlier ++ lead → Worked lead limited.1 (s.process text earlier).1 ∧
          ∀ t : Session, (t.after (s.process text earlier).1).phase = result := by
  intro ex limit whole limited result
  have concluded : (s.conclusion commands limited.2).2 = result := concludedPhase s commands past
  refine ⟨Executor.chainTime ex commands past,effortInTime s commands past,fun late => ?_,?_,?_⟩
  · have cut : limited = (cutAt limit whole.1,none) := effortLate s commands past late
    rw [cut]
    exact ⟨rfl,cutElapsed late,cutCalls late,fun before c => cutTimely late rfl⟩
  · intro earlier shape t
    rw [executedPhase,← shape]
    exact concluded
  · intro text earlier lead speech undertaken shape
    have worked := undertakenWorked speech undertaken
    rw [← shape] at worked
    refine ⟨worked,fun t => ?_⟩
    rw [undertakenPhase speech undertaken,← shape]
    exact concluded

/- A custom command of two steps with a pause of a second and an answer of five. Six seconds are just enough for it;
within one second both of its steps are called, the second at the last moment. -/
theorem eveningLimited :
    let s (limit : Nat) : Session :=
      ({ bench limit with settings := { stepDelay := 1000, executionTimeout := limit } } : Session).calls [.activate]
    let c := { Command.new .customAlias "evening" .alias with
      entities := .ofList [("name","Evening"),(triggerKey,"evening")]
      displayName := "Evening" }
    let lead := [.disarm,.enter (.processing "evening"),.enter (.executing "Evening")]
    let before (limit : Nat) := (s limit).past ++ lead
    let whole (limit : Nat) := (s limit).executor.executeChain [c] (before limit)
    let ended (limit : Nat) := ((s limit).after ((s limit).process "evening" (s limit).past).1).phase
    (Undertaken (s 6) "evening" (s 6).past [c] lead ∧ elapsed (whole 6).1 = 6000 ∧
      ended 6 = .completed true "Evening: 2 actions done") ∧
    Undertaken (s 1) "evening" (s 1).past [c] lead ∧ elapsed (whole 1).1 = 6000 ∧
      ((whole 1).1.filter isCall).length = 2 ∧
      elapsed (Course.within 1000 ((s 1).executor.executeChain [c]) (before 1)).1 = 1000 ∧
      ended 1 = .error "Command timed out after 1s" := by
  intro s c lead before whole ended
  have speech : isCancelPhrase "evening" = false := by decide +kernel
  have heard : Undertaken (s 6) "evening" (s 6).past [c] lead := ⟨by decide +kernel,by decide +kernel⟩
  have again : Undertaken (s 1) "evening" (s 1).past [c] lead := ⟨by decide +kernel,by decide +kernel⟩
  have six : (s 6).settings.executionTimeout = 6 := by decide +kernel
  have one : (s 1).settings.executionTimeout = 1 := by decide +kernel
  have took : elapsed (whole 6).1 = 6000 := by decide +kernel
  have takes : elapsed (whole 1).1 = 6000 := by decide +kernel
  obtain ⟨_,_,_,_,shown⟩ := limitExact (s 6) [c] (before 6)
  obtain ⟨_,_,late,_,told⟩ := limitExact (s 1) [c] (before 1)
  refine ⟨⟨heard,took,?_⟩,again,takes,by decide +kernel,?_,?_⟩
  · have phase := (shown "evening" (s 6).past lead speech heard rfl).2 (s 6)
    rw [if_pos (by rw [six]; exact Nat.le_of_eq took)] at phase
    exact phase.trans (by decide +kernel)
  · have cut := (late (by rw [one]; exact Nat.lt_of_lt_of_eq (by decide) takes.symm)).2.1
    rw [one] at cut
    exact cut
  · have phase := (told "evening" (s 1).past lead speech again rfl).2 (s 1)
    rw [if_neg (by rw [one]; exact Nat.not_le.mpr (Nat.lt_of_lt_of_eq (by decide) takes.symm)),one] at phase
    exact phase

end VoiceCommand.Session
