import VoiceCommand.Proofs.Executor.Sequence
import VoiceCommand.Proofs.Session.Undo

/-! The phase in which a run ends tells the truth about it. It is completed exactly if every command was executed
in time and succeeded, and otherwise the error names what went wrong: the text, the clock, or the command that
failed. -/
namespace VoiceCommand.Session
open Executor (Executed Stopped chainEnds executedChain executedCount failureAbsent failureNamed)

/-- The text is recognised as these commands, and `lead` is all that happens before they are executed. -/
structure Undertaken (s : Session) (text : String) (past : List Action) (commands : List Command)
    (lead : List Action) : Prop where
  recognised : (s.recognise text (past ++ [.disarm,.enter (.processing text)])).2 = .ok commands
  shape : lead = [.disarm,.enter (.processing text)] ++
    ((s.recognise text (past ++ [.disarm,.enter (.processing text)])).1 ++
      [.enter (.executing (describe commands))])

/-- Every command of the text was executed within the time that a run may take, and succeeded. -/
structure Accomplished (s : Session) (text : String) (past : List Action) (commands : List Command)
    (lead work : List Action) (outcomes : List Outcome) : Prop where
  undertaken : Undertaken s text past commands lead
  executed : Executed s.executor (past ++ lead) commands work outcomes
  inTime : elapsed work ≤ s.settings.executionTimeout * 1000
  succeeded : ∀ o ∈ outcomes, o.success = true

/-- The commands of the text were executed up to `c`, which failed in time, behind others that succeeded. -/
structure Broken (s : Session) (text : String) (past : List Action) (earlier : List Command) (c : Command)
    (rest : List Command) (lead work : List Action) (outcomes : List Outcome) (o : Outcome) : Prop where
  undertaken : Undertaken s text past (earlier ++ c :: rest) lead
  executed : Executed s.executor (past ++ lead) (earlier ++ [c]) work (outcomes ++ [o])
  inTime : elapsed work ≤ s.settings.executionTimeout * 1000
  succeeded : ∀ p ∈ outcomes, p.success = true
  failed : o.success = false

/-- Between `lead` and the end the session does this work and nothing else that others would notice. -/
def Worked (lead work actions : List Action) : Prop :=
  ∃ ending, actions = lead ++ (work ++ ending) ∧ ∀ a ∈ ending, isEffort a = false

theorem verdictDone (commands : List Command) {outcomes : List Outcome}
    (succeeded : ∀ o ∈ outcomes, o.success = true) :
    verdict commands outcomes = .completed true (", ".intercalate (outcomes.map (·.message))) := by
  simp [verdict,failureAbsent commands succeeded]

theorem verdictFailed {earlier : List Command} (c : Command) (rest : List Command) {outcomes : List Outcome}
    {o : Outcome} (count : outcomes.length = earlier.length) (failed : o.success = false) :
    verdict (earlier ++ c :: rest) (outcomes ++ [o]) = .error (if earlier = [] ∧ rest = [] then o.message
      else (CommandError.chainFailed c.intent earlier.length o.message).message) := by
  have alone : (earlier ++ c :: rest).length = 1 ↔ earlier = [] ∧ rest = [] := by
    rw [List.length_append,List.length_cons,← List.length_eq_zero_iff,← List.length_eq_zero_iff]
    omega
  simp only [verdict,failureNamed c rest count failed,alone]
  split <;> simp

section
variable {s : Session} {text : String} {past : List Action} (speech : isCancelPhrase text = false)
include speech

theorem unrecognisedPhase {e : CommandError}
    (unknown : (s.recognise text (past ++ [.disarm,.enter (.processing text)])).2 = .error e) (t : Session) :
    (t.after (s.process text past).1).phase = .error e.message := by
  have actions := runCases s text (past ++ [.disarm])
  simp only [List.append_assoc,List.singleton_append,unknown] at actions
  rcases actions with ⟨_,same,shape⟩ | ⟨_,other,_⟩
  · cases same
    rw [processRun,if_neg (by simp [speech]),shape,afterCons,afterCons,afterAppend]
    rfl
  · cases other

theorem undertakenRun {commands : List Command} {lead : List Action}
    (h : Undertaken s text past commands lead) :
    let reached := s.effort commands (past ++ lead)
    let conclusion := s.conclusion commands reached.2
    (s.process text past).1 = lead ++ (reached.1 ++ (conclusion.1 ++
      [.enter conclusion.2,.ranSince (elapsed (past ++ [.disarm])),
        .arm .result s.settings.resultDisplay])) := by
  have actions := runCases s text (past ++ [.disarm])
  simp only [List.append_assoc,List.singleton_append,h.recognised] at actions
  rcases actions with ⟨_,other,_⟩ | ⟨_,same,shape⟩
  · cases other
  · cases same
    rw [processRun,if_neg (by simp [speech]),shape,executeRun,h.shape]
    simp

theorem undertakenPhase {commands : List Command} {lead : List Action}
    (h : Undertaken s text past commands lead) (t : Session) : (t.after (s.process text past).1).phase =
      (s.conclusion commands (s.effort commands (past ++ lead)).2).2 := by
  rw [undertakenRun speech h,afterAppend,afterAppend,afterAppend]
  rfl

theorem undertakenWorked {commands : List Command} {lead : List Action}
    (h : Undertaken s text past commands lead) :
    Worked lead (s.effort commands (past ++ lead)).1 (s.process text past).1 := by
  refine ⟨_,undertakenRun speech h,fun a mem => ?_⟩
  rw [List.append_cons,List.mem_append] at mem
  rcases mem with mem | mem
  · exact conclusionQuiet s _ _ a mem
  · simp only [List.mem_cons,List.not_mem_nil,or_false] at mem
    rcases mem with rfl | rfl <;> rfl

/- What was executed in time and why it ended determine the whole course of the run. -/
theorem executedReported {done rest : List Command} {lead work : List Action} {outcomes : List Outcome}
    (h : Undertaken s text past (done ++ rest) lead)
    (executed : Executed s.executor (past ++ lead) done work outcomes) (stopped : Stopped rest outcomes)
    (inTime : elapsed work ≤ s.settings.executionTimeout * 1000) :
    (∀ t : Session, (t.after (s.process text past).1).phase = verdict (done ++ rest) outcomes) ∧
      Worked lead work (s.process text past).1 := by
  have reached : s.effort (done ++ rest) (past ++ lead) = (work,some outcomes) := by
    simp only [effort,Course.within,executedChain executed stopped,if_pos inTime]
  have worked := undertakenWorked speech h
  rw [reached] at worked
  exact ⟨fun t => by rw [undertakenPhase speech h,reached]; rfl,worked⟩

theorem accomplishedReported {commands lead work outcomes}
    (h : Accomplished s text past commands lead work outcomes) :
    (∀ t : Session, (t.after (s.process text past).1).phase =
        .completed true (", ".intercalate (outcomes.map (·.message)))) ∧
      Worked lead work (s.process text past).1 := by
  rw [← verdictDone commands h.succeeded,← List.append_nil commands]
  exact executedReported speech (by simpa using h.undertaken) h.executed (.inl rfl) h.inTime

theorem brokenReported {earlier c rest lead work outcomes o}
    (h : Broken s text past earlier c rest lead work outcomes o) :
    (∀ t : Session, (t.after (s.process text past).1).phase = .error
        (if earlier = [] ∧ rest = [] then o.message
          else (CommandError.chainFailed c.intent earlier.length o.message).message)) ∧
      Worked lead work (s.process text past).1 := by
  have count : outcomes.length = earlier.length := by simpa using executedCount h.executed
  rw [← verdictFailed c rest count h.failed,List.append_cons]
  exact executedReported speech (by simpa using h.undertaken) h.executed
    (.inr ⟨o,by simp,h.failed⟩) h.inTime

end

/-- The ways in which the run of a text can end, with the phase for each. -/
inductive Ending (s : Session) (text : String) (past : List Action) : Phase → Prop where
  | unrecognised {e}
      (unknown : (s.recognise text (past ++ [.disarm,.enter (.processing text)])).2 = .error e) :
      Ending s text past (.error e.message)
  | late {commands lead} (undertaken : Undertaken s text past commands lead)
      (late : s.settings.executionTimeout * 1000 <
        elapsed (s.executor.executeChain commands (past ++ lead)).1) :
      Ending s text past (.error (CommandError.timeout s.settings.executionTimeout).message)
  | broken {earlier c rest lead work outcomes o}
      (broken : Broken s text past earlier c rest lead work outcomes o) :
      Ending s text past (.error (if earlier = [] ∧ rest = [] then o.message
        else (CommandError.chainFailed c.intent earlier.length o.message).message))
  | accomplished {commands lead work outcomes}
      (accomplished : Accomplished s text past commands lead work outcomes) :
      Ending s text past (.completed true (", ".intercalate (outcomes.map (·.message))))

/- A chain that ends in time has either succeeded throughout or ends with its first failure. -/
theorem undertakenEnding {s : Session} {text : String} {past : List Action} {commands : List Command}
    {lead : List Action} (h : Undertaken s text past commands lead) :
    ∃ result, Ending s text past result := by
  by_cases late : s.settings.executionTimeout * 1000 <
      elapsed (s.executor.executeChain commands (past ++ lead)).1
  · exact ⟨_,.late h late⟩
  have inTime := Nat.le_of_not_lt late
  have nonempty := recognisedSome h.recognised
  have ends := chainEnds s.executor commands (past ++ lead)
  generalize s.executor.executeChain commands (past ++ lead) = run at ends inTime
  cases ends with
  | none => exact absurd rfl nonempty
  | whole executed succeeded => exact ⟨_,.accomplished ⟨h,executed,inTime,succeeded⟩⟩
  | broken executed succeeded failed => exact ⟨_,.broken ⟨h,executed,inTime,succeeded,failed⟩⟩

theorem endings (s : Session) (text : String) (past : List Action) : ∃ result, Ending s text past result := by
  cases heard : (s.recognise text (past ++ [.disarm,.enter (.processing text)])).2 with
  | error e => exact ⟨_,.unrecognised heard⟩
  | ok commands => exact undertakenEnding ⟨heard,rfl⟩

theorem endingPhase {s : Session} {text : String} {past : List Action} (speech : isCancelPhrase text = false)
    {result : Phase} (h : Ending s text past result) (t : Session) :
    (t.after (s.process text past).1).phase = result := by
  cases h with
  | unrecognised unknown => exact unrecognisedPhase speech unknown t
  | @late commands lead undertaken late =>
    have given : (s.effort commands (past ++ lead)).2 = none := by
      simp [effort,Course.within,Nat.not_le.mpr late]
    rw [undertakenPhase speech undertaken,given]
    rfl
  | broken broken => exact (brokenReported speech broken).1 t
  | accomplished accomplished => exact (accomplishedReported speech accomplished).1 t

/-- The session is in the completed phase after the run of a text if and only if the text was recognised as
commands that were all executed in time and succeeded, and otherwise in error. Completed bears their messages; an
error that is due to a command bears the message of the first that failed, and in a chain its place and intent;
and every other error is due to the text or to the time. -/
theorem outcomeReported (s : Session) (text : String) (past : List Action)
    (speech : isCancelPhrase text = false) :
    let actions := (s.process text past).1
    let accomplished := ∃ commands lead work outcomes, Accomplished s text past commands lead work outcomes
    ∃ result, (∀ t : Session, (t.after actions).phase = result) ∧
      ((∃ success message, result = .completed success message) ↔ accomplished) ∧
      ((∃ message, result = .error message) ↔ ¬ accomplished) ∧
      (∀ commands lead work outcomes, Accomplished s text past commands lead work outcomes →
        commands ≠ [] ∧ result = .completed true (", ".intercalate (outcomes.map (·.message))) ∧
          Worked lead work actions) ∧
      (∀ earlier c rest lead work outcomes o, Broken s text past earlier c rest lead work outcomes o →
        result = .error (if earlier = [] ∧ rest = [] then o.message else "Step " ++
            toString (earlier.length + 1) ++ " (" ++ c.intent.name ++ ") failed: " ++ o.message) ∧
          Worked lead work actions) ∧
      (∀ message, result = .error message →
        (∃ earlier c rest lead work outcomes o, Broken s text past earlier c rest lead work outcomes o) ∨
        (∃ e, (s.recognise text (past ++ [.disarm,.enter (.processing text)])).2 = .error e ∧
          message = e.message) ∨
        ∃ commands lead, Undertaken s text past commands lead ∧
          s.settings.executionTimeout * 1000 < elapsed (s.executor.executeChain commands (past ++ lead)).1 ∧
          message = (CommandError.timeout s.settings.executionTimeout).message) := by
  intro actions accomplished
  obtain ⟨result,ending⟩ := endings s text past
  have phase : ∀ t : Session, (t.after actions).phase = result := endingPhase speech ending
  have done (h : accomplished) : ∃ message, result = .completed true message := by
    obtain ⟨_,_,_,_,all⟩ := h
    exact ⟨_,(phase s).symm.trans ((accomplishedReported speech all).1 s)⟩
  refine ⟨result,phase,⟨?_,fun h => ⟨true,done h⟩⟩,⟨?_,?_⟩,?_,?_,?_⟩
  · rintro ⟨success,message,same⟩
    cases ending with
    | accomplished all => exact ⟨_,_,_,_,all⟩
    | _ => cases same
  · rintro ⟨message,same⟩ h
    obtain ⟨other,completed⟩ := done h
    rw [same] at completed
    cases completed
  · intro h
    cases ending with
    | accomplished all => exact absurd ⟨_,_,_,_,all⟩ h
    | _ => exact ⟨_,rfl⟩
  · intro commands lead work outcomes all
    obtain ⟨completed,worked⟩ := accomplishedReported speech all
    exact ⟨recognisedSome all.undertaken.recognised,(phase s).symm.trans (completed s),worked⟩
  · intro earlier c rest lead work outcomes o broken
    obtain ⟨failed,worked⟩ := brokenReported speech broken
    exact ⟨(phase s).symm.trans (failed s),worked⟩
  · intro message same
    cases ending with
    | unrecognised unknown => exact .inr (.inl ⟨_,unknown,(Phase.error.inj same).symm⟩)
    | late undertaken late => exact .inr (.inr ⟨_,_,undertaken,late,(Phase.error.inj same).symm⟩)
    | broken broken => exact .inl ⟨_,_,_,_,_,_,_,broken⟩
    | accomplished _ => cases same

theorem safariReported :
    let s := (bench 30).calls [.activate]
    let text := "volume down and open Safari and mute"
    isCancelPhrase text = false ∧ ∃ earlier c rest lead work outcomes o,
      Broken s text s.past earlier c rest lead work outcomes o ∧
      (s.call (.hear text)).phase =
        .error "Step 2 (openApp) failed: No handler registered for openApp" := by
  intro s text
  have speech : isCancelPhrase text = false := by decide +kernel
  have shown : (s.after (s.process text s.past).1).phase =
      .error "Step 2 (openApp) failed: No handler registered for openApp" := by decide +kernel
  have told : (s.call (.hear text)).phase =
      .error "Step 2 (openApp) failed: No handler registered for openApp" := by decide +kernel
  obtain ⟨result,phase,_,_,_,_,causes⟩ := outcomeReported s text s.past speech
  rcases causes _ ((phase s).symm.trans shown) with ⟨_,_,_,_,_,_,_,broken⟩ | ⟨e,unknown,_⟩ | ⟨_,_,_,_,late⟩
  · exact ⟨speech,_,_,_,_,_,_,_,broken,told⟩
  · have heard : (s.recognise text (s.past ++ [.disarm,.enter (.processing text)])).2.toOption.isSome = true := by
      decide +kernel
    rw [unknown] at heard
    cases heard
  · exact absurd late (by decide +kernel)

end VoiceCommand.Session
