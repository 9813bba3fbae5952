import VoiceCommand.Proofs.Executor.Expansion
import VoiceCommand.Proofs.Parser.Alias
import VoiceCommand.Proofs.Session.Clearance

/-! Custom commands in a session. What runs under a trigger phrase are the steps of the custom command that
was recognised by it. -/
namespace VoiceCommand.Session
open Course (Only)
open Executor (Expansion aliasOutcome aliasRun chainSteps recognisedAvailable recognisedExpansion recognisedSame
  resolvedSteps stepCommands triggerOf unavailable)
open Gates (Guarded guardedAppend guardedUncalled guardedWeaken isCall)
open VoiceCommand.Parser (Recognised aliasRecognised triggerKept)

theorem recognisedAlias {s : Session} {text past commands}
    (h : (s.recognise text past).2 = .ok commands) {c : Command} (mem : c ∈ commands)
    (source : c.source = .alias) : commands = [c] ∧ ∃ i custom, Recognised s.store text c i custom := by
  rcases recognisedSource h with ⟨d,found,eq⟩ | other
  · rw [eq,List.mem_singleton] at mem
    subst mem
    exact ⟨eq,aliasRecognised found⟩
  · exact absurd source (other c mem)

def Stepped (s : Session) (text : String) (before : List Action) (d : Command) : Prop :=
  d.source = .alias → .enter (.processing text) ∈ before ∧ ∃ c i custom, Recognised s.store text c i custom ∧
    .credit custom.name ∈ before ∧ d ∈ stepCommands custom.trigger custom

theorem effortSteps (s : Session) {commands : List Command} (honest : ∀ c ∈ commands, Parser.Honest c)
    (past : List Action) :
    Guarded (fun before d => d.source = .alias → ∃ c ∈ commands, c.source = .alias ∧
      ∃ custom, s.executor.resolve c = .ok custom ∧ .credit custom.name ∈ before ∧
        d ∈ stepCommands (triggerOf c) custom) (s.effort commands past).1 :=
  effortGuarded (chainSteps s.executor honest past)

theorem executeStepped (s : Session) {text : String} {past : List Action} {commands : List Command}
    (h : (s.recognise text past).2 = .ok commands) {before : List Action}
    (begun : .enter (.processing text) ∈ before) (now : List Action) :
    Guarded (fun later d => Stepped s text (before ++ later) d) (s.execute commands now).1 := by
  rw [executeRun]
  generalize now ++ [.enter (.executing (describe commands))] = started
  have quiet := quietUncalled (conclusionQuiet s commands (s.effort commands started).2)
  have announced : ∀ a ∈ [Action.enter (.executing (describe commands))], isCall a = false := by simp [isCall]
  refine guardedAppend (guardedUncalled announced) (guardedAppend ?_ (guardedUncalled quiet))
  refine guardedWeaken (effortSteps s (recognisedHonest h) started) fun later d stepped source => ?_
  obtain ⟨c,mem,own,other,resolved,credit,step⟩ := stepped source
  obtain ⟨_,i,custom,recognised⟩ := recognisedAlias h mem own
  have same : other = custom := recognisedSame rfl recognised resolved
  have trigger : triggerOf c = custom.trigger := by rw [recognised.command,triggerKept]
  refine ⟨by simp [begun],c,i,custom,recognised,?_,?_⟩
  · simp [← same,credit]
  · rw [← trigger,← same]
    exact step

theorem steppedLater {s : Session} {text : String} {before : List Action} {d : Command}
    (h : Stepped s text before d) (front : List Action) : Stepped s text (front ++ before) d := by
  intro source
  obtain ⟨begun,c,i,custom,recognised,credit,step⟩ := h source
  exact ⟨List.mem_append_right front begun,c,i,custom,recognised,List.mem_append_right front credit,step⟩

theorem runStepped (s : Session) (text : String) (past : List Action) :
    Guarded (Stepped s text) (s.run text past).1 := by
  have heard : Only (fun a => isEffort a = false) (s.recognise text) :=
    recogniseOnly (fun _ => rfl) (fun _ => rfl) s text
  have begun : Guarded (Stepped s text) [.enter (.processing text)] := guardedUncalled (by simp [isCall])
  rcases runCases s text past with ⟨e,_,eq⟩ | ⟨commands,recognised,eq⟩
  · rw [eq]
    refine guardedAppend begun (guardedAppend (guardedUncalled (quietUncalled (heard _))) ?_)
    exact guardedUncalled (by simp [isCall])
  · rw [eq]
    refine guardedAppend begun (guardedAppend (guardedUncalled (quietUncalled (heard _))) ?_)
    refine guardedAppend ?_ (guardedUncalled (by simp [isCall]))
    exact executeStepped s recognised List.mem_cons_self _

theorem turnStepped {s : Session} {past actions : List Action} (h : Turn s past actions) :
    Guarded (fun before d => ∃ text, Stepped s text before d) actions := by
  cases h with
  | outer outer => exact guardedUncalled (quietUncalled (outerQuiet outer))
  | @run front text outer =>
    refine guardedAppend (guardedUncalled (quietUncalled (outerQuiet outer))) ?_
    exact guardedWeaken (runStepped s text _) fun _ _ stepped => ⟨text,steppedLater stepped front⟩

/-- The message that an action shows to an observer. -/
def told : Action → Option String
  | .report outcome => some outcome.message
  | .enter (.completed _ message) | .enter (.error message) => some message
  | _ => none

theorem timeoutAvailable (seconds : Nat) (c : Command) :
    (CommandError.timeout seconds).message ≠ unavailable c := by
  change "Command timed out after " ++ toString seconds ++ "s" ≠
    "Custom command \"" ++ c.displayName ++ "\" is no longer available"
  intro same
  have chars := congrArg String.toList same
  have left : "Command timed out after ".toList = 'C' :: 'o' :: "mmand timed out after ".toList := rfl
  have right : "Custom command \"".toList = 'C' :: 'u' :: "stom command \"".toList := rfl
  simp only [String.toList_append,left,right,List.cons_append,List.cons.injEq] at chars
  exact absurd chars.2.1 (by decide)

theorem effortSingle {s : Session} {c : Command} {past : List Action} {outcomes : List Outcome}
    (h : (s.effort [c] past).2 = some outcomes) : outcomes = [(s.executor.execute c past).2] := by
  simp only [effort,Course.within] at h
  split at h
  · exact (Option.some.inj h).symm
  · cases h

/- A run of one command reports its outcome, and the phase in which it ends tells the same message. -/
theorem conclusionTold {s : Session} {c : Command} {message : String} {result : Option (List Outcome)}
    (late : (CommandError.timeout s.settings.executionTimeout).message ≠ message)
    (own : ∀ outcomes, result = some outcomes → ∃ o, outcomes = [o] ∧ o.message ≠ message) :
    ∀ a ∈ (s.conclusion [c] result).1 ++ [.enter (s.conclusion [c] result).2],
      told a ≠ some message := by
  intro a mem
  cases result with
  | none =>
    simp only [conclusion,List.cons_append,List.nil_append,List.mem_cons,List.not_mem_nil,or_false] at mem
    rcases mem with rfl | rfl
    · simp [told]
    · simpa [told] using late
  | some outcomes =>
    obtain ⟨o,single,other⟩ := own outcomes rfl
    have ending : told (.enter (verdict [c] [o])) = some o.message := by
      cases success : o.success <;> simp [verdict,chainFailure?,success,told]
    simp only [conclusion,single,List.map_cons,List.map_nil,List.cons_append,List.nil_append,
      List.mem_cons,List.not_mem_nil,or_false] at mem
    rcases mem with rfl | rfl | rfl
    · simp [told]
    · simpa [told] using other
    · simpa [ending] using other

theorem executeAvailable (s : Session) {text : String} {c : Command} {i : Nat} {custom : CustomCommand}
    (h : Recognised s.store text c i custom) (past : List Action) :
    ∀ a ∈ (s.execute [c] past).1, told a ≠ some (unavailable c) := by
  rw [executeRun]
  generalize past ++ [.enter (.executing (describe [c]))] = started
  have working : Only (fun a => told a = none) (s.effort [c]) :=
    effortOnly (fun _ => rfl) (fun _ => rfl) (fun _ _ => rfl) (fun _ => rfl) (fun _ => rfl) s [c]
  intro a mem
  rcases List.mem_cons.mp mem with rfl | mem
  · simp [told]
  · rcases List.mem_append.mp mem with mem | mem
    · simp [working started a mem]
    · refine conclusionTold (timeoutAvailable _ c) (fun outcomes finished => ?_) a mem
      have kept : s.executor.store = some s.store := rfl
      exact ⟨_,effortSingle finished,recognisedAvailable kept h started⟩

theorem okFromOption {ε α : Type} {result : Except ε α} {a : α} (h : result.toOption = some a) : result = .ok a := by
  cases result with
  | error e => simp [Except.toOption] at h
  | ok b => simpa [Except.toOption] using h

/- Executed, a recognised custom command is expanded, and if it is not refused its steps run in full. -/
theorem recognisedRun {ex : Executor} {store : Store} {text : String} {c : Command} {i : Nat} {custom : CustomCommand}
    (h : Recognised store text c i custom) : ex.execute c = ex.executeAlias c ∧
    (ex.resolve c = .ok custom → ∀ past,
      let chain := ex.executeChain (stepCommands custom.trigger custom) (past ++ [.credit custom.name])
      ex.executeAlias c past = (.credit custom.name :: chain.1,
        { aliasOutcome custom (stepCommands custom.trigger custom) chain.2 with
          nanoseconds := Outcome.nanosecondsOf (elapsed chain.1) })) := by
  have own : c.intent = .customAlias ∧ c.source = .alias := by
    rw [h.command]
    exact ⟨rfl,rfl⟩
  have trigger : triggerOf c = custom.trigger := by rw [h.command,triggerKept]
  refine ⟨?_,fun resolved past => ?_⟩
  · unfold Executor.execute
    rw [if_pos own]
  · have ran := aliasRun (resolvedSteps resolved).2 resolved past
    rw [trigger] at ran
    exact ran

/-- What the parser recognises as a custom command is found again by its trigger phrase, at the same place
of the store. In a session it is the only command of its text and is expanded into its own steps, which all run as a
chain, unless it is refused; it is never reported missing, and no other steps are called under a trigger phrase. -/
theorem aliasRunsAsRecognised :
    (∀ store text c, Parser.matchAlias? store text = some c → ∃ i custom, Recognised store text c i custom) ∧
    ∀ config registry classifierOf confirmation epoch earlier,
      let s := (Session.ofConfig config registry classifierOf confirmation epoch).calls earlier
      (∀ text past commands, (s.recognise text past).2 = .ok commands → ∀ c ∈ commands, c.source = .alias →
        commands = [c] ∧ ∃ i custom, Recognised s.store text c i custom ∧ Expansion s.executor c custom ∧
          (∀ past, ∀ a ∈ (s.execute commands past).1, told a ≠ some (unavailable c)) ∧
          s.executor.execute c = s.executor.executeAlias c ∧
          (s.executor.resolve c = .ok custom → ∀ past,
            let steps := custom.steps.map fun step =>
              { Command.new step.intent custom.trigger .alias with
                entities := step.parameters
                displayName := Template.displayName step.intent step.parameters }
            let chain := s.executor.executeChain steps (past ++ [.credit custom.name])
            s.executor.executeAlias c past = (.credit custom.name :: chain.1,
              { aliasOutcome custom steps chain.2 with
                nanoseconds := Outcome.nanosecondsOf (elapsed chain.1) }))) ∧
      ∀ call before d after, (s.course call s.past).1 = before ++ .call d :: after → d.source = .alias →
        ∃ text c i custom, .enter (.processing text) ∈ before ∧ Recognised s.store text c i custom ∧
          .credit custom.name ∈ before ∧ d ∈ stepCommands custom.trigger custom := by
  refine ⟨fun store text c found => aliasRecognised found,?_⟩
  intro config registry classifierOf confirmation epoch earlier s
  constructor
  · intro text past commands heard c mem source
    obtain ⟨single,i,custom,recognised⟩ := recognisedAlias heard mem source
    refine ⟨single,i,custom,recognised,recognisedExpansion rfl recognised,?_,recognisedRun recognised⟩
    rw [single]
    exact executeAvailable s recognised
  · intro call before d after split source
    obtain ⟨text,stepped⟩ := turnStepped (moveTurn (moves s call)) before d after split
    obtain ⟨begun,c,i,custom,recognised,credit,step⟩ := stepped source
    exact ⟨text,c,i,custom,begun,recognised,credit,step⟩

/- The first of the three is disabled and the last one comes too late. -/
theorem hushRunsAsRecognised :
    let hush := { CustomCommand.new "Hush" " Mute ALL" with steps := [⟨.volumeMute,.empty⟩,⟨.lockScreen,.empty⟩] }
    let store := [{ CustomCommand.new "Old" "mute all" with enabled := false },hush,
      CustomCommand.new "Later" "MUTE all "]
    let s := (Session.ofConfig { customCommands := store } desk.registry (fun _ => ⟨fun _ _ => (0,.error "")⟩)
      desk.confirmation desk.epoch).calls [.activate]
    let c := Parser.aliasCommand "mute all!" hush
    let mute := { Command.new .volumeMute " Mute ALL" .alias with displayName := "Toggle mute" }
    let lock := { Command.new .lockScreen " Mute ALL" .alias with displayName := "Lock screen" }
    let chain := s.executor.executeChain [mute,lock] (s.past ++ [.credit "Hush"])
    (∃ i custom, Recognised store "mute all!" c i custom) ∧
      (∃ i custom, Recognised s.store "mute all!" c i custom ∧ Expansion s.executor c custom) ∧
      s.executor.execute c s.past = (.credit "Hush" :: chain.1,
        { aliasOutcome hush [mute,lock] chain.2 with nanoseconds := Outcome.nanosecondsOf (elapsed chain.1) }) ∧
      (∃ before after, (s.course (.hear "mute all!") s.past).1 = before ++ .call lock :: after ∧
        .call mute ∈ before ∧ ∃ text c i custom, .enter (.processing text) ∈ before ∧
          Recognised s.store text c i custom ∧ .credit custom.name ∈ before ∧
          lock ∈ stepCommands custom.trigger custom) := by
  intro hush store s c mute lock chain
  have found : Parser.matchAlias? store "mute all!" = some c := by decide +kernel
  have heard : (s.recognise "mute all!" s.past).2 = .ok [c] := okFromOption (by decide +kernel)
  have resolved : s.executor.resolve c = .ok hush := okFromOption (by decide +kernel)
  have split : (s.course (.hear "mute all!") s.past).1 =
      [.disarm,.enter (.processing "mute all!"),.enter (.executing "Hush"),.credit "Hush",.call mute,.elapse 100,
        .elapse 300,.put "Lock screen?",.elapse 5,.ask "Lock screen?" true] ++ .call lock ::
        [.elapse 100,.keepUndo [],.report ⟨true,"Hush: 2 actions done",505000000,none⟩,
          .enter (.completed true "Hush: 2 actions done"),.ranSince 0,.arm .result 1500] := by
    decide +kernel
  obtain ⟨again,sessions⟩ := aliasRunsAsRecognised
  obtain ⟨expanded,stepped⟩ := sessions { customCommands := store } desk.registry
    (fun _ => ⟨fun _ _ => (0,.error "")⟩) desk.confirmation desk.epoch [.activate]
  obtain ⟨_,i,custom,recognised,expansion,_,execution,runs⟩ := expanded "mute all!" s.past [c] heard c (by simp) rfl
  obtain rfl : hush = custom := recognisedSame rfl recognised resolved
  refine ⟨again store "mute all!" c found,⟨i,hush,recognised,expansion⟩,?_,_,_,split,by simp,
    stepped (.hear "mute all!") _ lock _ split rfl⟩
  have steps : stepCommands hush.trigger hush = [mute,lock] := by decide +kernel
  rw [execution,← steps]
  exact runs resolved s.past

end VoiceCommand.Session
