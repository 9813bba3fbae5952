import VoiceCommand.Proofs.Executor.Steps
import VoiceCommand.Proofs.Session.State

/-! Gates over whole sessions. A call to a session makes at most one effort to execute commands, and outside
of it no handler is called, no question is put and no custom command is credited; so what holds of
the effort holds of the call. -/
namespace VoiceCommand.Session
open Course (Only)
open Executor (Credited Runnable)
open Gates (Cleared Guarded Unasked Vetted isCall guardedUncalled guardedAppend guardedCut guardedWeaken
  unaskedOfSilent vettedAppend)

def isEffort : Action → Bool
  | .call _ | .put _ | .ask _ _ | .credit _ => true
  | _ => false

inductive Working (s : Session) (past : List Action) : List Action → Prop where
  | quiet {actions} (quiet : ∀ a ∈ actions, isEffort a = false) : Working s past actions
  | effort {front commands back} (before : ∀ a ∈ front, isEffort a = false)
      (honest : ∀ c ∈ commands, Parser.Honest c) (behind : ∀ a ∈ back, isEffort a = false) :
      Working s past (front ++ ((s.effort commands (past ++ front)).1 ++ back))

theorem workingBehind {s : Session} {past front actions : List Action}
    (quiet : ∀ a ∈ front, isEffort a = false) (h : Working s (past ++ front) actions) :
    Working s past (front ++ actions) := by
  cases h with
  | quiet later =>
    refine .quiet fun a mem => ?_
    rcases List.mem_append.mp mem with mem | mem
    · exact quiet a mem
    · exact later a mem
  | @effort middle commands back before honest behind =>
    rw [← List.append_assoc front,List.append_assoc past]
    refine .effort (fun a mem => ?_) honest behind
    rcases List.mem_append.mp mem with mem | mem
    · exact quiet a mem
    · exact before a mem

theorem conclusionQuiet (s : Session) (commands : List Command) (result : Option (List Outcome)) :
    ∀ a ∈ (s.conclusion commands result).1 ++ [.enter (s.conclusion commands result).2],
      isEffort a = false := by
  cases result with
  | none => simp [conclusion,isEffort]
  | some outcomes =>
    simp only [conclusion,List.cons_append,List.mem_cons,List.mem_append,List.mem_map,
      List.not_mem_nil,or_false]
    rintro a (rfl | ⟨o,_,rfl⟩ | rfl) <;> rfl

theorem executeWorking (s : Session) {commands : List Command} {past back : List Action}
    (honest : ∀ c ∈ commands, Parser.Honest c) (behind : ∀ a ∈ back, isEffort a = false) :
    Working s past ((s.execute commands past).1 ++ back) := by
  have started : ∀ a ∈ [Action.enter (.executing (describe commands))], isEffort a = false := by
    simp [isEffort]
  rw [executeRun,List.cons_append,List.append_assoc]
  refine .effort started honest fun a mem => ?_
  rcases List.mem_append.mp mem with mem | mem
  · exact conclusionQuiet s commands _ a mem
  · exact behind a mem

theorem runWorking (s : Session) (text : String) (past : List Action) :
    Working s past (s.run text past).1 := by
  have heard : Only (fun a => isEffort a = false) (s.recognise text) :=
    recogniseOnly (fun _ => rfl) (fun _ => rfl) s text
  have begun : ∀ a ∈ [Action.enter (.processing text)], isEffort a = false := by simp [isEffort]
  rcases runCases s text past with ⟨e,_,eq⟩ | ⟨commands,recognised,eq⟩
  · rw [eq]
    refine workingBehind begun (workingBehind (heard _) (.quiet ?_))
    simp [isEffort]
  · rw [eq]
    refine workingBehind begun (workingBehind (heard _) ?_)
    exact executeWorking s (recognisedHonest recognised) (by simp [isEffort])

theorem outerQuiet {front : List Action} (outer : ∀ a ∈ front, isOuter a = true) :
    ∀ a ∈ front, isEffort a = false := by
  intro a mem
  have own := outer a mem
  cases a <;> first | rfl | simp [isOuter] at own

theorem turnWorking {s : Session} {past actions : List Action} (h : Turn s past actions) :
    Working s past actions := by
  cases h with
  | outer outer => exact .quiet (outerQuiet outer)
  | run outer => exact workingBehind (outerQuiet outer) (runWorking s _ _)

section
variable {history : List Action} (quiet : ∀ a ∈ history, isEffort a = false)
include quiet

theorem quietUncalled : ∀ a ∈ history, isCall a = false := by
  intro a mem
  have own := quiet a mem
  cases a <;> first | rfl | simp [isEffort] at own

theorem quietUnasked : Unasked history :=
  unaskedOfSilent fun a mem q same => by
    have own := quiet a mem
    simp [same,isEffort] at own

end

theorem effortGuarded {p : List Action → Command → Prop} {s : Session} {commands : List Command}
    {past : List Action} (whole : Guarded p (s.executor.executeChain commands past).1) :
    Guarded p (s.effort commands past).1 := by
  simp only [effort,Course.within]
  split
  · exact whole
  · exact guardedCut whole _

theorem effortVetted (s : Session) (commands : List Command) (past : List Action) :
    Vetted s.executor past (s.effort commands past).1 :=
  effortGuarded (Gates.chainVetted s.executor commands past)

theorem effortCredited (s : Session) {commands : List Command}
    (honest : ∀ c ∈ commands, Parser.Honest c) (past : List Action) :
    Guarded (fun before d => d.source = .alias → Credited s.registry s.store before d)
      (s.effort commands past).1 :=
  effortGuarded (@Executor.chainCredited s.executor s.store rfl commands honest past)

section
variable {s : Session} {past actions : List Action} (working : Working s past actions)
include working

theorem workingVetted : Vetted s.executor past actions := by
  cases working with
  | quiet quiet => exact guardedUncalled (quietUncalled quiet)
  | effort before honest behind =>
    refine vettedAppend (guardedUncalled (quietUncalled before)) (quietUnasked before) ?_
    exact guardedAppend (effortVetted s _ _) (guardedUncalled (quietUncalled behind))

theorem workingCredited :
    Guarded (fun before d => d.source = .alias → Credited s.registry s.store before d) actions := by
  cases working with
  | quiet quiet => exact guardedUncalled (quietUncalled quiet)
  | @effort front commands back before honest behind =>
    refine guardedAppend (guardedUncalled (quietUncalled before)) ?_
    refine guardedAppend ?_ (guardedUncalled (quietUncalled behind))
    refine guardedWeaken (effortCredited s honest _) fun inside d credited source => ?_
    obtain ⟨custom,trigger,runnable,credit,step⟩ := credited source
    exact ⟨custom,trigger,runnable,List.mem_append_right front credit,step⟩

theorem workingCredits {name : String} (mem : .credit name ∈ actions) :
    ∃ custom, custom.name = name ∧ Runnable s.registry s.store custom := by
  cases working with
  | quiet quiet =>
    have own := quiet _ mem
    simp [isEffort] at own
  | @effort front commands back before honest behind =>
    simp only [List.mem_append] at mem
    rcases mem with mem | mem | mem
    · have own := before _ mem
      simp [isEffort] at own
    · have credits : Only _ (s.executor.executeChain commands) :=
        @Executor.chainCredits s.executor s.store rfl commands
      exact credits.within (by simp) _ _ (.credit name) mem name rfl
    · have own := behind _ mem
      simp [isEffort] at own

end

/-- Whatever was said and done before, a handler is called only for a command that its entry lets
through, and a step of a custom command only while that custom command may run. -/
theorem executionCleared (start : Session) (earlier : List Call) (call : Call) :
    let s := start.calls earlier
    let actions := (s.course call s.past).1
    (∀ before c after, actions = before ++ .call c :: after →
      (∃ e, Cleared (s.after before).registry s.confirmation s.past before c e) ∧
        (c.source = .alias → Credited (s.after before).registry s.store before c)) ∧
    ∀ name, .credit name ∈ actions →
      ∃ custom, custom.name = name ∧ Runnable s.registry s.store custom := by
  intro s actions
  have working : Working s s.past actions := turnWorking (moveTurn (moves s call))
  refine ⟨fun before c after split => ?_,fun name mem => workingCredits working mem⟩
  rw [registryAfter]
  exact ⟨workingVetted working before c after split,workingCredited working before c after split⟩

theorem leavingCleared :
    let s := desk.calls [.activate]
    let c := { Command.new .lockScreen "leaving now" .alias with displayName := "Lock screen" }
    let before := [.disarm,.enter (.processing "Leaving now"),.enter (.executing "Leaving"),
      .credit "Leaving",.put "Lock screen?",.elapse 5,.ask "Lock screen?" true]
    (∃ after, (s.course (.hear "Leaving now") s.past).1 = before ++ .call c :: after) ∧
      (∃ e, Cleared s.registry s.confirmation s.past before c e) ∧
      Credited s.registry s.store before c ∧ ∃ custom, Runnable s.registry s.store custom := by
  intro s c before
  have split : (s.course (.hear "Leaving now") s.past).1 = before ++ .call c ::
      [.elapse 100,.keepUndo [],.report ⟨true,"Leaving: 1 actions done",105000000,none⟩,
        .enter (.completed true "Leaving: 1 actions done"),.ranSince 0,.arm .result 1500] := by
    decide +kernel
  obtain ⟨calls,credits⟩ := executionCleared desk [.activate] (.hear "Leaving now")
  obtain ⟨cleared,credited⟩ := calls before c _ split
  obtain ⟨custom,_,runnable⟩ := credits "Leaving" (by rw [split]; simp [before])
  exact ⟨⟨_,split⟩,by simpa using cleared,by simpa using credited rfl,custom,runnable⟩

end VoiceCommand.Session
