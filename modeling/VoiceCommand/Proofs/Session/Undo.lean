import VoiceCommand.Proofs.Executor.Undo
import VoiceCommand.Proofs.Session.Clearance

/-! Undo actions of a session. A run keeps those that were offered for its own commands, if it ends in time;
what the steps of a custom command offer and what a run has done that is given up is lost. -/
namespace VoiceCommand.Session
open Course (Only)
open Executor (Whole chainOffers directAppend directOffers directUncalled inOrderSome offered replies
  undoOffered wholeAppend wholeUncalled)
open Gates (isCall)

def isReport : Action → Bool
  | .report _ => true
  | _ => false

def isKeeping : Action → Bool
  | .keepUndo _ => true
  | _ => false

/-- What is left to undo after these actions: nothing, if no outcome was published. -/
def owed (s : Session) (past actions : List Action) : List UndoAction :=
  if actions.any isReport then (directOffers s.registry past actions).reverse else []

def Undone (s : Session) (past actions : List Action) : Prop :=
  ∃ front back, actions = front ++ .keepUndo (s.owed past actions) :: back ∧ ∀ a ∈ back, isKeeping a = false

theorem undoneAfter {s : Session} {past actions : List Action} (h : Undone s past actions) (t : Session) :
    (t.after actions).undo = s.owed past actions := by
  obtain ⟨front,back,split,last⟩ := h
  generalize s.owed past actions = kept at split
  rw [split,afterAppend,afterCons]
  refine afterKeeps (·.undo) (fun _ a mem => ?_) _
  have own := last a mem
  cases a <;> first | rfl | simp [isKeeping] at own

def Plain (a : Action) : Prop := isCall a = false ∧ isReport a = false ∧ isKeeping a = false

section
variable {s : Session} {past : List Action}

theorem undoneBehind (front : List Action) {actions : List Action} (plain : ∀ a ∈ front, Plain a)
    (h : Undone s (past ++ front) actions) : Undone s past (front ++ actions) := by
  have uncalled : ∀ a ∈ front, isCall a = false := fun a mem => (plain a mem).1
  have same : s.owed past (front ++ actions) = s.owed (past ++ front) actions := by
    have silent : front.any isReport = false := by
      simpa using fun a mem => (plain a mem).2.1
    unfold owed
    rw [directAppend (wholeUncalled uncalled),directUncalled uncalled,List.any_append,silent]
    rfl
  obtain ⟨first,back,split,last⟩ := h
  exact ⟨front ++ first,back,by rw [same,List.append_assoc,← split],last⟩

/- All that was called has replied before the outcomes are published. -/
theorem finishedUndone {work back : List Action} {outcomes : List Outcome}
    (whole : Whole s.registry past work)
    (offers : directOffers s.registry past work = outcomes.filterMap offered) (nonempty : outcomes ≠ [])
    (plain : ∀ a ∈ back, Plain a) :
    Undone s past (work ++ .keepUndo (Outcome.undoActions outcomes) :: (outcomes.map .report ++ back)) := by
  generalize tail : (.keepUndo (Outcome.undoActions outcomes) :: (outcomes.map .report ++ back)) = rest
  have uncalled : ∀ a ∈ rest, isCall a = false := by
    rw [← tail]
    intro a mem
    simp only [List.mem_cons,List.mem_append,List.mem_map] at mem
    rcases mem with rfl | ⟨o,_,rfl⟩ | mem
    · rfl
    · rfl
    · exact (plain a mem).1
  have reported : (work ++ rest).any isReport = true := by
    obtain ⟨o,others,begins⟩ := List.exists_cons_of_ne_nil nonempty
    simp [← tail,begins,isReport]
  have own : s.owed past (work ++ rest) = Outcome.undoActions outcomes := by
    rw [owed,if_pos reported,directAppend whole,directUncalled uncalled,List.append_nil,offers,undoOffered]
  refine ⟨work,outcomes.map .report ++ back,by rw [own,tail],fun a mem => ?_⟩
  rcases List.mem_append.mp mem with mem | mem
  · obtain ⟨o,_,rfl⟩ := List.mem_map.mp mem
    rfl
  · exact (plain a mem).2.2

theorem lateUndone {work back : List Action} (unreported : ∀ a ∈ work, isReport a = false)
    (plain : ∀ a ∈ back, Plain a) : Undone s past (work ++ .keepUndo [] :: back) := by
  have silent : (work ++ .keepUndo [] :: back).any isReport = false := by
    simp only [List.any_append,List.any_cons,Bool.or_eq_false_iff,List.any_eq_false,Bool.not_eq_true]
    exact ⟨unreported,rfl,fun a mem => (plain a mem).2.1⟩
  have own : s.owed past (work ++ .keepUndo [] :: back) = [] := by
    rw [owed,silent]
    rfl
  exact ⟨work,back,by rw [own],fun a mem => (plain a mem).2.2⟩

end

theorem effortCases (s : Session) (commands : List Command) (past : List Action) :
    s.effort commands past = ((s.executor.executeChain commands past).1,
      some (s.executor.executeChain commands past).2) ∨ (s.effort commands past).2 = none := by
  simp only [effort,Course.within]
  split
  · exact .inl rfl
  · exact .inr rfl

theorem effortUnreported (s : Session) (commands : List Command) (past : List Action) :
    ∀ a ∈ (s.effort commands past).1, isReport a = false :=
  effortOnly (p := fun a => isReport a = false) (fun _ => rfl) (fun _ => rfl) (fun _ _ => rfl)
    (fun _ => rfl) (fun _ => rfl) s commands past

theorem executeUndone (s : Session) {commands : List Command} (honest : ∀ c ∈ commands, Parser.Honest c)
    (nonempty : commands ≠ []) {past back : List Action} (plain : ∀ a ∈ back, Plain a) :
    Undone s past ((s.execute commands past).1 ++ back) := by
  have ending (result : Phase) : ∀ a ∈ .enter result :: back, Plain a :=
    List.forall_mem_cons.mpr ⟨⟨rfl,rfl,rfl⟩,plain⟩
  rw [executeRun]
  refine undoneBehind [.enter (.executing (describe commands))]
    (by simp [Plain,isCall,isReport,isKeeping]) ?_
  generalize past ++ [.enter (.executing (describe commands))] = started
  -- a run that is given up may end within a wait, but then nothing is owed for what it did
  rcases effortCases s commands started with inTime | late
  · obtain ⟨whole,offers⟩ := chainOffers s.executor honest started
    have finished := finishedUndone (s := s) whole offers (inOrderSome nonempty started)
      (ending (verdict commands (s.executor.executeChain commands started).2))
    simpa [inTime,conclusion] using finished
  · have given : Undone s started _ := lateUndone (s := s) (effortUnreported s commands started)
      (ending (.error (CommandError.timeout s.settings.executionTimeout).message))
    simpa [late,conclusion] using given

theorem recognisedSome {s : Session} {text past commands}
    (h : (s.recognise text past).2 = .ok commands) : commands ≠ [] := by
  rcases recognisedCases h with ⟨nonempty,_⟩ | ⟨c,single,_⟩
  · exact nonempty
  · simp [single]

theorem runUndone {s : Session} {text name : String} {past : List Action}
    (reached : .enter (.executing name) ∈ (s.run text past).1) : Undone s past (s.run text past).1 := by
  have plain : Only Plain (s.recognise text) :=
    recogniseOnly (fun _ => ⟨rfl,rfl,rfl⟩) (fun _ => ⟨rfl,rfl,rfl⟩) s text
  have unexecuted : Only (fun a => a ≠ .enter (.executing name)) (s.recognise text) :=
    recogniseOnly (by simp) (by simp) s text
  rcases runCases s text past with ⟨e,_,eq⟩ | ⟨commands,recognised,eq⟩
  · rw [eq] at reached
    simp only [List.mem_cons,List.mem_append,Action.enter.injEq,reduceCtorEq,List.not_mem_nil,
      or_false,false_or] at reached
    exact absurd rfl (unexecuted _ _ reached)
  · rw [eq]
    refine undoneBehind [.enter (.processing text)] (by simp [Plain,isCall,isReport,isKeeping])
      (undoneBehind _ (plain _) ?_)
    exact executeUndone s (recognisedHonest recognised) (recognisedSome recognised)
      (by simp [Plain,isCall,isReport,isKeeping])

theorem turnUndone {s : Session} {past actions : List Action} (h : Turn s past actions) {name : String}
    (reached : .enter (.executing name) ∈ actions) : Undone s past actions := by
  cases h with
  | outer outer =>
    have own := outer _ reached
    simp [isOuter] at own
  | run outer =>
    rcases List.mem_append.mp reached with reached | reached
    · have own := outer _ reached
      simp [isOuter] at own
    · refine undoneBehind _ (fun a mem => ?_) (runUndone reached)
      have own := outer a mem
      cases a <;> first | exact ⟨rfl,rfl,rfl⟩ | simp [isOuter] at own

theorem callUndo (s : Session) (c : Call) : (s.call c).undo = (s.after (s.course c s.past).1).undo := by
  cases c <;> rfl

/- What is passed over may not matter. -/
theorem keptAlike {α β : Type} (keep : α → Bool) (f : α → Option β) (given : List α) :
    (given.filter keep).filterMap f = given.filterMap f ↔
      ∀ a ∈ given, (f a).isSome = true → keep a = true := by
  induction given with
  | nil => simp
  | cons a rest ih =>
    cases kept : keep a with
    | true => cases gives : f a <;> simp [kept,gives,ih]
    | false =>
      cases gives : f a with
      | none => simp [kept,gives,ih]
      | some b =>
        have shorter : ((rest.filter keep).filterMap f).length ≤ (rest.filterMap f).length :=
          (List.filter_sublist.filterMap f).length_le
        simp only [List.filter_cons,kept,Bool.false_eq_true,if_false,List.filterMap_cons,gives]
        constructor
        · intro same
          rw [same,List.length_cons] at shorter
          omega
        · intro all
          have own := all a List.mem_cons_self (by simp [gives])
          simp [kept] at own

theorem undoneOwed (s : Session) (past actions : List Action) :
    s.owed past actions = Outcome.undoActions (((replies s.registry past actions).filter
      fun r => actions.any isReport && r.1.source != .alias).map (·.2)) := by
  rw [owed,undoOffered,List.filterMap_map]
  cases actions.any isReport with
  | true => rfl
  | false => simp

/-- After a run that reached execution the undo actions are those that its handlers offered, the most recent
first, without those of custom commands' steps, and none at all if the run was given up. So they are all
that was offered if and only if nothing was offered by a step or by a run that was given up. -/
theorem undoOfDirectCommands (start : Session) (earlier : List Call) (call : Call) (name : String) :
    let s := start.calls earlier
    let actions := (s.course call s.past).1
    let given := replies s.registry s.past actions
    .enter (.executing name) ∈ actions →
      (s.call call).undo = Outcome.undoActions ((given.filter
        fun r => actions.any isReport && r.1.source != .alias).map (·.2)) ∧
      ((s.call call).undo = Outcome.undoActions (given.map (·.2)) ↔
        ∀ r ∈ given, (offered r.2).isSome = true → actions.any isReport = true ∧ r.1.source ≠ .alias) := by
  intro s actions given reached
  have undone : (s.call call).undo = s.owed s.past actions := by
    rw [callUndo]
    exact undoneAfter (turnUndone (moveTurn (moves s call)) reached) s
  have kept : (s.call call).undo = Outcome.undoActions ((given.filter
      fun r => actions.any isReport && r.1.source != .alias).map (·.2)) := undone.trans (undoneOwed s _ _)
  refine ⟨kept,?_⟩
  rw [kept,undoOffered,undoOffered,List.reverse_inj,List.filterMap_map,List.filterMap_map,keptAlike]
  simp

/-- A session for examples: the volume goes down at once and is muted after five seconds, both can be undone,
and a custom command does both. A run may take so many seconds. -/
def bench (limit : Nat) : Session :=
  let reversible (delay : Nat) : Handler :=
    ⟨fun _ c => (delay,.ok { Outcome.succeeded c.displayName with undo := UndoAction.inverseOf? c })⟩
  let registry := (Registry.new.setHandler .volumeDown (reversible 0)).setHandler .volumeMute
    (reversible 5000)
  let evening := { CustomCommand.new "Evening" "evening" with
    steps := [⟨.volumeDown,.empty⟩,⟨.volumeMute,.empty⟩] }
  let settings : SessionSettings := { stepDelay := 0, executionTimeout := limit }
  .new registry (.ofSettings {}) (.new .zero) [evening] settings none ⟨0,0⟩

theorem chainUndone :
    let s := (bench 30).calls [.activate]
    let actions := (s.course (.hear "volume down and mute") s.past).1
    .enter (.executing "Volume down, then Toggle mute") ∈ actions ∧
      (s.call (.hear "volume down and mute")).undo =
        Outcome.undoActions ((replies s.registry s.past actions).map (·.2)) ∧
      Outcome.undoActions ((replies s.registry s.past actions).map (·.2)) =
        [⟨.volumeMute,.empty,"Undo Toggle mute"⟩,⟨.volumeUp,.empty,"Undo Volume down"⟩] := by
  intro s actions
  have reached : .enter (.executing "Volume down, then Toggle mute") ∈ actions := by decide +kernel
  have direct : ∀ r ∈ replies s.registry s.past actions, (offered r.2).isSome = true →
      actions.any isReport = true ∧ r.1.source ≠ .alias := by decide +kernel
  obtain ⟨_,exactly⟩ := undoOfDirectCommands (bench 30) [.activate] (.hear "volume down and mute") _ reached
  exact ⟨reached,exactly.mpr direct,by decide +kernel⟩

/- The steps of a custom command, and a chain that is given up while its second command is under way. -/
theorem undoForgotten :
    (let s := (bench 30).calls [.activate]
      let actions := (s.course (.hear "evening") s.past).1
      .enter (.executing "Evening") ∈ actions ∧
        Outcome.undoActions ((replies s.registry s.past actions).map (·.2)) =
          [⟨.volumeMute,.empty,"Undo Toggle mute"⟩,⟨.volumeUp,.empty,"Undo Volume down"⟩] ∧
        (s.call (.hear "evening")).undo = []) ∧
    (let s := (bench 1).calls [.activate]
      let actions := (s.course (.hear "volume down and mute") s.past).1
      .enter (.executing "Volume down, then Toggle mute") ∈ actions ∧
        Outcome.undoActions ((replies s.registry s.past actions).map (·.2)) =
          [⟨.volumeUp,.empty,"Undo Volume down"⟩] ∧
        (s.call (.hear "volume down and mute")).undo = []) := by
  decide +kernel

end VoiceCommand.Session
