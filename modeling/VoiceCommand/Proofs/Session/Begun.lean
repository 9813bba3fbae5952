import VoiceCommand.Proofs.Executor.Credits
import VoiceCommand.Proofs.Session.Limit

/-! Which custom commands a session begins to run. They are read off the texts that it takes in, and off how much of
each run there is. -/
namespace VoiceCommand.Session
open Course (Only)
open Executor (chainBegun)

/-- The custom commands that are begun for a text, if `rest` is what has happened since it was taken in. -/
def begunFor (s : Session) (text : String) (past rest : List Action) : List CustomCommand :=
  match (s.recognise text past).2 with
  | .error _ => []
  | .ok commands =>
    let lead := (s.recognise text past).1 ++ [.enter (.executing (describe commands))]
    if lead.isPrefixOf rest then
      s.executor.begun (elapsed (rest.drop lead.length)) (past ++ lead) commands
    else []

/-- The custom commands of which a session reaches the first step in some part of its history behind `past`: those
that are begun for the texts taken in there. -/
def begun (s : Session) : List Action → List Action → List CustomCommand
  | _, [] => []
  | past, .enter (.processing text) :: rest =>
    s.begunFor text (past ++ [.enter (.processing text)]) rest ++
      s.begun (past ++ [.enter (.processing text)]) rest
  | past, a :: rest => s.begun (past ++ [a]) rest

/-- With this no custom command is begun. -/
def isMute : Action → Bool
  | .credit _ | .enter (.processing _) => false
  | _ => true

theorem muteCredits {actions : List Action} (mute : ∀ a ∈ actions, isMute a = true) : credits actions = [] := by
  refine creditsNone fun a mem => ?_
  have own := mute a mem
  cases a <;> first | rfl | cases own

def takesText : Action → Bool
  | .enter (.processing _) => true
  | _ => false

theorem muteUntaken {a : Action} (mute : isMute a = true) : takesText a = false := by
  cases a with
  | enter phase => cases phase <;> first | rfl | cases mute
  | _ => rfl

theorem untakenBegun {s : Session} {front : List Action} (untaken : ∀ a ∈ front, takesText a = false)
    (past rest : List Action) : s.begun past (front ++ rest) = s.begun (past ++ front) rest := by
  induction front generalizing past with
  | nil => simp
  | cons a front ih =>
    have own := untaken a List.mem_cons_self
    have later := ih (fun b mem => untaken b (List.mem_cons_of_mem _ mem)) (past ++ [a])
    rw [List.append_assoc] at later
    cases a with
    | enter phase => cases phase <;> first | exact later | cases own
    | _ => exact later

theorem untakenNone {s : Session} {actions : List Action} (untaken : ∀ a ∈ actions, takesText a = false)
    (past : List Action) : s.begun past actions = [] := by
  have all := untakenBegun (s := s) untaken past []
  rwa [List.append_nil] at all

theorem cutKeeps {p : Action → Prop} (waits : ∀ ms, p (.elapse ms)) {actions : List Action}
    (each : ∀ a ∈ actions, p a) (limit : Nat) : ∀ a ∈ cutAt limit actions, p a := by
  intro a mem
  rcases memCut mem with inside | elapse
  · exact each a inside
  · cases a <;> first | exact waits _ | cases elapse

theorem elapsedReports (outcomes : List Outcome) : elapsed (outcomes.map .report) = 0 := by
  induction outcomes with
  | nil => rfl
  | cons o rest ih => exact ih

/-- What a run does behind the execution of its commands. -/
def closing (s : Session) (commands : List Command) (past : List Action) (start : Nat) : List Action :=
  let ended := s.conclusion commands (s.effort commands past).2
  ended.1 ++ [.enter ended.2,.ranSince start,.arm .result s.settings.resultDisplay]

theorem conclusionMute (s : Session) (commands : List Command) (result : Option (List Outcome)) :
    (∀ a ∈ (s.conclusion commands result).1, isMute a = true) ∧ elapsed (s.conclusion commands result).1 = 0 := by
  cases result with
  | none => exact ⟨by simp [conclusion,isMute],rfl⟩
  | some outcomes =>
    have reported : ∀ a ∈ outcomes.map Action.report, isMute a = true := List.forall_mem_map.mpr fun _ _ => rfl
    exact ⟨List.forall_mem_cons.mpr ⟨rfl,reported⟩,elapsedReports outcomes⟩

theorem closingMute (s : Session) (commands : List Command) (past : List Action) (start : Nat) :
    (∀ a ∈ s.closing commands past start, isMute a = true) ∧ elapsed (s.closing commands past start) = 0 := by
  unfold closing
  generalize (s.effort commands past).2 = result
  obtain ⟨mute,instant⟩ := conclusionMute s commands result
  have entered : isMute (.enter (s.conclusion commands result).2) = true := by
    have shown := (conclusionInner s commands result).2
    generalize (s.conclusion commands result).2 = phase at shown
    cases phase <;> first | rfl | cases shown
  refine ⟨List.forall_mem_append.mpr ⟨mute,?_⟩,?_⟩
  · simp only [List.forall_mem_cons,entered]
    simp [isMute]
  · simp only [elapsedAppend,instant]
    rfl

/- The limit of the run and that of the part looked at come to one, and later than its end neither matters. -/
theorem workBegun (s : Session) (commands : List Command) (past : List Action) (start limit : Nat) :
    let work := cutAt limit ((s.effort commands past).1 ++ s.closing commands past start)
    credits work = (s.executor.begun (elapsed work) past commands).map (·.name) := by
  intro work
  obtain ⟨mute,instant⟩ := closingMute s commands past start
  have effort : (s.effort commands past).1 =
      cutAt (s.settings.executionTimeout * 1000) (s.executor.executeChain commands past).1 := withinCut _ _ _
  have time : elapsed work = min limit (elapsed (s.effort commands past).1) := by
    rw [elapsedCut,elapsedAppend,instant,Nat.add_zero]
  have early : credits work = credits (cutAt limit (s.effort commands past).1) := by
    change credits (cutAt limit _) = _
    rw [cutAppend]
    split
    · rename_i inTime
      rw [creditsAppend,muteCredits (cutKeeps (fun _ => rfl) mute _),List.append_nil,cutWhole inTime]
    · rfl
  rw [early,← chainBegun,time,effort,cutTwice,elapsedCut,← Nat.min_assoc,cutLater]

theorem forBegun (s : Session) (text : String) (past rest : List Action) (limit : Nat)
    (shape : (s.run text past).1 = .enter (.processing text) :: rest) : credits (cutAt limit rest) =
      (s.begunFor text (past ++ [.enter (.processing text)]) (cutAt limit rest)).map (·.name) := by
  have heard : Only (fun a => isMute a = true) (s.recognise text) :=
    recogniseOnly (fun _ => rfl) (fun _ => rfl) s text
  rcases runCases s text past with ⟨e,unknown,course⟩ | ⟨commands,recognised,course⟩
  · have mute : ∀ a ∈ rest, isMute a = true := by
      rw [← (List.cons.inj (course.symm.trans shape)).2]
      exact List.forall_mem_append.mpr ⟨heard _,by simp [isMute]⟩
    rw [muteCredits (cutKeeps (fun _ => rfl) mute limit)]
    simp only [begunFor,unknown,List.map_nil]
  · generalize past ++ [.enter (.processing text)] = taken at *
    have split : rest = (s.recognise text taken).1 ++ [.enter (.executing (describe commands))] ++
        ((s.effort commands (taken ++ ((s.recognise text taken).1 ++ [.enter (.executing (describe commands))]))).1 ++
          s.closing commands (taken ++ ((s.recognise text taken).1 ++
            [.enter (.executing (describe commands))])) (elapsed past)) := by
      rw [← (List.cons.inj (course.symm.trans shape)).2,executeRun,closing]
      simp
    simp only [begunFor,recognised]
    generalize lead : (s.recognise text taken).1 ++ [.enter (.executing (describe commands))] = front at *
    have quiet : ∀ a ∈ front, isMute a = true := by
      rw [← lead]
      exact List.forall_mem_append.mpr ⟨heard _,by simp [isMute]⟩
    rw [split,cutAppend]
    by_cases fits : elapsed front ≤ limit
    · rw [if_pos fits,if_pos (List.isPrefixOf_iff_prefix.mpr (List.prefix_append _ _)),List.drop_left,creditsAppend,
        muteCredits quiet,List.nil_append]
      exact workBegun s commands _ _ _
    · have broken : ¬ front.isPrefixOf (cutAt limit front) = true := by
        intro all
        obtain ⟨behind,whole⟩ := List.isPrefixOf_iff_prefix.mp all
        have time := congrArg elapsed whole
        rw [elapsedAppend,elapsedCut] at time
        omega
      rw [if_neg fits,if_neg broken,muteCredits (cutKeeps (fun _ => rfl) quiet limit)]
      rfl

theorem runBegun (s : Session) (text : String) (past : List Action) (limit : Nat) :
    credits (cutAt limit (s.run text past).1) = (s.begun past (cutAt limit (s.run text past).1)).map (·.name) := by
  obtain ⟨inner,result,own,shown,shape⟩ := runShape s text past
  have untaken : ∀ a ∈ inner ++ [.enter result,.ranSince (elapsed past),.arm .result s.settings.resultDisplay],
      takesText a = false := by
    have ending : takesText (.enter result) = false := by
      cases result <;> first | rfl | cases shown
    refine List.forall_mem_append.mpr ⟨fun a mem => ?_,by simpa [takesText] using ending⟩
    have inside := own a mem
    cases a with
    | enter phase => cases phase <;> first | rfl | cases inside
    | _ => rfl
  have work := forBegun s text past _ limit shape
  rw [shape,(instantly (by simp) _).2]
  generalize inner ++ [Action.enter result,.ranSince (elapsed past),.arm .result s.settings.resultDisplay] = rest at *
  change credits (cutAt limit rest) = (s.begunFor text _ (cutAt limit rest) ++ s.begun _ (cutAt limit rest)).map _
  rw [untakenNone (cutKeeps (fun _ => rfl) untaken limit),List.append_nil]
  exact work

/- Before and after the run, or without one, nothing is begun. -/
theorem turnBegun {s : Session} {past actions : List Action} (turn : Turn s past actions) (limit : Nat) :
    credits (cutAt limit actions) = (s.begun past (cutAt limit actions)).map (·.name) := by
  have quiet {front : List Action} (outer : ∀ a ∈ front, isOuter a = true) : ∀ a ∈ front, isMute a = true := by
    intro a mem
    have own := outer a mem
    cases a with
    | enter phase => cases phase <;> first | rfl | cases own
    | _ => first | rfl | cases own
  have still {front : List Action} (outer : ∀ a ∈ front, isOuter a = true) (limit : Nat) :
      credits (cutAt limit front) = (s.begun past (cutAt limit front)).map (·.name) := by
    have mute := cutKeeps (fun _ => rfl) (quiet outer) limit
    rw [muteCredits mute,untakenNone fun a mem => muteUntaken (mute a mem)]
    rfl
  cases turn with
  | outer outer => exact still outer limit
  | @run front text outer =>
    rw [cutAppend]
    split
    · rw [creditsAppend,muteCredits (quiet outer),untakenBegun fun a mem => muteUntaken (quiet outer a mem)]
      exact runBegun s text (past ++ front) _
    · exact still outer limit

theorem begunStored {s : Session} {past actions : List Action} :
    ∀ custom ∈ s.begun past actions, custom ∈ s.store := by
  induction actions generalizing past with
  | nil => simp [begun]
  | cons a rest ih =>
    have text (text : String) (before : List Action) : ∀ custom ∈ s.begunFor text before rest, custom ∈ s.store := by
      intro custom mem
      unfold begunFor at mem
      split at mem
      · cases mem
      · dsimp only at mem
        split at mem
        · exact Executor.begunStored rfl _ _ _ custom mem
        · cases mem
    cases a with
    | enter phase =>
      cases phase with
      | processing said =>
        intro custom mem
        rcases List.mem_append.mp mem with own | later
        · exact text said _ custom own
        · exact ih custom later
      | _ => exact ih
    | _ => exact ih

end VoiceCommand.Session
