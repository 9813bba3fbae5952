import VoiceCommand.Proofs.Executor.Actions
import VoiceCommand.Proofs.Parser.Actions
import VoiceCommand.Session.Call

/-! How actions change a session, and which actions each of its operations performs. A run is described
once: it enters its phases, works, and ends with a result that is shown for a while. -/
namespace VoiceCommand.Session
open Course (Only waiting)

@[simp] theorem afterNil (s : Session) : s.after [] = s := rfl

@[simp] theorem afterCons (s : Session) (a : Action) (rest : List Action) :
    s.after (a :: rest) = (s.apply a).after rest := rfl

@[simp] theorem afterAppend (s : Session) (first second : List Action) :
    s.after (first ++ second) = (s.after first).after second := List.foldl_append

theorem afterKeeps {β : Type} (part : Session → β) {actions : List Action}
    (keeps : ∀ s : Session, ∀ a ∈ actions, part (s.apply a) = part s) (s : Session) :
    part (s.after actions) = part s := by
  induction actions generalizing s with
  | nil => rfl
  | cons a rest ih =>
    rw [afterCons,ih fun s b mem => keeps s b (List.mem_cons_of_mem _ mem)]
    exact keeps s a List.mem_cons_self

@[simp] theorem pastAfter (s : Session) (actions : List Action) :
    (s.after actions).past = s.past ++ actions := by
  induction actions generalizing s with
  | nil => simp
  | cons a rest ih =>
    have step : (s.apply a).past = s.past ++ [a] := by cases a <;> rfl
    rw [afterCons,ih,step,List.append_assoc]; rfl

@[simp] theorem clockAfter (s : Session) (actions : List Action) :
    (s.after actions).clock = s.clock + elapsed actions := by
  induction actions generalizing s with
  | nil => rfl
  | cons a rest ih =>
    rw [afterCons,ih]
    cases a with
    | elapse ms => exact Nat.add_assoc s.clock ms (elapsed rest)
    | _ => rfl

@[simp] theorem settingsAfter (s : Session) (actions : List Action) :
    (s.after actions).settings = s.settings :=
  afterKeeps _ (fun _ a _ => by cases a <;> rfl) s

@[simp] theorem registryAfter (s : Session) (actions : List Action) :
    (s.after actions).registry = s.registry :=
  afterKeeps _ (fun _ a _ => by cases a <;> rfl) s

def Timed (s : Session) : Prop := s.clock = elapsed s.past

theorem timedAfter {s : Session} (h : Timed s) (actions : List Action) : Timed (s.after actions) := by
  unfold Timed
  rw [clockAfter,pastAfter,elapsedAppend,h]

def isInner : Action → Bool
  | .elapse _ | .call _ | .put _ | .ask _ _ | .classify _ | .credit _ | .report _ | .keepUndo _
  | .enter (.executing _) => true
  | _ => false

theorem recogniseOnly {p : Action → Prop} (waits : ∀ ms, p (.elapse ms))
    (asks : ∀ text, p (.classify text)) (s : Session) (text : String) : Only p (s.recognise text) := by
  unfold recognise
  split
  · exact (Parser.parseChainOnly waits asks _ _ _).bind fun _ => .pure _
  · exact (Parser.parseOnly waits asks _ _ _).bind fun _ => .pure _

theorem recognisedCases {s : Session} {text past commands}
    (h : (s.recognise text past).2 = .ok commands) :
    (commands ≠ [] ∧ commands = (s.parser.parseChain s.store text past).2) ∨
      ∃ c, commands = [c] ∧ (s.parser.parse s.store text past).2 = .ok c := by
  unfold recognise at h
  split at h
  · simp only [Course.bindRun,Course.pureRun] at h
    split at h
    · simp at h
    · rename_i nonempty
      rw [← Except.ok.inj h]
      exact .inl ⟨fun empty => nonempty (List.isEmpty_iff.mpr empty),rfl⟩
  · simp only [Course.bindRun,Course.pureRun] at h
    cases result : (s.parser.parse s.store text past).2 with
    | error e => simp [result,Except.map] at h
    | ok command =>
      simp only [result,Except.map,Except.ok.injEq] at h
      exact .inr ⟨command,h.symm,rfl⟩

theorem recognisedSource {s : Session} {text past commands}
    (h : (s.recognise text past).2 = .ok commands) :
    (∃ c, Parser.matchAlias? s.store text = some c ∧ commands = [c]) ∨
      ∀ c ∈ commands, c.source ≠ .alias := by
  rcases recognisedCases h with ⟨_,chain⟩ | ⟨c,single,parsed⟩
  · rw [chain]
    exact Parser.chainSource
  · rw [single]
    exact (Parser.parseSource parsed).imp (fun found => ⟨c,found,rfl⟩) (by simp)

theorem recognisedHonest {s : Session} {text past commands}
    (h : (s.recognise text past).2 = .ok commands) : ∀ c ∈ commands, Parser.Honest c := by
  intro c mem source
  rcases recognisedSource h with ⟨d,found,eq⟩ | other
  · rw [eq,List.mem_singleton] at mem
    subst mem
    exact Parser.aliasHonest found source
  · exact absurd source (other c mem)

def effort (s : Session) (commands : List Command) : Course (Option (List Outcome)) :=
  Course.within (s.settings.executionTimeout * 1000) (s.executor.executeChain commands)

def conclusion (s : Session) (commands : List Command) :
    Option (List Outcome) → List Action × Phase
  | some outcomes => (.keepUndo (Outcome.undoActions outcomes) :: outcomes.map .report,
      verdict commands outcomes)
  | none => ([.keepUndo []],.error (CommandError.timeout s.settings.executionTimeout).message)

theorem forMReports (outcomes : List Outcome) (past : List Action) :
    (forM outcomes fun o => Course.perform (.report o)) past = (outcomes.map .report,()) := by
  induction outcomes generalizing past with
  | nil => rfl
  | cons o rest ih => rw [List.forM_cons,Course.bindRun,ih]; rfl

theorem executeRun (s : Session) (commands : List Command) (past : List Action) :
    (s.execute commands past).1 =
      .enter (.executing (describe commands)) ::
        ((s.effort commands (past ++ [.enter (.executing (describe commands))])).1 ++
          let result := (s.effort commands (past ++ [.enter (.executing (describe commands))])).2
          (s.conclusion commands result).1 ++ [.enter (s.conclusion commands result).2]) := by
  unfold execute effort
  simp only [Course.bindRun,Course.performRun]
  cases (Course.within (s.settings.executionTimeout * 1000) (s.executor.executeChain commands)
      (past ++ [.enter (.executing (describe commands))])).2 with
  | none => simp [conclusion]
  | some outcomes => simp [conclusion,finish,forMReports]

theorem conclusionInner (s : Session) (commands : List Command) (result : Option (List Outcome)) :
    (∀ a ∈ (s.conclusion commands result).1, isInner a = true) ∧
      (s.conclusion commands result).2.isShowingResult = true := by
  cases result with
  | none => exact ⟨by simp [conclusion,isInner],rfl⟩
  | some outcomes =>
    constructor
    · simp [conclusion,isInner]
    · simp only [conclusion,verdict]
      split
      · split <;> rfl
      · rfl

theorem effortOnly {p : Action → Prop} (waits : ∀ ms, p (.elapse ms)) (puts : ∀ q, p (.put q))
    (asks : ∀ q a, p (.ask q a)) (calls : ∀ c, p (.call c)) (credits : ∀ name, p (.credit name))
    (s : Session) (commands : List Command) : Only p (s.effort commands) :=
  (Executor.chainOnly waits puts asks calls credits s.executor commands).within waits _

theorem effortInner (s : Session) (commands : List Command) (past : List Action) :
    ∀ a ∈ (s.effort commands past).1, isInner a = true :=
  effortOnly (p := fun a => isInner a = true) (fun _ => rfl) (fun _ => rfl) (fun _ _ => rfl) (fun _ => rfl)
    (fun _ => rfl) s commands past

theorem runCases (s : Session) (text : String) (past : List Action) :
    let heard := s.recognise text (past ++ [.enter (.processing text)])
    let ending := [Action.ranSince (elapsed past),.arm .result s.settings.resultDisplay]
    (∃ e, heard.2 = .error e ∧ (s.run text past).1 =
      .enter (.processing text) :: (heard.1 ++ (.enter (.error e.message) :: ending))) ∨
    (∃ commands, heard.2 = .ok commands ∧ (s.run text past).1 =
      .enter (.processing text) :: (heard.1 ++
        ((s.execute commands (past ++ [.enter (.processing text)] ++ heard.1)).1 ++ ending))) := by
  simp only [run,Course.bindRun,Course.nowRun,Course.performRun,List.append_nil,List.nil_append]
  cases (s.recognise text (past ++ [.enter (.processing text)])).2 with
  | error e => exact .inl ⟨e,rfl,by simp⟩
  | ok commands => exact .inr ⟨commands,rfl,by simp⟩

theorem executeShape (s : Session) (commands : List Command) (past : List Action) :
    ∃ inner result, (∀ a ∈ inner, isInner a = true) ∧ result.isShowingResult = true ∧
      (s.execute commands past).1 = inner ++ [.enter result] := by
  rw [executeRun]
  generalize past ++ [.enter (.executing (describe commands))] = begun
  obtain ⟨own,shown⟩ := conclusionInner s commands (s.effort commands begun).2
  refine ⟨.enter (.executing (describe commands)) :: ((s.effort commands begun).1 ++
    (s.conclusion commands (s.effort commands begun).2).1),_,?_,shown,by simp⟩
  intro a mem
  simp only [List.mem_cons,List.mem_append] at mem
  rcases mem with rfl | mem | mem
  · rfl
  · exact effortInner s commands begun a mem
  · exact own a mem

theorem runShape (s : Session) (text : String) (past : List Action) :
    ∃ inner result, (∀ a ∈ inner, isInner a = true) ∧ result.isShowingResult = true ∧
      (s.run text past).1 = .enter (.processing text) :: (inner ++
        [.enter result,.ranSince (elapsed past),.arm .result s.settings.resultDisplay]) := by
  have heard : Only (fun a => isInner a = true) (s.recognise text) :=
    recogniseOnly (fun _ => rfl) (fun _ => rfl) s text
  rcases runCases s text past with ⟨e,_,eq⟩ | ⟨commands,_,eq⟩
  · exact ⟨_,.error e.message,heard _,rfl,eq⟩
  · obtain ⟨inner,result,own,shown,shape⟩ := executeShape s commands
      (past ++ [.enter (.processing text)] ++
        (s.recognise text (past ++ [.enter (.processing text)])).1)
    refine ⟨(s.recognise text (past ++ [.enter (.processing text)])).1 ++ inner,result,?_,shown,?_⟩
    · intro a mem
      rcases List.mem_append.mp mem with mem | mem
      · exact heard _ a mem
      · exact own a mem
    · rw [eq,shape]
      simp

theorem processRun (s : Session) (text : String) (past : List Action) :
    (s.process text past).1 = .disarm ::
      if isCancelPhrase text then [.enter .inactive] else (s.run text (past ++ [.disarm])).1 := by
  unfold process
  rw [Course.bindRun]
  split <;> rfl

theorem deactivateRun (s : Session) (past : List Action) :
    (s.deactivate past).1 = .disarm :: if s.phase.isInactive then [] else [.enter .inactive] := by
  unfold deactivate
  rw [Course.bindRun]
  split <;> rfl

theorem fireRun (s : Session) (timer : Timer) (past : List Action) :
    (s.fire timer past).1 = .disarm :: match timer with
      | .listening => if s.phase.isListening then [.enter .inactive] else []
      | .result => if s.phase.isShowingResult then [.enter .inactive] else [] := by
  unfold fire
  rw [Course.bindRun]
  cases timer with
  | listening => cases s.phase.isListening <;> rfl
  | result => cases s.phase.isShowingResult <;> rfl

def greeting (s : Session) : List Action :=
  [.enter (.listening (s.epoch.later (elapsed s.past))),
    .arm .listening (s.settings.listeningTimeout * 1000)]

def spokenText : Call → Option String
  | .hear text => some text
  | .hearSegment segment => some segment.text
  | _ => none

/-- What a call can make happen, with the reasons. -/
inductive Move (s : Session) : Call → List Action → Prop where
  | rest {c} : Move s c []
  | idle (ms) : Move s (.idle ms) (waiting ms)
  | missed {segment} (during : s.missed segment.received = true) :
      Move s (.hearSegment segment) [.ignore segment.text]
  | busy {c text} (busy : s.phase.isBusy = true) : Move s c [.ignore text]
  | leave {c} : Move s c (.disarm :: if s.phase.isInactive then [] else [.enter .inactive])
  | activate : Move s .activate s.greeting
  | accept {c text} (awake : s.phase.isListening = true ∨ s.phase.isShowingResult = true) :
      Move s c (s.process text s.past).1
  | wake {c text hit} (spoken : spokenText c = some text) (idle : s.phase.isBusy = false)
      (heard : s.wakeWord.detect? s.lastHit s.clock (Text.trim text) = some hit) :
      Move s c (.wake :: (s.greeting ++ if hit.remainder.isEmpty then []
        else (s.process hit.remainder (s.past ++ .wake :: s.greeting)).1))
  | fire {d} (pending : s.deadline = some d) :
      Move s .tick (waiting (d.time - s.clock) ++
        (s.fire d.timer (s.past ++ waiting (d.time - s.clock))).1)

theorem listeningRun (s : Session) {past : List Action} (same : elapsed past = elapsed s.past) :
    s.enterListening past = (s.greeting,()) := by
  simp [enterListening,greeting,same]

theorem hearMove {s : Session} {c : Call} {text : String} (spoken : spokenText c = some text) :
    Move s c (s.hear text s.past).1 := by
  unfold hear
  split
  · exact .rest
  · split
    · rw [deactivateRun]
      exact .leave
    · split
      · rename_i busy
        exact .busy busy
      · rename_i idle
        split
        · rename_i listening
          exact .accept (.inl listening)
        · cases heard : s.wakeWord.detect? s.lastHit s.clock (Text.trim text) with
          | none =>
            split
            · rename_i showing
              exact .accept (.inr showing)
            · exact .rest
          | some hit =>
            have quiet : elapsed (s.past ++ [.wake]) = elapsed s.past := by
              rw [elapsedAppend]; rfl
            have wake := Move.wake spoken (by simpa using idle) heard
            simp only [Course.bindRun,Course.performRun,listeningRun s quiet]
            cases empty : hit.remainder.isEmpty <;> simpa [empty] using wake

theorem moves (s : Session) (c : Call) : Move s c (s.course c s.past).1 := by
  cases c with
  | hear text => exact hearMove rfl
  | hearSegment segment =>
    simp only [course,hearSegment]
    split
    · rename_i during
      exact .missed during
    · exact hearMove rfl
  | activate =>
    simp only [course,activate]
    split
    · exact .rest
    · rw [listeningRun s rfl]
      exact .activate
  | deactivate =>
    simp only [course,deactivateRun]
    exact .leave
  | tick =>
    simp only [course,tick,Course.bindRun]
    cases pending : s.deadline with
    | none => exact .rest
    | some d => simpa using .fire pending
  | idle ms => exact .idle ms
  | setEnabled intent enabled => exact .rest

def isOuter : Action → Bool
  | .elapse _ | .ignore _ | .wake | .disarm | .arm _ _ | .enter .inactive | .enter (.listening _) => true
  | _ => false

theorem waitingOuter (ms : Nat) : ∀ a ∈ waiting ms, isOuter a = true := by
  intro a mem
  rw [Course.memWaiting mem]; rfl

theorem fireOuter (s : Session) (timer : Timer) (past : List Action) :
    ∀ a ∈ (s.fire timer past).1, isOuter a = true := by
  rw [fireRun]
  cases timer with
  | listening => simp only; split <;> simp [isOuter]
  | result => simp only; split <;> simp [isOuter]

inductive Turn (s : Session) (past : List Action) : List Action → Prop where
  | outer {actions} (outer : ∀ a ∈ actions, isOuter a = true) : Turn s past actions
  | run {front text} (outer : ∀ a ∈ front, isOuter a = true) :
      Turn s past (front ++ (s.run text (past ++ front)).1)

theorem turnBehind {s : Session} {past front actions : List Action}
    (outer : ∀ a ∈ front, isOuter a = true) (h : Turn s (past ++ front) actions) :
    Turn s past (front ++ actions) := by
  cases h with
  | outer later =>
    refine .outer fun a mem => ?_
    rcases List.mem_append.mp mem with mem | mem
    · exact outer a mem
    · exact later a mem
  | @run middle text later =>
    rw [← List.append_assoc front,List.append_assoc past]
    refine .run fun a mem => ?_
    rcases List.mem_append.mp mem with mem | mem
    · exact outer a mem
    · exact later a mem

theorem processTurn (s : Session) (text : String) (past : List Action) :
    Turn s past (s.process text past).1 := by
  rw [processRun]
  split
  · exact .outer (by simp [isOuter])
  · exact .run (by simp [isOuter] : ∀ a ∈ [Action.disarm], isOuter a = true)

theorem moveTurn {s : Session} {c : Call} {actions : List Action} (h : Move s c actions) :
    Turn s s.past actions := by
  cases h with
  | rest => exact .outer (by simp)
  | idle ms => exact .outer (waitingOuter ms)
  | missed during => exact .outer (by simp [isOuter])
  | busy busy => exact .outer (by simp [isOuter])
  | leave => exact .outer (by split <;> simp [isOuter])
  | activate => exact .outer (by simp [greeting,isOuter])
  | accept awake => exact processTurn s _ s.past
  | @wake _ _ hit spoken idle heard =>
    rw [← List.cons_append]
    refine turnBehind (by simp [greeting,isOuter]) ?_
    split
    · exact .outer (by simp)
    · exact processTurn s _ _
  | @fire d pending => exact turnBehind (waitingOuter _) (.outer (fireOuter s _ _))

theorem processHeeds (s : Session) (text : String) (past : List Action) :
    ∀ dropped, .ignore dropped ∉ (s.process text past).1 := by
  intro dropped mem
  rw [processRun] at mem
  split at mem
  · simp at mem
  · obtain ⟨inner,result,own,_,shape⟩ := runShape s text (past ++ [.disarm])
    rw [shape] at mem
    simp only [List.mem_cons,List.mem_append,reduceCtorEq,List.not_mem_nil,or_false,
      false_or] at mem
    have absent := own _ mem
    simp [isInner] at absent

/- Only what comes during a run is dropped, and a session that is not busy hears. -/
theorem hearHeeds {s : Session} (idle : s.phase.isBusy = false) (text : String) :
    ∀ dropped, .ignore dropped ∉ (s.hear text s.past).1 := by
  intro dropped mem
  have move : Move s (.hear text) (s.hear text s.past).1 := hearMove rfl
  generalize (s.hear text s.past).1 = actions at mem move
  cases move with
  | rest => simp at mem
  | busy busy => simp [busy] at idle
  | leave => split at mem <;> simp at mem
  | accept awake => exact processHeeds s _ _ dropped mem
  | @wake _ _ hit spoken idle heard =>
    simp only [List.mem_cons,List.mem_append,reduceCtorEq,false_or,greeting,List.not_mem_nil] at mem
    split at mem
    · simp at mem
    · exact processHeeds s _ _ dropped mem

theorem callCases (s : Session) (c : Call) :
    s.call c = s.after (s.course c s.past).1 ∨
      ∃ registry, s.call c = { s with registry := registry } := by
  cases c with
  | setEnabled intent enabled => exact .inr ⟨_,rfl⟩
  | _ => exact .inl rfl

theorem inactivePhase {phase : Phase} (h : phase.isInactive = true) : phase = .inactive := by
  cases phase <;> first | rfl | simp [Phase.isInactive] at h

theorem callPhase (s : Session) (c : Call) : (s.call c).phase = (s.after (s.course c s.past).1).phase := by
  cases c <;> rfl

/-- A session for examples: two handlers that take their time, a custom command that locks the screen and
a user who agrees to everything. -/
def desk : Session :=
  let slow (message : String) : Handler := ⟨fun _ _ => (100,.ok (.succeeded message))⟩
  let registry := (Registry.new.setHandler .lockScreen (slow "Locked")).setHandler .volumeMute
    (slow "Muted")
  let leaving := { CustomCommand.new "Leaving" "leaving now" with steps := [⟨.lockScreen,.empty⟩] }
  .new registry (.ofSettings {}) (.new .zero) [leaving] {} (some ⟨fun _ _ => (5,true)⟩) ⟨0,0⟩

end VoiceCommand.Session
