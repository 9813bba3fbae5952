import Mathlib.Data.List.Chain
import VoiceCommand.Proofs.Session.Coherence

/-! What an observer learns from the events of a session. The phases told are a walk through the graph of phases
that ends where the session is, handlers are called in the executing phase alone, and the outcomes told there
are those of the chain that is executed. -/
namespace VoiceCommand

namespace Phase

/-- The graph of phases. -/
def leadsTo : Phase → Phase → Bool
  | .inactive,.listening _ => true
  | .listening _,.listening _ | .listening _,.processing _ | .listening _,.inactive => true
  | .processing _,.executing _ | .processing _,.error _ => true
  | .executing _,.completed _ _ | .executing _,.error _ => true
  | .completed _ _,.listening _ | .completed _ _,.processing _ | .completed _ _,.inactive => true
  | .error _,.listening _ | .error _,.processing _ | .error _,.inactive => true
  | _,_ => false

theorem idleListens {phase : Phase} (idle : phase.isBusy = false) (since : Timestamp) :
    phase.leadsTo (.listening since) = true := by
  cases phase <;> first | rfl | cases idle

theorem idleLeaves {phase : Phase} (idle : phase.isBusy = false) (active : phase.isInactive = false) :
    phase.leadsTo .inactive = true := by
  cases phase with
  | inactive => cases active
  | processing text => cases idle
  | executing name => cases idle
  | _ => rfl

theorem awakeProcesses {phase : Phase} (awake : phase.isListening = true ∨ phase.isShowingResult = true)
    (text : String) : phase.leadsTo (.processing text) = true ∧ phase.leadsTo .inactive = true := by
  cases phase <;> first | exact ⟨rfl,rfl⟩ | simp [isListening,isShowingResult] at awake

theorem executingEnds {phase : Phase} (showing : phase.isShowingResult = true) (name : String) :
    (executing name).leadsTo phase = true := by
  cases phase <;> first | rfl | simp [isShowingResult] at showing

end Phase

def Event.phases (events : List Event) : List Phase :=
  events.filterMap fun
    | .entered phase => some phase
    | _ => none

namespace Session
open Course (Only waiting)

/-- The phases told in a history, in order. -/
def entered (actions : List Action) : List Phase := Event.phases (Event.ofHistory actions)

def isTold : Action → Bool
  | .enter _ | .call _ | .report _ => true
  | _ => false

@[simp] theorem enteredAppend (first second : List Action) :
    entered (first ++ second) = entered first ++ entered second := by
  simp [entered,Event.phases,Event.ofHistory]

@[simp] theorem enteredEnter (phase : Phase) (rest : List Action) :
    entered (.enter phase :: rest) = phase :: entered rest := rfl

theorem enteredMem {phase : Phase} {actions : List Action} (mem : .enter phase ∈ actions) :
    phase ∈ entered actions := by
  obtain ⟨before,after,split⟩ := List.append_of_mem mem
  simp [split]

theorem enteredUntold {actions : List Action} (untold : ∀ a ∈ actions, isTold a = false) :
    entered actions = [] := by
  induction actions with
  | nil => rfl
  | cons a rest ih =>
    have own := untold a List.mem_cons_self
    have later := ih fun b mem => untold b (List.mem_cons_of_mem _ mem)
    cases a <;> first | exact later | simp [isTold] at own

theorem enteredLast (first second : List Action) (phase : Phase) :
    (entered (first ++ second)).getLastD phase =
      (entered second).getLastD ((entered first).getLastD phase) := by
  simp only [enteredAppend,List.getLastD_eq_getLast?,List.getLast?_append]
  cases (entered second).getLast? <;> rfl

theorem phaseEntered (s : Session) (actions : List Action) :
    (s.after actions).phase = (entered actions).getLastD s.phase := by
  induction actions generalizing s with
  | nil => rfl
  | cons a rest ih =>
    rw [afterCons,ih]
    cases a with
    | enter phase => rw [enteredEnter,List.getLastD_cons]; rfl
    | _ => rfl

/-- From every entry into the executing phase a part without entries leads to a result, as `p` says. -/
def Blocks (p : List Action → String → List Action → Phase → Prop) (past actions : List Action) : Prop :=
  ∀ before name rest, actions = before ++ .enter (.executing name) :: rest →
    ∃ mid ending after, rest = mid ++ .enter ending :: after ∧ entered mid = [] ∧
      ending.isShowingResult = true ∧ p (past ++ before) name mid ending

/-- What happens from this phase on, behind this past, as it is told. -/
structure Traced (p : List Action → String → List Action → Phase → Prop) (phase : Phase)
    (past actions : List Action) : Prop where
  path : (phase :: entered actions).IsChain fun a b => a.leadsTo b = true
  executing : ∀ before a after, actions = before ++ a :: after →
    (∃ c, a = .call c) ∨ (∃ o, a = .report o) → ∃ name, (entered before).getLastD phase = .executing name
  blocks : Blocks p past actions

section
variable {p : List Action → String → List Action → Phase → Prop} {phase : Phase}
  {past first second : List Action}

theorem tracedAppend (left : Traced p phase past first)
    (right : Traced p ((entered first).getLastD phase) (past ++ first) second) :
    Traced p phase past (first ++ second) := by
  refine ⟨?_,?_,?_⟩
  · obtain ⟨joint,path⟩ := List.isChain_cons.mp right.path
    rw [enteredAppend,← List.cons_append]
    refine left.path.append path fun last here next mem => ?_
    rw [List.getLast?_cons,← List.getLastD_eq_getLast?] at here
    cases Option.some.inj here
    exact joint next mem
  · intro before a after split told
    rcases splitAppend split with ⟨rest,eq⟩ | ⟨middle,eq,rest⟩
    · exact left.executing before a rest eq told
    · rw [eq,enteredLast]
      exact right.executing middle a after rest told
  · intro before name rest split
    rcases splitAppend split with ⟨inside,eq⟩ | ⟨middle,eq,behind⟩
    · obtain ⟨mid,ending,after,parts,unentered,showing,holds⟩ := left.blocks before name inside eq
      refine ⟨mid,ending,after ++ second,?_,unentered,showing,holds⟩
      rw [eq,List.append_assoc,List.append_cancel_left_eq,List.cons_append,List.cons.injEq] at split
      rw [← split.2,parts,List.append_assoc,List.cons_append]
    · rw [eq,← List.append_assoc]
      exact right.blocks middle name rest behind

theorem tracedUntold (untold : ∀ a ∈ first, isTold a = false) : Traced p phase past first := by
  refine ⟨by simp [enteredUntold untold],fun before a after split told => ?_,fun before name rest split => ?_⟩
  · have own := untold a (by simp [split])
    rcases told with ⟨c,same⟩ | ⟨o,same⟩ <;> simp [same,isTold] at own
  · have own := untold (.enter (.executing name)) (by simp [split])
    simp [isTold] at own

theorem tracedBehind (untold : ∀ a ∈ first, isTold a = false) (h : Traced p phase (past ++ first) second) :
    Traced p phase past (first ++ second) :=
  tracedAppend (tracedUntold untold) (by rw [enteredUntold untold]; exact h)

theorem tracedLater {a : Action} (untold : isTold a = false) (h : Traced p phase (past ++ [a]) second) :
    Traced p phase past (a :: second) :=
  tracedBehind (List.forall_mem_singleton.mpr untold) h

theorem tracedEntry {next : Phase} (leads : phase.leadsTo next = true)
    (idle : ∀ name, next ≠ .executing name) (h : Traced p next (past ++ [.enter next]) second) :
    Traced p phase past (.enter next :: second) := by
  have one : Traced p phase past [.enter next] := by
    refine ⟨.cons_cons leads (.singleton _),fun before a after split told => ?_,
      fun before name rest split => ?_⟩
    · have mem : a ∈ [Action.enter next] := by simp [split]
      rw [List.mem_singleton] at mem
      rcases told with ⟨c,same⟩ | ⟨o,same⟩ <;> simp [same] at mem
    · have mem : .enter (.executing name) ∈ [Action.enter next] := by simp [split]
      rw [List.mem_singleton,Action.enter.injEq] at mem
      exact absurd mem.symm (idle name)
  exact tracedAppend one h

/- Whatever is called or reported between the entry and the result has the executing phase right before it. -/
theorem tracedBlock {text name : String} {mid : List Action} {ending : Phase} (unentered : entered mid = [])
    (showing : ending.isShowingResult = true) (holds : p past name mid ending) :
    Traced p (.processing text) past (.enter (.executing name) :: (mid ++ [.enter ending])) := by
  refine ⟨?_,?_,?_⟩
  · have path : entered (.enter (.executing name) :: (mid ++ [.enter ending])) = [.executing name,ending] := by
      rw [enteredEnter,enteredAppend,unentered]
      rfl
    rw [path]
    exact .cons_cons rfl (.cons_cons (Phase.executingEnds showing name) (.singleton _))
  · intro before a after split told
    cases before with
    | nil =>
      have own := (List.cons.inj split).1
      rcases told with ⟨c,same⟩ | ⟨o,same⟩ <;> simp [← own] at same
    | cons b before =>
      obtain ⟨same,rest⟩ := List.cons.inj split
      rw [← same]
      rcases splitAppend rest with ⟨inside,eq⟩ | ⟨middle,eq,last⟩
      · have bare : entered before = [] := by
          rw [eq,enteredAppend] at unentered
          exact (List.append_eq_nil_iff.mp unentered).1
        exact ⟨name,by rw [enteredEnter,bare]; rfl⟩
      · have mem : a ∈ [Action.enter ending] := by simp [last]
        rw [List.mem_singleton] at mem
        rcases told with ⟨c,same⟩ | ⟨o,same⟩ <;> simp [mem] at same
  · intro before other rest split
    cases before with
    | nil =>
      obtain ⟨own,rest⟩ := List.cons.inj split
      cases own
      exact ⟨mid,ending,[],rest.symm,unentered,showing,by simpa using holds⟩
    | cons b before =>
      have mem : .enter (.executing other) ∈ mid ++ [Action.enter ending] := by
        simp [(List.cons.inj split).2]
      rcases List.mem_append.mp mem with mem | mem
      · have inside := enteredMem mem
        simp [unentered] at inside
      · rw [List.mem_singleton,Action.enter.injEq] at mem
        rw [← mem] at showing
        cases showing

theorem tracedWithin {q : List Action → String → List Action → Phase → Prop} (h : Traced p phase past first)
    (weaker : ∀ before name mid ending, p before name mid ending →
      before ++ .enter (.executing name) :: (mid ++ [.enter ending]) <+: past ++ first →
      q before name mid ending) : Traced q phase past first := by
  refine ⟨h.path,h.executing,fun before name rest split => ?_⟩
  obtain ⟨mid,ending,after,parts,unentered,showing,holds⟩ := h.blocks before name rest split
  refine ⟨mid,ending,after,parts,unentered,showing,weaker _ _ _ _ holds ⟨after,?_⟩⟩
  simp [split,parts]

end

/-- The session executes the commands of a text from the end of `before` on, and the events in `mid` are the
outcomes of the chain, unless it is given up. -/
structure Told (s : Session) (before : List Action) (name : String) (mid : List Action) (text : String)
    (commands : List Command) (front : List Action) : Prop where
  begun : s.past <+: front
  recognised : (s.recognise text (front ++ [.enter (.processing text)])).2 = .ok commands
  reached : before = front ++ .enter (.processing text) ::
    (s.recognise text (front ++ [.enter (.processing text)])).1
  named : name = describe commands
  events : let chain := s.executor.executeChain commands (before ++ [.enter (.executing name)])
    Event.ofHistory mid =
      if elapsed chain.1 ≤ s.settings.executionTimeout * 1000 then chain.2.map .finished else []

def IsTold (s : Session) (before : List Action) (name : String) (mid : List Action) (_ : Phase) : Prop :=
  ∃ text commands front, Told s before name mid text commands front

theorem effortEventless (s : Session) (commands : List Command) (past : List Action) :
    Event.ofHistory (s.effort commands past).1 = [] :=
  List.filterMap_eq_nil_iff.mpr (effortOnly (p := fun a => Event.ofAction? a = none) (fun _ => rfl)
    (fun _ => rfl) (fun _ _ => rfl) (fun _ => rfl) (fun _ => rfl) s commands past)

theorem reportEvents (outcomes : List Outcome) :
    Event.ofHistory (outcomes.map .report) = outcomes.map .finished := by
  rw [Event.ofHistory,List.filterMap_map,← List.filterMap_eq_map]
  rfl

theorem executeEvents (s : Session) (commands : List Command) (past : List Action) :
    let chain := s.executor.executeChain commands past
    Event.ofHistory ((s.effort commands past).1 ++ (s.conclusion commands (s.effort commands past).2).1) =
      if elapsed chain.1 ≤ s.settings.executionTimeout * 1000 then chain.2.map .finished else [] := by
  intro chain
  have silent := effortEventless s commands past
  rw [Event.ofHistory] at silent ⊢
  rw [List.filterMap_append,silent,List.nil_append]
  simp only [effort,Course.within]
  split
  · exact reportEvents chain.2
  · rfl

theorem executeTraced {s : Session} {text : String} {commands : List Command} {front before : List Action}
    (begun : s.past <+: front)
    (recognised : (s.recognise text (front ++ [.enter (.processing text)])).2 = .ok commands)
    (reached : before = front ++ .enter (.processing text) ::
      (s.recognise text (front ++ [.enter (.processing text)])).1) :
    Traced (IsTold s) (.processing text) before (s.execute commands before).1 := by
  have events := executeEvents s commands (before ++ [.enter (.executing (describe commands))])
  rw [executeRun]
  simp only
  rw [← List.append_assoc]
  refine tracedBlock ?_ (conclusionInner s commands _).2 ⟨text,commands,front,begun,recognised,reached,rfl,events⟩
  simp only at events
  rw [entered,events]
  split
  · simp [Event.phases]
  · rfl

theorem runTraced {s : Session} {phase : Phase} {text : String} {past : List Action} (begun : s.past <+: past)
    (leads : phase.leadsTo (.processing text) = true) :
    Traced (IsTold s) phase past (s.run text past).1 := by
  have heard : Only (fun a => isTold a = false) (s.recognise text) :=
    recogniseOnly (fun _ => rfl) (fun _ => rfl) s text
  have plain : ∀ a ∈ [Action.ranSince (elapsed past),.arm .result s.settings.resultDisplay],
      isTold a = false := by simp [isTold]
  rcases runCases s text past with ⟨e,_,shape⟩ | ⟨commands,recognised,shape⟩
  · rw [shape]
    refine tracedEntry leads (by simp) (tracedBehind (heard _) ?_)
    exact tracedEntry rfl (by simp) (tracedUntold plain)
  · rw [shape]
    refine tracedEntry leads (by simp) (tracedBehind (heard _) ?_)
    exact tracedAppend (executeTraced begun recognised (by simp)) (tracedUntold plain)

theorem processTraced {s : Session} {phase : Phase} {text : String} {past : List Action}
    (begun : s.past <+: past) (leads : phase.leadsTo (.processing text) = true)
    (leaves : phase.leadsTo .inactive = true) : Traced (IsTold s) phase past (s.process text past).1 := by
  rw [processRun]
  refine tracedLater rfl ?_
  split
  · exact tracedEntry leaves (by simp) (tracedUntold (by simp))
  · exact runTraced (begun.trans (List.prefix_append _ _)) leads

theorem waitingUntold (ms : Nat) : ∀ a ∈ waiting ms, isTold a = false := by
  intro a mem
  rw [Course.memWaiting mem]; rfl

theorem moveTraced {s : Session} (settled : Settled s) {c : Call} {actions : List Action}
    (h : Move s c actions) : Traced (IsTold s) s.phase s.past actions := by
  have coherent := settledCoherent settled
  have greeted {past second : List Action} (later : Traced (IsTold s)
      (.listening (s.epoch.later (elapsed s.past))) (past ++ s.greeting) second) :
      Traced (IsTold s) s.phase past (s.greeting ++ second) := by
    refine tracedEntry (Phase.idleListens coherent.idle _) (by simp) ?_
    exact tracedLater rfl (by simpa [greeting] using later)
  cases h with
  | rest => exact tracedUntold (by simp)
  | idle ms => exact tracedUntold (waitingUntold ms)
  | missed during => exact tracedUntold (by simp [isTold])
  | busy busy => exact tracedUntold (by simp [isTold])
  | leave =>
    refine tracedLater rfl ?_
    split
    · exact tracedUntold (by simp)
    · rename_i active
      exact tracedEntry (Phase.idleLeaves coherent.idle (by simpa using active)) (by simp)
        (tracedUntold (by simp))
  | activate =>
    have quiet : Traced (IsTold s) (.listening (s.epoch.later (elapsed s.past))) (s.past ++ s.greeting) [] :=
      tracedUntold (by simp)
    simpa using greeted quiet
  | accept awake =>
    obtain ⟨leads,leaves⟩ := Phase.awakeProcesses awake _
    exact processTraced List.prefix_rfl leads leaves
  | @wake _ _ hit spoken idle heard =>
    refine tracedLater rfl (greeted ?_)
    split
    · exact tracedUntold (by simp)
    · have later : s.past <+: s.past ++ .wake :: s.greeting := List.prefix_append _ _
      have traced : Traced (IsTold s) (.listening (s.epoch.later (elapsed s.past))) (s.past ++ .wake :: s.greeting)
          (s.process hit.remainder (s.past ++ .wake :: s.greeting)).1 := processTraced later rfl rfl
      simpa using traced
  | @fire d pending =>
    rw [settledFire settled pending]
    have active : s.phase.isInactive = false := by
      cases inactive : s.phase.isInactive with
      | false => rfl
      | true => simp [coherent.inactive.mp inactive] at pending
    refine tracedBehind (waitingUntold _) (tracedLater rfl ?_)
    exact tracedEntry (Phase.idleLeaves coherent.idle active) (by simp) (tracedUntold (by simp))

/-- It is one of the calls, made to the session that the earlier ones left behind, that executes the chain. -/
def ToldAmong (s : Session) (cs : List Call) (before : List Action) (name : String) (mid : List Action)
    (ending : Phase) : Prop :=
  ∃ earlier call later, cs = earlier ++ call :: later ∧
    IsTold (s.calls earlier) before name mid ending ∧
    before ++ .enter (.executing name) :: (mid ++ [.enter ending]) <+: (s.calls (earlier ++ [call])).past

theorem callPast (s : Session) (c : Call) : (s.call c).past = s.past ++ (s.course c s.past).1 := by
  cases c with
  | setEnabled intent enabled => simp [call,adjust,course]
  | _ => exact pastAfter s _

theorem callsTraced {s : Session} (settled : Settled s) (timed : Timed s) (cs : List Call) :
    ∃ history, (s.calls cs).past = s.past ++ history ∧
      (s.calls cs).phase = (entered history).getLastD s.phase ∧
      Traced (ToldAmong s cs) s.phase s.past history := by
  induction cs generalizing s with
  | nil => exact ⟨[],by simp [calls],rfl,tracedUntold (by simp)⟩
  | cons c rest ih =>
    have first := moveTraced settled (moves s c)
    obtain ⟨settledThen,timedThen⟩ := settledCall settled timed c
    obtain ⟨history,past,phase,traced⟩ := ih settledThen timedThen
    have entry : (s.call c).phase = (entered (s.course c s.past).1).getLastD s.phase := by
      rw [callPhase,phaseEntered]
    refine ⟨(s.course c s.past).1 ++ history,?_,?_,tracedAppend ?_ ?_⟩
    · change ((s.call c).calls rest).past = _
      rw [past,callPast,List.append_assoc]
    · change ((s.call c).calls rest).phase = _
      rw [phase,enteredLast,entry]
    · refine tracedWithin first fun before name mid ending told inside => ?_
      exact ⟨[],c,rest,rfl,told,by rw [← callPast] at inside; exact inside⟩
    · rw [← entry,← callPast]
      refine tracedWithin traced fun before name mid ending told _ => ?_
      obtain ⟨earlier,call,later,split,told,inside⟩ := told
      exact ⟨c :: earlier,call,later,by rw [split,List.cons_append],told,inside⟩

/-- The phases told by a new session, whatever is called, are a walk through the graph from the inactive phase to
the phase that it is in. Handlers are called and outcomes are told only while the phase told last is executing, and
each such phase is followed by a result; in between the events are the outcomes of the chain that the session
executes for a text, in order, or nothing if it is given up. -/
theorem eventsTold (registry : Registry) (wakeWord : WakeWord) (parser : Parser) (store : Store)
    (settings : SessionSettings) (confirmation : Option Prompt) (epoch : Timestamp) (cs : List Call) :
    let fresh := Session.new registry wakeWord parser store settings confirmation epoch
    let s := fresh.calls cs
    (Phase.inactive :: Event.phases (Event.ofHistory s.past)).IsChain (fun a b => a.leadsTo b = true) ∧
      s.phase = (Event.phases (Event.ofHistory s.past)).getLastD .inactive ∧
      (∀ before a after, s.past = before ++ a :: after → (∃ c, a = .call c) ∨ (∃ o, a = .report o) →
        ∃ name, (Event.phases (Event.ofHistory before)).getLast? = some (.executing name)) ∧
      ∀ before name rest, s.past = before ++ .enter (.executing name) :: rest →
        ∃ mid ending after, rest = mid ++ .enter ending :: after ∧ Event.phases (Event.ofHistory mid) = [] ∧
          ending.isShowingResult = true ∧ ToldAmong fresh cs before name mid ending := by
  intro fresh s
  obtain ⟨history,past,phase,traced⟩ := callsTraced (s := fresh) (.inactive rfl rfl) rfl cs
  have whole : s.past = history := past
  rw [whole]
  refine ⟨traced.path,phase,fun before a after split told => ?_,traced.blocks⟩
  obtain ⟨name,last⟩ := traced.executing before a after split told
  refine ⟨name,?_⟩
  rw [List.getLastD_eq_getLast?] at last
  change (entered before).getLast? = _
  cases here : (entered before).getLast? with
  | none => simp [here,fresh,Session.new] at last
  | some phase => simpa [here] using last

example : Event.ofHistory (desk.calls [.hear "hey type mute"]).past =
    [.entered (.listening ⟨0,0⟩),.entered (.processing "mute"),.entered (.executing "Toggle mute"),
      .finished ⟨true,"Muted",100000000,none⟩,.entered (.completed true "Muted")] := by decide +kernel

end Session

end VoiceCommand
