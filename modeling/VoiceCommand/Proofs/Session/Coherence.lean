import VoiceCommand.Proofs.Session.State

/-! Between two calls a session is in one of three situations, each with its own timer or none. Every call
leads from one of them to one of them, whatever the collaborators reply, so no timer is ever left over. -/
namespace VoiceCommand.Session
open Course (waiting)

/-- The last action of a kind happened at this time. -/
def LastAt (kind : Action → Bool) (history : List Action) (time : Nat) : Prop :=
  ∃ before a after, history = before ++ a :: after ∧ kind a = true ∧
    (∀ b ∈ after, kind b = false) ∧ time = elapsed before

def isListeningEntry : Action → Bool
  | .enter phase => phase.isListening
  | _ => false

def isRunEnd : Action → Bool
  | .ranSince _ => true
  | _ => false

theorem lastAtNow {kind : Action → Bool} {a : Action} (now : kind a = true) (history : List Action)
    {after : List Action} (quiet : ∀ b ∈ after, kind b = false) :
    LastAt kind (history ++ a :: after) (elapsed history) :=
  ⟨history,a,after,rfl,now,quiet,rfl⟩

theorem lastAtLater {kind : Action → Bool} {history later : List Action} {time : Nat}
    (h : LastAt kind history time) (unchanged : ∀ b ∈ later, kind b = false) :
    LastAt kind (history ++ later) time := by
  obtain ⟨before,a,after,split,now,quiet,moment⟩ := h
  refine ⟨before,a,after ++ later,by simp [split],now,fun b mem => ?_,moment⟩
  rcases List.mem_append.mp mem with mem | mem
  · exact quiet b mem
  · exact unchanged b mem

/-- What phase and timer say about each other, and when the timer runs out. -/
structure Coherent (s : Session) : Prop where
  idle : s.phase.isBusy = false
  inactive : s.phase.isInactive = true ↔ s.deadline = none
  listening : s.phase.isListening = true ↔ s.deadline.map (·.timer) = some .listening
  showing : s.phase.isShowingResult = true ↔ s.deadline.map (·.timer) = some .result
  listeningUntil : ∀ time, s.deadline = some ⟨time,.listening⟩ →
    ∃ entered, LastAt isListeningEntry s.past entered ∧
      time = entered + s.settings.listeningTimeout * 1000
  showingUntil : ∀ time, s.deadline = some ⟨time,.result⟩ →
    ∃ ended, LastAt isRunEnd s.past ended ∧ time = ended + s.settings.resultDisplay

inductive Settled (s : Session) : Prop where
  | inactive (phase : s.phase = .inactive) (deadline : s.deadline = none)
  | listening {since entered} (phase : s.phase = .listening since)
      (last : LastAt isListeningEntry s.past entered)
      (deadline : s.deadline = some ⟨entered + s.settings.listeningTimeout * 1000,.listening⟩)
  | showing {ended} (phase : s.phase.isShowingResult = true) (last : LastAt isRunEnd s.past ended)
      (deadline : s.deadline = some ⟨ended + s.settings.resultDisplay,.result⟩)

theorem settledCoherent {s : Session} (h : Settled s) : Coherent s := by
  cases h with
  | inactive phase deadline =>
    constructor <;> simp [phase,deadline,Phase.isBusy,Phase.isInactive,Phase.isListening,
      Phase.isShowingResult]
  | listening phase last deadline =>
    constructor
    case listeningUntil =>
      intro time pending
      rw [deadline] at pending
      cases pending
      exact ⟨_,last,rfl⟩
    all_goals simp [phase,deadline,Phase.isBusy,Phase.isInactive,Phase.isListening,
      Phase.isShowingResult]
  | showing phase last deadline =>
    constructor
    case showingUntil =>
      intro time pending
      rw [deadline] at pending
      cases pending
      exact ⟨_,last,rfl⟩
    all_goals
      revert phase
      cases s.phase <;> simp [deadline,Phase.isBusy,Phase.isInactive,Phase.isListening,
        Phase.isShowingResult]

def isStill : Action → Bool
  | .elapse _ | .ignore _ | .wake => true
  | _ => false

theorem settledStill {s : Session} (h : Settled s) {actions : List Action}
    (still : ∀ a ∈ actions, isStill a = true) : Settled (s.after actions) := by
  have phase : (s.after actions).phase = s.phase :=
    afterKeeps _ (fun _ a mem => by
      have own := still a mem
      cases a <;> first | rfl | simp [isStill] at own) s
  have deadline : (s.after actions).deadline = s.deadline :=
    afterKeeps _ (fun _ a mem => by
      have own := still a mem
      cases a <;> first | rfl | simp [isStill] at own) s
  have entered : ∀ a ∈ actions, isListeningEntry a = false := fun a mem => by
    have own := still a mem
    cases a <;> first | rfl | simp [isStill] at own
  have ended : ∀ a ∈ actions, isRunEnd a = false := fun a mem => by
    have own := still a mem
    cases a <;> first | rfl | simp [isStill] at own
  cases h with
  | inactive here none => exact .inactive (by rw [phase,here]) (by rw [deadline,none])
  | listening here last pending =>
    refine .listening (by rw [phase,here]) ?_ (by rw [deadline,settingsAfter,pending])
    rw [pastAfter]
    exact lastAtLater last entered
  | showing here last pending =>
    refine .showing (by rw [phase,here]) ?_ (by rw [deadline,settingsAfter,pending])
    rw [pastAfter]
    exact lastAtLater last ended

theorem waitingStill (ms : Nat) : ∀ a ∈ waiting ms, isStill a = true := by
  intro a mem
  rw [Course.memWaiting mem]; rfl

theorem settledDismissed (s : Session) : Settled (s.after [.disarm,.enter .inactive]) :=
  .inactive rfl rfl

theorem settledGreeted {s t : Session} (timed : Timed t) (settings : t.settings = s.settings) :
    Settled (t.after s.greeting) := by
  have last : LastAt isListeningEntry (t.past ++ s.greeting) (elapsed t.past) :=
    lastAtNow rfl t.past (by simp [isListeningEntry])
  refine .listening rfl (by rw [pastAfter]; exact last) ?_
  rw [settingsAfter,← timed,settings]; rfl

theorem settledRun {s t : Session} (timed : Timed t) (settings : t.settings = s.settings)
    (text : String) {past : List Action} : Settled (t.after (s.run text past).1) := by
  obtain ⟨inner,result,own,shown,shape⟩ := runShape s text past
  rw [shape,afterCons,afterAppend]
  generalize same : (t.apply (.enter (.processing text))).after inner = u
  have timedThen : Timed u := same ▸ timedAfter (timedAfter timed [.enter (.processing text)]) inner
  have settingsThen : u.settings = s.settings := by
    rw [← same,settingsAfter]; exact settings
  have last : LastAt isRunEnd (u.past ++ .enter result :: [.ranSince (elapsed past),
      .arm .result s.settings.resultDisplay]) (elapsed u.past) := by
    have ended : LastAt isRunEnd ((u.past ++ [.enter result]) ++ .ranSince (elapsed past) ::
        [.arm .result s.settings.resultDisplay]) (elapsed (u.past ++ [.enter result])) :=
      lastAtNow rfl _ (by simp [isRunEnd])
    rw [elapsedAppend] at ended
    simpa [elapsed] using ended
  refine .showing shown (by rw [pastAfter]; exact last) ?_
  rw [settingsAfter,← timedThen,settingsThen]; rfl

theorem settledProcess {s t : Session} (timed : Timed t) (settings : t.settings = s.settings)
    (text : String) {past : List Action} : Settled (t.after (s.process text past).1) := by
  rw [processRun]
  split
  · exact settledDismissed t
  · exact settledRun (timedAfter timed [.disarm]) settings text

theorem settledFire {s : Session} (h : Settled s) {d : Deadline} (pending : s.deadline = some d)
    (past : List Action) : (s.fire d.timer past).1 = [.disarm,.enter .inactive] := by
  rw [fireRun]
  cases h with
  | inactive phase free => rw [free] at pending; cases pending
  | listening phase last deadline =>
    rw [deadline] at pending
    cases pending
    simp [phase,Phase.isListening]
  | showing phase last deadline =>
    rw [deadline] at pending
    cases pending
    simp [phase]

theorem settledMove {s : Session} (settled : Settled s) (timed : Timed s) {c : Call}
    {actions : List Action} (h : Move s c actions) : Settled (s.after actions) := by
  cases h with
  | rest => exact settled
  | idle ms => exact settledStill settled (waitingStill ms)
  | missed during => exact settledStill settled (by simp [isStill])
  | busy busy => exact settledStill settled (by simp [isStill])
  | leave =>
    split
    · rename_i already
      exact .inactive (inactivePhase already) rfl
    · exact settledDismissed s
  | activate => exact settledGreeted timed rfl
  | accept awake => exact settledProcess timed rfl _
  | @wake _ _ hit spoken idle heard =>
    have woken : Timed (s.after [.wake]) := timedAfter timed [.wake]
    rw [afterCons]
    split
    · rw [List.append_nil]
      exact settledGreeted woken rfl
    · rw [afterAppend]
      exact settledProcess (timedAfter woken s.greeting) (settingsAfter _ _) _
  | fire pending =>
    rw [settledFire settled pending,afterAppend]
    exact settledDismissed _

theorem settledCall {s : Session} (settled : Settled s) (timed : Timed s) (c : Call) :
    Settled (s.call c) ∧ Timed (s.call c) := by
  rcases callCases s c with eq | ⟨registry,eq⟩
  · rw [eq]
    exact ⟨settledMove settled timed (moves s c),timedAfter timed _⟩
  · rw [eq]
    refine ⟨?_,timed⟩
    cases settled with
    | inactive phase deadline => exact .inactive phase deadline
    | listening phase last deadline => exact .listening phase last deadline
    | showing phase last deadline => exact .showing phase last deadline

theorem settledCalls {s : Session} (settled : Settled s) (timed : Timed s) (cs : List Call) :
    Settled (s.calls cs) ∧ Timed (s.calls cs) := by
  induction cs generalizing s with
  | nil => exact ⟨settled,timed⟩
  | cons c rest ih =>
    obtain ⟨settledThen,timedThen⟩ := settledCall settled timed c
    exact ih settledThen timedThen

theorem settledTick {s : Session} (settled : Settled s) (active : s.phase.isInactive = false) :
    ∃ d, s.deadline = some d ∧
      (s.course .tick s.past).1 = waiting (d.time - s.clock) ++ [.disarm,.enter .inactive] ∧
      (s.call .tick).phase = .inactive ∧ (s.call .tick).deadline = none := by
  cases pending : s.deadline with
  | none => simp [(settledCoherent settled).inactive.mpr pending] at active
  | some d =>
    have ticked : (s.course .tick s.past).1 =
        waiting (d.time - s.clock) ++ [.disarm,.enter .inactive] := by
      simp only [course,tick,pending,Course.bindRun,Course.waitRun,Course.pureRun,
        settledFire settled pending]
      simp
    have eq : s.call .tick = (s.after (waiting (d.time - s.clock))).after [.disarm,.enter .inactive] := by
      rw [← afterAppend,← ticked]; rfl
    refine ⟨d,rfl,ticked,?_⟩
    rw [eq]
    exact ⟨rfl,rfl⟩

theorem newSettled (registry : Registry) (wakeWord : WakeWord) (parser : Parser) (store : Store)
    (settings : SessionSettings) (confirmation : Option Prompt) (epoch : Timestamp) (cs : List Call) :
    Settled ((Session.new registry wakeWord parser store settings confirmation epoch).calls cs) ∧
      Timed ((Session.new registry wakeWord parser store settings confirmation epoch).calls cs) :=
  settledCalls (.inactive rfl rfl) (by unfold Timed; rfl) cs

/-- After any calls, phase and timer of a new session agree; no text is dropped as coming during a
run, no timer is left over, and the pending one leads straight back to the beginning. -/
theorem phaseAndTimerAgree (registry : Registry) (wakeWord : WakeWord) (parser : Parser) (store : Store)
    (settings : SessionSettings) (confirmation : Option Prompt) (epoch : Timestamp) (cs : List Call) :
    let s := (Session.new registry wakeWord parser store settings confirmation epoch).calls cs
    Coherent s ∧ s.clock = elapsed s.past ∧
      s.activate = s.enterListening ∧ (∀ text dropped, .ignore dropped ∉ (s.hear text s.past).1) ∧
      (∀ d, s.deadline = some d → ∀ past, (s.fire d.timer past).1 = [.disarm,.enter .inactive]) ∧
      (s.phase.isInactive = false → ∃ d, s.deadline = some d ∧
        (s.course .tick s.past).1 = waiting (d.time - s.clock) ++ [.disarm,.enter .inactive] ∧
        (s.call .tick).phase = .inactive ∧ (s.call .tick).deadline = none) := by
  intro s
  obtain ⟨settled,timed⟩ :=
    newSettled registry wakeWord parser store settings confirmation epoch cs
  have coherent : Coherent s := settledCoherent settled
  have greets : s.activate = s.enterListening := by
    unfold activate
    rw [if_neg (by simp [coherent.idle])]
  exact ⟨coherent,timed,greets,hearHeeds coherent.idle,fun d pending => settledFire settled pending,
    settledTick settled⟩

end VoiceCommand.Session
