import VoiceCommand.Proofs.Session.Coherence

/-! Speech during runs. The runs of a session follow one another, and what arrived during one of them is
dropped as long as no later run has begun; the session remembers no more than its latest run. -/
namespace VoiceCommand.Session

/-- Start and end of the runs in a history that begins at `now`, given when the run under way began. -/
def runsFrom : Nat → Nat → List Action → List (Nat × Nat)
  | _,_,[] => []
  | _,now,.enter (.processing _) :: rest => runsFrom now now rest
  | begun,now,.ranSince _ :: rest => (begun,now) :: runsFrom begun now rest
  | begun,now,.elapse ms :: rest => runsFrom begun (now + ms) rest
  | begun,now,_ :: rest => runsFrom begun now rest

def runs (history : List Action) : List (Nat × Nat) := runsFrom 0 0 history

def marksRun : Action → Bool
  | .enter (.processing _) | .ranSince _ => true
  | _ => false

theorem runsFromAppend (begun now : Nat) (first second : List Action) : ∃ later,
    runsFrom begun now (first ++ second) =
      runsFrom begun now first ++ runsFrom later (now + elapsed first) second := by
  fun_induction runsFrom begun now first with
  | case1 begun now => exact ⟨begun,rfl⟩
  | case2 begun now text rest ih => exact ih
  | case3 begun now start rest ih =>
    obtain ⟨later,eq⟩ := ih
    exact ⟨later,by simp [runsFrom,eq,elapsed]⟩
  | case4 begun now ms rest ih =>
    obtain ⟨later,eq⟩ := ih
    exact ⟨later,by simp [runsFrom,eq,elapsed,Nat.add_assoc]⟩
  | case5 begun now a rest notBegun notEnded notElapsed ih =>
    obtain ⟨later,eq⟩ := ih
    refine ⟨later,?_⟩
    cases a with
    | enter phase => cases phase <;> first | exact eq | exact absurd rfl (notBegun _)
    | ranSince start => exact absurd rfl (notEnded start)
    | elapse ms => exact absurd rfl (notElapsed ms)
    | _ => exact eq

section
variable {plain : List Action} (unmarked : ∀ a ∈ plain, marksRun a = false)
include unmarked

theorem runsFromPlain (begun now : Nat) (rest : List Action) :
    runsFrom begun now (plain ++ rest) = runsFrom begun (now + elapsed plain) rest := by
  induction plain generalizing now with
  | nil => rfl
  | cons a plain ih =>
    have first := unmarked a List.mem_cons_self
    have later := ih fun b mem => unmarked b (List.mem_cons_of_mem _ mem)
    cases a with
    | enter phase => cases phase <;> first | exact later now | simp [marksRun] at first
    | ranSince start => simp [marksRun] at first
    | elapse ms =>
      have eq := later (now + ms)
      rw [Nat.add_assoc] at eq
      exact eq
    | _ => exact later now

theorem runsPlain (past : List Action) : runs (past ++ plain) = runs past := by
  obtain ⟨later,eq⟩ := runsFromAppend 0 0 past plain
  have unmoved := runsFromPlain unmarked later (0 + elapsed past) []
  rw [List.append_nil] at unmoved
  unfold runs
  rw [eq,unmoved]
  simp [runsFrom]

theorem runsRun (past : List Action) (text : String) (start : Nat) (timer : Timer) (wait : Nat) :
    runs (past ++ .enter (.processing text) :: (plain ++ [.ranSince start,.arm timer wait])) =
      runs past ++ [(elapsed past,elapsed past + elapsed plain)] := by
  obtain ⟨later,eq⟩ := runsFromAppend 0 0 past
    (.enter (.processing text) :: (plain ++ [.ranSince start,.arm timer wait]))
  unfold runs
  rw [eq]
  simp [runsFrom,runsFromPlain unmarked]

end

structure Recorded (s : Session) : Prop where
  timed : Timed s
  last : s.lastRun = (runs s.past).getLast?
  inside : ∀ run ∈ runs s.past, run.1 ≤ run.2 ∧ run.2 ≤ s.clock
  ordered : (runs s.past).Pairwise fun earlier later => earlier.2 ≤ later.1

theorem recordedPlain {s : Session} (h : Recorded s) {plain : List Action}
    (unmarked : ∀ a ∈ plain, marksRun a = false) : Recorded (s.after plain) := by
  have same : runs (s.after plain).past = runs s.past := by rw [pastAfter,runsPlain unmarked]
  have kept : (s.after plain).lastRun = s.lastRun :=
    afterKeeps _ (fun _ a mem => by
      have own := unmarked a mem
      cases a <;> first | rfl | simp [marksRun] at own) s
  refine ⟨timedAfter h.timed plain,by rw [kept,same,h.last],?_,by rw [same]; exact h.ordered⟩
  intro run mem
  rw [same] at mem
  obtain ⟨forward,done⟩ := h.inside run mem
  rw [clockAfter]
  exact ⟨forward,by omega⟩

theorem recordedRun {s t : Session} (h : Recorded t) (text : String) :
    Recorded (t.after (s.run text t.past).1) := by
  obtain ⟨inner,result,own,shown,shape⟩ := runShape s text t.past
  have unmarked : ∀ a ∈ inner ++ [.enter result], marksRun a = false := by
    intro a mem
    rcases List.mem_append.mp mem with mem | mem
    · have inside := own a mem
      cases a with
      | enter phase => cases phase <;> first | rfl | simp [isInner] at inside
      | _ => first | rfl | simp [isInner] at inside
    · rw [List.mem_singleton.mp mem]
      cases result <;> first | rfl | simp [Phase.isShowingResult] at shown
  have split : (s.run text t.past).1 = .enter (.processing text) :: ((inner ++ [.enter result]) ++
      [.ranSince (elapsed t.past),.arm .result s.settings.resultDisplay]) := by simp [shape]
  have grown : runs (t.after (s.run text t.past).1).past =
      runs t.past ++ [(elapsed t.past,elapsed t.past + elapsed (inner ++ [.enter result]))] := by
    rw [pastAfter,split,runsRun unmarked]
  have clock : (t.after (s.run text t.past).1).clock =
      elapsed t.past + elapsed (inner ++ [.enter result]) := by
    rw [clockAfter,split,h.timed]
    simp [elapsed,elapsedAppend]
  refine ⟨timedAfter h.timed _,?_,?_,?_⟩
  · rw [grown,List.getLast?_concat,← clock,split,afterCons,afterAppend]
    rfl
  · intro run mem
    rw [grown] at mem
    rw [clock]
    rcases List.mem_append.mp mem with mem | mem
    · obtain ⟨forward,done⟩ := h.inside run mem
      rw [h.timed] at done
      exact ⟨forward,by omega⟩
    · rw [List.mem_singleton.mp mem]
      exact ⟨by simp,Nat.le_refl _⟩
  · rw [grown]
    refine List.pairwise_append.mpr ⟨h.ordered,by simp,fun run mem next new => ?_⟩
    rw [List.mem_singleton.mp new]
    have done := (h.inside run mem).2
    rwa [h.timed] at done

theorem recordedTurn {s : Session} (h : Recorded s) {actions : List Action}
    (turn : Turn s s.past actions) : Recorded (s.after actions) := by
  have unmarked {front : List Action} (outer : ∀ a ∈ front, isOuter a = true) :
      ∀ a ∈ front, marksRun a = false := fun a mem => by
    have own := outer a mem
    cases a with
    | enter phase => cases phase <;> first | rfl | simp [isOuter] at own
    | _ => first | rfl | simp [isOuter] at own
  cases turn with
  | outer outer => exact recordedPlain h (unmarked outer)
  | run outer =>
    rw [afterAppend,← pastAfter]
    exact recordedRun (recordedPlain h (unmarked outer)) _

theorem recordedCalls {s : Session} (h : Recorded s) (cs : List Call) : Recorded (s.calls cs) := by
  induction cs generalizing s with
  | nil => exact h
  | cons c rest ih =>
    refine ih ?_
    rcases callCases s c with eq | ⟨registry,eq⟩
    · rw [eq]
      exact recordedTurn h (moveTurn (moves s c))
    · rw [eq]
      exact ⟨h.timed,h.last,h.inside,h.ordered⟩

/- Given a run that the arrival fell into, the latest run is that one if and only if none has begun
since: a later run begins no earlier than the given one ended. -/
theorem missedLatest {s : Session} (h : Recorded s) {run : Nat × Nat} (mem : run ∈ runs s.past)
    {received : Nat} (unfinished : received < run.2) :
    s.missed received = true ↔ ∀ other ∈ runs s.past, other.1 ≤ received := by
  obtain ⟨earlier,latest,split⟩ : ∃ earlier latest, runs s.past = earlier ++ [latest] :=
    ⟨_,_,(List.dropLast_concat_getLast (List.ne_nil_of_mem mem)).symm⟩
  have last : s.lastRun = some latest := by rw [h.last,split,List.getLast?_concat]
  have ordered := h.ordered
  rw [split] at ordered
  have before : ∀ other ∈ earlier, other.2 ≤ latest.1 := fun other inside =>
    (List.pairwise_append.mp ordered).2.2 other inside latest (by simp)
  have missed : s.missed received = true ↔ latest.1 ≤ received ∧ received < latest.2 := by
    simp [missed,last]
  rw [missed]
  constructor
  · intro ⟨begun,_⟩ other inside
    have forward := (h.inside other inside).1
    rw [split] at inside
    rcases List.mem_append.mp inside with inside | inside
    · have ended := before other inside
      omega
    · rw [List.mem_singleton.mp inside]
      exact begun
  · intro all
    have begun := all latest (by simp [split])
    rw [split] at mem
    rcases List.mem_append.mp mem with mem | mem
    · have ended := before run mem
      omega
    · rw [List.mem_singleton.mp mem] at unfinished
      exact ⟨begun,unfinished⟩

theorem droppedLatest {s : Session} (h : Recorded s) (idle : s.phase.isBusy = false)
    {segment : Segment} {run : Nat × Nat} (mem : run ∈ runs s.past)
    (unfinished : segment.received < run.2) :
    ((s.course (.hearSegment segment) s.past).1 = [.ignore segment.text] ↔
        ∀ other ∈ runs s.past, other.1 ≤ segment.received) ∧
      ((∀ other ∈ runs s.past, other.1 ≤ segment.received) →
        s.call (.hearSegment segment) = { s with past := s.past ++ [.ignore segment.text] }) ∧
      ((∃ other ∈ runs s.past, segment.received < other.1) →
        s.course (.hearSegment segment) = s.hear segment.text) := by
  have latest := missedLatest h mem unfinished
  cases missed : s.missed segment.received with
  | true =>
    have all := latest.mp missed
    have dropped : s.course (.hearSegment segment) = Course.perform (.ignore segment.text) := by
      simp [course,hearSegment,missed]
    refine ⟨⟨fun _ => all,fun _ => by rw [dropped]; rfl⟩,fun _ => ?_,?_⟩
    · change s.after (s.course (.hearSegment segment) s.past).1 = _
      rw [dropped]; rfl
    · rintro ⟨other,inside,later⟩
      have first := all other inside
      omega
  | false =>
    have heard : s.course (.hearSegment segment) = s.hear segment.text := by
      simp [course,hearSegment,missed]
    have since : ¬ ∀ other ∈ runs s.past, other.1 ≤ segment.received := fun all => by
      simp [latest.mpr all] at missed
    refine ⟨⟨fun dropped => ?_,fun all => absurd all since⟩,fun all => absurd all since,
      fun _ => heard⟩
    rw [heard] at dropped
    exact absurd (by simp [dropped]) (hearHeeds idle segment.text segment.text)

/-- A segment that arrived during some run of the session is dropped, with no other effect, if and only if
no run has begun since it arrived; otherwise it is heard as if it had arrived after all runs. -/
theorem droppedUntilNextRun (registry : Registry) (wakeWord : WakeWord) (parser : Parser) (store : Store)
    (settings : SessionSettings) (confirmation : Option Prompt) (epoch : Timestamp) (cs : List Call)
    (segment : Segment) (run : Nat × Nat) :
    let s := (Session.new registry wakeWord parser store settings confirmation epoch).calls cs
    run ∈ runs s.past → run.1 ≤ segment.received ∧ segment.received < run.2 →
      ((s.course (.hearSegment segment) s.past).1 = [.ignore segment.text] ↔
        ∀ other ∈ runs s.past, other.1 ≤ segment.received) ∧
      ((∀ other ∈ runs s.past, other.1 ≤ segment.received) →
        s.call (.hearSegment segment) = { s with past := s.past ++ [.ignore segment.text] }) ∧
      ((∃ other ∈ runs s.past, segment.received < other.1) →
        s.course (.hearSegment segment) = s.hear segment.text) := by
  intro s mem during
  have begun : Recorded (Session.new registry wakeWord parser store settings confirmation epoch) :=
    ⟨rfl,rfl,by simp [Session.new,runs,runsFrom],by simp [Session.new,runs,runsFrom]⟩
  have idle : s.phase.isBusy = false :=
    (settledCoherent (newSettled registry wakeWord parser store settings confirmation epoch cs).1).idle
  exact droppedLatest (recordedCalls begun cs) idle mem during.2

theorem droppedOnce :
    let s := desk.calls [.activate,.idle 10,.hearSegment ⟨"mute",0⟩]
    (10,110) ∈ runs s.past ∧ (s.course (.hearSegment ⟨"mute",50⟩) s.past).1 = [.ignore "mute"] := by
  intro s
  have mem : (10,110) ∈ runs s.past := by decide +kernel
  have alone : ∀ other ∈ runs s.past, other.1 ≤ 50 := by decide +kernel
  have exactly := droppedUntilNextRun desk.registry desk.wakeWord desk.parser desk.store desk.settings
    desk.confirmation desk.epoch [.activate,.idle 10,.hearSegment ⟨"mute",0⟩] ⟨"mute",50⟩ (10,110)
    mem ⟨by decide,by decide⟩
  exact ⟨mem,exactly.1.mpr alone⟩

/- Three segments that wait together: the second arrived before the first run and is run after it, and that
run hides the first one from the third, which is then run as well. -/
theorem heardAfterSecondRun :
    let s := desk.calls [.activate,.idle 10,.hearSegment ⟨"mute",0⟩,.hearSegment ⟨"mute",5⟩]
    s.clock = 210 ∧ (10,110) ∈ runs s.past ∧ 10 ≤ 50 ∧ 50 < 110 ∧
      (Text.trim "mute").isEmpty = false ∧ isCancelPhrase "mute" = false ∧
      (s.course (.hearSegment ⟨"mute",50⟩) s.past).1 ≠ [.ignore "mute"] ∧
      .call { Command.new .volumeMute "mute" .pattern with displayName := "Toggle mute" } ∈
        (s.course (.hearSegment ⟨"mute",50⟩) s.past).1 := by
  decide +kernel

end VoiceCommand.Session
