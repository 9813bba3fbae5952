import VoiceCommand.Proofs.Session.Coherence

/-! No service without activation. The actions of many calls are put in one chronicle, each with the session
and the call that it belongs to. Whatever concerns a handler, the user or the classifier has an
activation before it and no return to the beginning in between. -/
namespace VoiceCommand
open Session (Move Settled Timed isInner isStill spokenText)

/-- An action in its place: the call that it is part of, and the session as this call found it. -/
structure Moment where
  session : Session
  call : Call
  action : Action

def Session.chronicle (s : Session) : List Call → List Moment
  | [] => []
  | c :: cs => (s.course c s.past).1.map (Moment.mk s c) ++ (s.call c).chronicle cs

namespace Moment

/-- The wake phrase is detected in what is said, or listening begins at the user's demand. -/
def Activates (m : Moment) : Prop :=
  (m.action = .wake ∧ ∃ text hit, spokenText m.call = some text ∧
    m.session.wakeWord.detect? m.session.lastHit m.session.clock (Text.trim text) = some hit) ∨
  (m.call = .activate ∧ ∃ since, m.action = .enter (.listening since))

def Awake (seen : List Moment) : Prop :=
  ∃ early a since, seen = early ++ a :: since ∧ a.Activates ∧
    ∀ n ∈ since, n.action ≠ .enter .inactive

theorem awakeNow {a : Moment} (activates : a.Activates) (seen : List Moment) {since : List Moment}
    (stays : ∀ n ∈ since, n.action ≠ .enter .inactive) : Awake (seen ++ a :: since) :=
  ⟨seen,a,since,rfl,activates,stays⟩

theorem awakeLater {seen later : List Moment} (h : Awake seen)
    (stays : ∀ n ∈ later, n.action ≠ .enter .inactive) : Awake (seen ++ later) := by
  obtain ⟨early,a,since,split,activates,quiet⟩ := h
  refine ⟨early,a,since ++ later,by simp [split],activates,fun n mem => ?_⟩
  rcases List.mem_append.mp mem with mem | mem
  · exact quiet n mem
  · exact stays n mem

/-- What concerns a handler, the user or the classifier. -/
def isService : Action → Bool
  | .call _ | .put _ | .ask _ _ | .classify _ | .credit _ => true
  | _ => false

/-- The actions of a call keep to activation, given what was seen before: each service comes awake, and
unless the session ends up inactive it is awake. -/
structure Accounted (s : Session) (c : Call) (seen : List Moment) (t : Session) (actions : List Action) :
    Prop where
  served : ∀ before a after, actions = before ++ a :: after → isService a = true →
    Awake (seen ++ before.map (Moment.mk s c))
  kept : (t.after actions).phase ≠ .inactive → Awake (seen ++ actions.map (Moment.mk s c))

section
variable {s t : Session} {c : Call} {seen : List Moment}

theorem accountedAppend {first second : List Action} (left : Accounted s c seen t first)
    (right : Accounted s c (seen ++ first.map (Moment.mk s c)) (t.after first) second) :
    Accounted s c seen t (first ++ second) := by
  constructor
  · intro before a after split service
    rcases splitAppend split with ⟨rest,eq⟩ | ⟨middle,eq,rest⟩
    · exact left.served before a rest eq service
    · have awake := right.served middle a after rest service
      rw [eq,List.map_append,← List.append_assoc]
      exact awake
  · intro phase
    rw [Session.afterAppend] at phase
    rw [List.map_append,← List.append_assoc]
    exact right.kept phase

def isRestful : Action → Bool
  | .elapse _ | .ignore _ | .disarm | .enter .inactive => true
  | _ => false

theorem accountedRestful (begun : t.phase ≠ .inactive → Awake seen) {actions : List Action}
    (restful : ∀ a ∈ actions, isRestful a = true) : Accounted s c seen t actions := by
  induction actions generalizing t seen with
  | nil => exact ⟨by simp,by simpa using begun⟩
  | cons a rest ih =>
    have own := restful a List.mem_cons_self
    have one : Accounted s c seen t [a] := by
      constructor
      · intro before b after split service
        have same : b = a := by
          have mem : b ∈ [a] := by rw [split]; simp
          exact List.mem_singleton.mp mem
        rw [same] at service
        cases a <;> simp [isRestful] at own <;> simp [isService] at service
      · intro phase
        have still : t.phase ≠ .inactive ∧ a ≠ .enter .inactive := by
          cases a with
          | enter next => cases next <;> first | exact absurd rfl phase | simp [isRestful] at own
          | _ => exact ⟨phase,by simp⟩
        exact awakeLater (begun still.1) (by simpa using still.2)
    refine accountedAppend one (ih one.kept fun b mem => restful b (List.mem_cons_of_mem _ mem))

theorem accountedAwake (awake : Awake seen) {actions : List Action}
    (stays : ∀ a ∈ actions, a ≠ .enter .inactive) : Accounted s c seen t actions := by
  have stay {part : List Action} (inside : ∀ a ∈ part, a ∈ actions) :
      Awake (seen ++ part.map (Moment.mk s c)) := by
    refine awakeLater awake fun n mem => ?_
    obtain ⟨a,here,eq⟩ := List.mem_map.mp mem
    rw [← eq]
    exact stays a (inside a here)
  constructor
  · intro before a after split _
    exact stay fun b mem => by simp [split,mem]
  · intro _
    exact stay fun _ mem => mem

theorem accountedActivation {a : Action} (activates : (Moment.mk s c a).Activates)
    (plain : isService a = false) {rest : List Action} (stays : ∀ b ∈ rest, b ≠ .enter .inactive) :
    Accounted s c seen t (a :: rest) := by
  have awake : Awake (seen ++ [Moment.mk s c a]) := awakeNow activates seen (by simp)
  have one : Accounted s c seen t [a] := by
    refine ⟨fun before b after split service => ?_,fun _ => awake⟩
    have mem : b ∈ [a] := by rw [split]; simp
    rw [List.mem_singleton.mp mem,plain] at service
    cases service
  exact accountedAppend one (accountedAwake awake stays)

theorem accountedProcess (awake : Awake seen) (text : String) (past : List Action) :
    Accounted s c seen t (s.process text past).1 := by
  rw [Session.processRun]
  split
  · exact accountedRestful (fun _ => awake) (by simp [isRestful])
  · refine accountedAwake awake ?_
    obtain ⟨inner,result,own,shown,shape⟩ := Session.runShape s text (past ++ [.disarm])
    rw [shape]
    intro a mem same
    simp only [List.mem_cons,List.mem_append,same,reduceCtorEq,Action.enter.injEq,List.not_mem_nil,
      or_false,false_or] at mem
    rcases mem with mem | mem
    · have inside := own _ mem
      simp [isInner] at inside
    · rw [← mem] at shown
      simp [Phase.isShowingResult] at shown

theorem accountedMove {actions : List Action} (begun : s.phase ≠ .inactive → Awake seen)
    (settled : Settled s) (h : Move s c actions) : Accounted s c seen s actions := by
  cases h with
  | rest => exact accountedRestful begun (by simp)
  | idle ms =>
    refine accountedRestful begun fun a mem => ?_
    rw [Course.memWaiting mem]; rfl
  | missed during => exact accountedRestful begun (by simp [isRestful])
  | busy busy => exact accountedRestful begun (by simp [isRestful])
  | leave => exact accountedRestful begun (by split <;> simp [isRestful])
  | activate => exact accountedActivation (.inr ⟨rfl,_,rfl⟩) rfl (by simp)
  | accept awake =>
    refine accountedProcess (begun fun inactive => ?_) _ _
    simp [inactive,Phase.isListening,Phase.isShowingResult] at awake
  | @wake _ text hit spoken idle heard =>
    rw [← List.cons_append]
    refine accountedAppend (accountedActivation (.inl ⟨rfl,text,hit,spoken,heard⟩) rfl ?_) ?_
    · simp [Session.greeting]
    · have woken : Awake (seen ++ (Action.wake :: s.greeting).map (Moment.mk s c)) :=
        awakeNow (.inl ⟨rfl,text,hit,spoken,heard⟩) seen (by simp [Session.greeting])
      split
      · exact accountedRestful (fun _ => woken) (by simp)
      · exact accountedProcess woken _ _
  | @fire d pending =>
    rw [Session.settledFire settled pending]
    refine accountedRestful begun fun a mem => ?_
    rcases List.mem_append.mp mem with mem | mem
    · rw [Course.memWaiting mem]; rfl
    · simp only [List.mem_cons,List.not_mem_nil,or_false] at mem
      rcases mem with rfl | rfl <;> rfl

end

theorem accountedChronicle {s : Session} {seen : List Moment} (settled : Settled s) (timed : Timed s)
    (begun : s.phase ≠ .inactive → Awake seen) {cs : List Call} {before : List Moment} {m : Moment}
    {after : List Moment} (split : s.chronicle cs = before ++ m :: after)
    (service : isService m.action = true) : Awake (seen ++ before) := by
  induction cs generalizing s seen before with
  | nil => simp [Session.chronicle] at split
  | cons c cs ih =>
    have account := accountedMove begun settled (Session.moves s c)
    obtain ⟨settledThen,timedThen⟩ := Session.settledCall settled timed c
    have kept : (s.call c).phase ≠ .inactive →
        Awake (seen ++ (s.course c s.past).1.map (Moment.mk s c)) := fun phase => by
      rw [Session.callPhase] at phase
      exact account.kept phase
    rcases splitAppend split with ⟨rest,eq⟩ | ⟨middle,eq,rest⟩
    · obtain ⟨first,others,parts,front,back⟩ := List.map_eq_append_iff.mp eq
      obtain ⟨a,tail,parted,here,_⟩ := List.map_eq_cons_iff.mp back
      rw [← here] at service
      rw [← front]
      exact account.served first a tail (by rw [parts,parted]) service
    · rw [eq,← List.append_assoc]
      exact ih settledThen timedThen kept rest

def isDormant : Action → Bool
  | .elapse _ | .ignore _ | .disarm => true
  | _ => false

theorem dormantMove {s : Session} {c : Call} {actions : List Action} (inactive : s.phase = .inactive)
    (settled : Settled s) (unactivated : ∀ a ∈ actions, ¬ (Moment.mk s c a).Activates)
    (h : Move s c actions) : ∀ a ∈ actions, isDormant a = true := by
  cases h with
  | rest => simp
  | idle ms =>
    intro a mem
    rw [Course.memWaiting mem]; rfl
  | missed during => simp [isDormant]
  | busy busy => simp [isDormant]
  | leave => simp [inactive,Phase.isInactive,isDormant]
  | activate => exact absurd (.inr ⟨rfl,_,rfl⟩) (unactivated _ List.mem_cons_self)
  | accept awake => simp [inactive,Phase.isListening,Phase.isShowingResult] at awake
  | wake spoken idle heard =>
    exact absurd (.inl ⟨rfl,_,_,spoken,heard⟩) (unactivated .wake List.mem_cons_self)
  | fire pending =>
    have coherent := Session.settledCoherent settled
    rw [coherent.inactive.mp (by simp [inactive,Phase.isInactive])] at pending
    cases pending

theorem dormantCalls {s : Session} (inactive : s.phase = .inactive) (settled : Settled s)
    (timed : Timed s) {cs : List Call} (unactivated : ∀ m ∈ s.chronicle cs, ¬ m.Activates) :
    (s.calls cs).phase = .inactive ∧ (s.calls cs).deadline = none ∧
      ∀ m ∈ s.chronicle cs, isDormant m.action = true := by
  induction cs generalizing s with
  | nil =>
    have coherent := Session.settledCoherent settled
    have unarmed := coherent.inactive.mp (by simp [inactive,Phase.isInactive])
    exact ⟨inactive,unarmed,by simp [Session.chronicle]⟩
  | cons c cs ih =>
    simp only [Session.chronicle,List.mem_append,List.mem_map] at unactivated
    have dormant := dormantMove inactive settled
      (fun a mem => unactivated (Moment.mk s c a) (.inl ⟨a,mem,rfl⟩)) (Session.moves s c)
    have stays : (s.call c).phase = .inactive := by
      rw [Session.callPhase,← inactive]
      refine Session.afterKeeps _ (fun _ a mem => ?_) s
      have own := dormant a mem
      cases a <;> first | rfl | simp [isDormant] at own
    obtain ⟨settledThen,timedThen⟩ := Session.settledCall settled timed c
    obtain ⟨phase,deadline,later⟩ :=
      ih stays settledThen timedThen fun m mem => unactivated m (.inr mem)
    refine ⟨phase,deadline,fun m mem => ?_⟩
    rcases List.mem_append.mp mem with mem | mem
    · obtain ⟨a,here,eq⟩ := List.mem_map.mp mem
      rw [← eq]
      exact dormant a here
    · exact later m mem

end Moment

/-- In the chronicle of a new session every service has an activation before it, with no return to the
beginning in between; and as long as nothing activates it, an inactive session stays inactive whatever is
said to it, with no timer and no service. -/
theorem servedOnlyAwake (registry : Registry) (wakeWord : WakeWord) (parser : Parser) (store : Store)
    (settings : SessionSettings) (confirmation : Option Prompt) (epoch : Timestamp) (cs : List Call) :
    let fresh := Session.new registry wakeWord parser store settings confirmation epoch
    (∀ before m after, fresh.chronicle cs = before ++ m :: after → Moment.isService m.action = true →
      ∃ early a since, before = early ++ a :: since ∧ a.Activates ∧
        ∀ n ∈ since, n.action ≠ .enter .inactive) ∧
    ∀ later, (fresh.calls cs).phase = .inactive →
      (∀ m ∈ (fresh.calls cs).chronicle later, ¬ m.Activates) →
      ((fresh.calls cs).calls later).phase = .inactive ∧
        ((fresh.calls cs).calls later).deadline = none ∧
        ∀ m ∈ (fresh.calls cs).chronicle later, Moment.isDormant m.action = true := by
  intro fresh
  have begun : Settled fresh := .inactive rfl rfl
  have timed : Timed fresh := by unfold Timed; rfl
  constructor
  · intro before m after split service
    have awake : Moment.Awake ([] ++ before) :=
      Moment.accountedChronicle begun timed (fun phase => absurd rfl phase) split service
    exact awake
  · intro later inactive unactivated
    obtain ⟨settledThen,timedThen⟩ := Session.settledCalls begun timed cs
    exact Moment.dormantCalls inactive settledThen timedThen unactivated

theorem muteServed :
    (∃ before m after, Session.desk.chronicle [.hear "hey type mute"] = before ++ m :: after ∧
      Moment.isService m.action = true ∧ ∃ early a since, before = early ++ a :: since ∧
        a.Activates ∧ ∀ n ∈ since, n.action ≠ .enter .inactive) ∧
    ∀ m ∈ Session.desk.chronicle [.hear "good morning",.idle 10,.hear "mute"],
      Moment.isDormant m.action = true := by
  obtain ⟨_,dormant⟩ := servedOnlyAwake Session.desk.registry Session.desk.wakeWord
    Session.desk.parser Session.desk.store Session.desk.settings Session.desk.confirmation
    Session.desk.epoch []
  obtain ⟨awake,_⟩ := servedOnlyAwake Session.desk.registry Session.desk.wakeWord
    Session.desk.parser Session.desk.store Session.desk.settings Session.desk.confirmation
    Session.desk.epoch [.hear "hey type mute"]
  constructor
  · have served : (Session.desk.chronicle [.hear "hey type mute"]).any
        (fun m => Moment.isService m.action) = true := by decide +kernel
    obtain ⟨m,mem,service⟩ := List.any_eq_true.mp served
    obtain ⟨before,after,split⟩ := List.append_of_mem mem
    exact ⟨before,m,after,split,service,awake before m after split service⟩
  · have unheard : ∀ m ∈ Session.desk.chronicle [.hear "good morning",.idle 10,.hear "mute"],
        m.action ≠ .wake ∧ m.call ≠ .activate := by decide +kernel
    refine (dormant [.hear "good morning",.idle 10,.hear "mute"] rfl fun m mem => ?_).2.2
    rintro (⟨wake,_⟩ | ⟨activate,_⟩)
    · exact (unheard m mem).1 wake
    · exact (unheard m mem).2 activate

end VoiceCommand
