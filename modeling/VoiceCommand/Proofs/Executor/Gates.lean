import VoiceCommand.Executor
import VoiceCommand.Proofs.Course

/-! Execution behind gates. Where a handler is called, the entry of its command lets it through, and a
question that had to be put was put once and answered last of all. A history is judged call by call,
each by what has happened before it. -/
namespace VoiceCommand.Gates
open Course (waiting asking)

def isCall : Action → Bool
  | .call _ => true
  | _ => false

def questions (history : List Action) : List String :=
  history.filterMap fun
    | .put question => some question
    | _ => none

def sinceCall (history : List Action) : List Action :=
  (history.reverse.takeWhile fun a => !isCall a).reverse

/-- Since the last call of a handler the user was asked this and nothing else, and has just agreed.
What happened before the present course is `past`. -/
structure Agreed (confirmation : Option Prompt) (past before : List Action) (question : String) :
    Prop where
  once : questions (sinceCall before) = [question]
  answered : ∃ prompt earlier delay, confirmation = some prompt ∧
    prompt.respond (past ++ earlier) question = (delay,true) ∧
    before = earlier ++ asking question delay true

/-- The entry of a command lets it through to its handler. -/
structure Cleared (registry : Registry) (confirmation : Option Prompt) (past before : List Action)
    (c : Command) (e : Entry) : Prop where
  dispatched : registry.entryFor? c = some e
  enabled : e.enabled = true
  complete : ∀ key ∈ e.required, ∃ value, c.entity? key = some value ∧ Text.allBlank value = false
  handled : e.handler.isSome = true
  consent : if e.needsConfirmation then Agreed confirmation past before (c.displayName ++ "?")
    else questions (sinceCall before) = []

def Guarded (p : List Action → Command → Prop) (history : List Action) : Prop :=
  ∀ before c after, history = before ++ .call c :: after → p before c

theorem guardedUncalled {p history} (uncalled : ∀ a ∈ history, isCall a = false) :
    Guarded p history := by
  intro before c after split
  have absent := uncalled (.call c) (by simp [split])
  simp [isCall] at absent

theorem guardedAppend {p first second} (left : Guarded p first)
    (right : Guarded (fun before c => p (first ++ before) c) second) :
    Guarded p (first ++ second) := by
  intro before c after split
  rcases splitAppend split with ⟨rest,eq⟩ | ⟨middle,eq,rest⟩
  · exact left before c rest eq
  · rw [eq]
    exact right middle c after rest

theorem guardedCut {p history} (h : Guarded p history) (limit : Nat) :
    Guarded p (cutAt limit history) := by
  intro before c after split
  obtain ⟨rest,eq⟩ := cutSplit rfl split
  exact h before c rest eq

theorem guardedWeaken {p q : List Action → Command → Prop} {history} (h : Guarded p history)
    (weaker : ∀ before c, p before c → q before c) : Guarded q history :=
  fun before c after split => weaker before c (h before c after split)

@[simp] theorem questionsAppend (first second : List Action) :
    questions (first ++ second) = questions first ++ questions second := by
  simp [questions]

theorem questionsWaiting (ms : Nat) : questions (waiting ms) = [] := by
  unfold waiting
  split <;> rfl

theorem waitingUncalled {ms} : ∀ a ∈ waiting ms, isCall a = false := by
  intro a mem
  rw [Course.memWaiting mem]; rfl

theorem sinceCallUncalled (first : List Action) {second : List Action}
    (uncalled : ∀ a ∈ second, isCall a = false) :
    sinceCall (first ++ second) = sinceCall first ++ second := by
  unfold sinceCall
  rw [List.reverse_append,List.takeWhile_append_of_pos]
  · simp
  · intro a mem
    simp [uncalled a (List.mem_reverse.mp mem)]

theorem sinceCallOfCall (first : List Action) (c : Command) {second : List Action}
    (uncalled : ∀ a ∈ second, isCall a = false) :
    sinceCall (first ++ .call c :: second) = second := by
  have split : first ++ .call c :: second = (first ++ [.call c]) ++ second := by simp
  rw [split,sinceCallUncalled _ uncalled]
  simp [sinceCall,isCall]

theorem lastCall {history : List Action} (called : history.any isCall = true) :
    ∃ front c back, history = front ++ .call c :: back ∧ ∀ a ∈ back, isCall a = false := by
  induction history with
  | nil => simp at called
  | cons a rest ih =>
    cases later : rest.any isCall with
    | true =>
      obtain ⟨front,c,back,split,uncalled⟩ := ih later
      exact ⟨a :: front,c,back,by rw [split,List.cons_append],uncalled⟩
    | false =>
      have first : isCall a = true := by simpa [later] using called
      cases a <;> simp [isCall] at first
      exact ⟨[],_,rest,rfl,by simpa using later⟩

/- No question has been put that a call could still rest on. -/
def Unasked (history : List Action) : Prop := questions (sinceCall history) = []

theorem questionsSinceCall {first : List Action} (unasked : Unasked first) (second : List Action) :
    questions (sinceCall (first ++ second)) = questions (sinceCall second) := by
  cases called : second.any isCall with
  | false =>
    have uncalled : ∀ a ∈ second, isCall a = false := by simpa using called
    have alone := sinceCallUncalled [] uncalled
    rw [sinceCallUncalled _ uncalled,questionsAppend,unasked]
    simpa [sinceCall] using (congrArg questions alone).symm
  | true =>
    obtain ⟨front,c,back,split,uncalled⟩ := lastCall called
    rw [split,sinceCallOfCall front c uncalled,← List.append_assoc,sinceCallOfCall _ c uncalled]

theorem unaskedAppend {first second : List Action} (left : Unasked first) (right : Unasked second) :
    Unasked (first ++ second) := by
  unfold Unasked
  rw [questionsSinceCall left]
  exact right

theorem unaskedOfSilent {history : List Action} (silent : ∀ a ∈ history, ∀ q, a ≠ .put q) :
    Unasked history := by
  unfold Unasked questions
  rw [List.filterMap_eq_nil_iff]
  intro a mem
  have inside : a ∈ history := by
    have back := List.mem_reverse.mp mem
    exact List.mem_reverse.mp ((List.takeWhile_prefix _).mem back)
  cases a with
  | put q => exact absurd rfl (silent _ inside q)
  | _ => rfl

section
variable {registry : Registry} {confirmation : Option Prompt} {past : List Action} {c : Command}

/- What a question is rested on does not depend on where the course began. -/
theorem clearedLater {first before : List Action} {e : Entry} (unasked : Unasked first)
    (h : Cleared registry confirmation (past ++ first) before c e) :
    Cleared registry confirmation past (first ++ before) c e := by
  refine ⟨h.dispatched,h.enabled,h.complete,h.handled,?_⟩
  have consent := h.consent
  rw [questionsSinceCall unasked]
  split at consent
  · rename_i needed
    obtain ⟨once,prompt,earlier,delay,here,yes,shape⟩ := consent
    rw [if_pos needed]
    refine ⟨by rw [questionsSinceCall unasked]; exact once,prompt,first ++ earlier,delay,here,?_,?_⟩
    · rw [← List.append_assoc]; exact yes
    · rw [shape,List.append_assoc]
  · rename_i unneeded
    rw [if_neg unneeded]
    exact consent

end

def Vetted (ex : Executor) (past history : List Action) : Prop :=
  Guarded (fun before c => ∃ e, Cleared ex.registry ex.confirmation past before c e) history

theorem vettedAppend {ex past first second} (left : Vetted ex past first) (unasked : Unasked first)
    (right : Vetted ex (past ++ first) second) : Vetted ex past (first ++ second) := by
  refine guardedAppend left (guardedWeaken right ?_)
  intro before c ⟨e,cleared⟩
  exact ⟨e,clearedLater unasked cleared⟩

theorem presentValues {c : Command} {required : List String}
    (complete : (c.missing required).head? = none) :
    ∀ key ∈ required, ∃ value, c.entity? key = some value ∧ Text.allBlank value = false := by
  intro key mem
  have present : ¬ (c.entity? key).all Text.allBlank = true := by
    have empty : c.missing required = [] := List.head?_eq_none_iff.mp complete
    exact List.filter_eq_nil_iff.mp empty key mem
  cases found : c.entity? key with
  | none => simp [found] at present
  | some value => exact ⟨value,rfl,by simpa [found] using present⟩

/-- What the reply of a handler becomes for the command. -/
def settled (c : Command) : Except String Outcome → Except CommandError Outcome
  | .ok outcome => .ok (Executor.speaking c outcome)
  | .error cause => .error (.handlerFailed c.intent cause)

inductive Passage (ex : Executor) (c : Command) (past : List Action) :
    List Action × Except CommandError Outcome → Prop where
  | refused {history e} (uncalled : ∀ a ∈ history, isCall a = false) :
      Passage ex c past (history,.error e)
  | called {before delay reply handler e} (uncalled : ∀ a ∈ before, isCall a = false)
      (cleared : Cleared ex.registry ex.confirmation past before c e)
      (handled : e.handler = some handler) (responds : handler.respond (past ++ before) c = (delay,reply)) :
      Passage ex c past (before ++ .call c :: waiting delay,settled c reply)

theorem callPassage {ex c past before} {e : Entry} (uncalled : ∀ a ∈ before, isCall a = false)
    (cleared : e.handler.isSome = true → Cleared ex.registry ex.confirmation past before c e) :
    Passage ex c past (before ++ (Executor.callHandler e c (past ++ before)).1,
      (Executor.callHandler e c (past ++ before)).2) := by
  unfold Executor.callHandler
  cases handled : e.handler with
  | none => exact .refused (by simpa using uncalled)
  | some handler =>
    have behind := cleared (by simp [handled])
    simp only [Course.bindRun,Course.callRun]
    rcases responds : handler.respond (past ++ before) c with ⟨delay,reply⟩
    have passage := Passage.called uncalled behind handled responds
    cases reply <;> simpa [settled] using passage

theorem askingUncalled (question : String) (delay : Nat) (answer : Bool) :
    ∀ a ∈ asking question delay answer, isCall a = false := by
  intro a mem
  simp only [asking,List.mem_cons,List.mem_append,List.not_mem_nil,or_false] at mem
  rcases mem with rfl | mem | rfl
  · rfl
  · exact waitingUncalled a mem
  · rfl

theorem questionsAsking (question : String) (delay : Nat) (answer : Bool) :
    questions (sinceCall (asking question delay answer)) = [question] := by
  have all := sinceCallUncalled [] (askingUncalled question delay answer)
  rw [List.nil_append] at all
  rw [all]
  change [question] ++ questions (waiting delay ++ [.ask question answer]) = [question]
  rw [questionsAppend,questionsWaiting]; rfl

theorem tryPassage (ex : Executor) (c : Command) (past : List Action) :
    Passage ex c past (ex.tryExecute c past) := by
  unfold Executor.tryExecute
  cases dispatched : ex.registry.entryFor? c with
  | none => exact .refused (by simp)
  | some e =>
    simp only
    cases enabled : e.enabled with
    | false => exact .refused (by simp)
    | true =>
      simp only [Bool.not_true,Bool.false_eq_true,if_false]
      cases missing : (c.missing e.required).head? with
      | some key => exact .refused (by simp)
      | none =>
        have complete := presentValues missing
        simp only
        cases needed : e.needsConfirmation with
        | false =>
          have passage : Passage ex c past ([] ++ (Executor.callHandler e c (past ++ [])).1,
              (Executor.callHandler e c (past ++ [])).2) :=
            callPassage (by simp) fun handled =>
              ⟨dispatched,enabled,complete,handled,by simp [needed,sinceCall,questions]⟩
          simpa using passage
        | true =>
          simp only [if_true,Course.bindRun,Executor.confirm]
          cases asked : ex.confirmation with
          | none => exact .refused (by simp)
          | some prompt =>
            simp only [Course.askRun]
            cases reply : prompt.respond past (c.displayName ++ "?") with
            | mk delay answer =>
              cases answer with
              | false => exact .refused (by simpa using askingUncalled _ _ _)
              | true =>
                simp only [if_true]
                refine callPassage (askingUncalled _ _ _) fun handled =>
                  ⟨dispatched,enabled,complete,handled,?_⟩
                rw [if_pos needed]
                exact ⟨questionsAsking _ _ _,prompt,[],delay,asked,by simpa using reply,rfl⟩

theorem passageVetted {ex c past history result} (h : Passage ex c past (history,result)) :
    Vetted ex past history ∧ ∀ o, result = .ok o → Unasked history := by
  cases h with
  | refused uncalled => exact ⟨guardedUncalled uncalled,by intro o eq; cases eq⟩
  | @called before delay _ _ e uncalled cleared =>
    refine ⟨guardedAppend (guardedUncalled uncalled) ?_,fun _ _ => ?_⟩
    · intro later d after split
      cases later with
      | nil =>
        obtain ⟨same,_⟩ := List.cons.inj split
        cases same
        exact ⟨e,by simpa using cleared⟩
      | cons a later =>
        obtain ⟨_,rest⟩ := List.cons.inj split
        have absent := waitingUncalled (.call d) (by rw [rest]; simp)
        simp [isCall] at absent
    · unfold Unasked
      rw [sinceCallOfCall _ _ waitingUncalled,questionsWaiting]

def Careful (ex : Executor) (run : Course Outcome) : Prop :=
  ∀ past, Vetted ex past (run past).1 ∧ ((run past).2.success = true → Unasked (run past).1)

theorem stepActions (ex : Executor) (c : Command) (past : List Action) :
    (ex.executeStep c past).1 = (ex.tryExecute c past).1 := by
  simp only [Executor.executeStep,Course.bindRun,Course.nowRun]
  cases (ex.tryExecute c _).2 <;> simp

theorem stepSuccess {ex : Executor} {c : Command} {past : List Action}
    (h : (ex.executeStep c past).2.success = true) : ∃ o, (ex.tryExecute c past).2 = .ok o := by
  simp only [Executor.executeStep,Course.bindRun,Course.nowRun,List.append_nil] at h
  cases result : (ex.tryExecute c past).2 with
  | ok o => exact ⟨o,rfl⟩
  | error e => simp [result,Outcome.failed] at h

theorem stepCareful (ex : Executor) (c : Command) : Careful ex (ex.executeStep c) := by
  intro past
  obtain ⟨vetted,unasked⟩ := passageVetted (tryPassage ex c past)
  rw [stepActions]
  refine ⟨vetted,fun success => ?_⟩
  obtain ⟨o,ok⟩ := stepSuccess success
  exact unasked o ok

theorem waitVetted {ex past ms} : Vetted ex past (waiting ms) := guardedUncalled waitingUncalled

theorem waitUnasked {ms} : Unasked (waiting ms) :=
  unaskedOfSilent fun a mem q eq => by
    have elapse := Course.memWaiting mem
    rw [eq] at elapse
    cases elapse

/- The induction is on the commands that are left: the next one runs only after a success, and a
success leaves no question behind on which a later call could rest by mistake. -/
theorem inOrderCareful {ex : Executor} (pause : Nat) {execute : Command → Course Outcome}
    (careful : ∀ c, Careful ex (execute c)) (commands : List Command) (past : List Action) :
    Vetted ex past (Executor.inOrder pause execute commands past).1 ∧
      ((∀ o ∈ (Executor.inOrder pause execute commands past).2.getLast?, o.success = true) →
        Unasked (Executor.inOrder pause execute commands past).1) := by
  induction commands generalizing past with
  | nil => exact ⟨guardedUncalled (by simp [Executor.inOrder]),fun _ => rfl⟩
  | cons c rest ih =>
    obtain ⟨vetted,unasked⟩ := careful c past
    cases rest with
    | nil => simpa [Executor.inOrder] using ⟨vetted,unasked⟩
    | cons d rest =>
      simp only [Executor.inOrder,Course.bindRun]
      cases success : (execute c past).2.success with
      | false => simpa [success] using vetted
      | true =>
        have clean := unasked success
        obtain ⟨later,laterUnasked⟩ :=
          ih (past ++ (execute c past).1 ++ waiting pause)
        simp only [if_true,Course.bindRun,Course.waitRun,Course.pureRun,List.append_nil]
        constructor
        · refine vettedAppend vetted clean (vettedAppend waitVetted waitUnasked later)
        · intro all
          refine unaskedAppend clean (unaskedAppend waitUnasked (laterUnasked fun o last => ?_))
          refine all o ?_
          have same := Option.mem_def.mp last
          simp only [List.append_assoc] at same
          simp [List.getLast?_cons,same]

theorem lastSucceeded {commands : List Command} {outcomes : List Outcome}
    (h : chainFailure? commands outcomes = none) : ∀ o ∈ outcomes.getLast?, o.success = true := by
  intro o last
  rw [Option.mem_def] at last
  unfold chainFailure? at h
  rw [last] at h
  cases success : o.success with
  | true => rfl
  | false => simp [success] at h

theorem aliasCareful (ex : Executor) (c : Command) : Careful ex (ex.executeAlias c) := by
  intro past
  unfold Executor.executeAlias
  cases ex.resolve c with
  | error message => exact ⟨guardedUncalled (by simp),fun _ => rfl⟩
  | ok custom =>
    simp only [Course.bindRun,Course.nowRun,Course.performRun,Course.pureRun,List.nil_append,
      List.append_nil]
    have credit : Unasked [.credit custom.name] := rfl
    obtain ⟨vetted,unasked⟩ := inOrderCareful ex.stepDelay (stepCareful ex)
      (Executor.stepCommands (Executor.triggerOf c) custom) (past ++ [.credit custom.name])
    refine ⟨vettedAppend (guardedUncalled (by simp [isCall])) credit vetted,fun success => ?_⟩
    refine unaskedAppend credit (unasked ?_)
    simp only [Executor.aliasOutcome] at success
    split at success
    · simp [Outcome.failed] at success
    · rename_i unfailed
      exact lastSucceeded unfailed

theorem chainVetted (ex : Executor) (commands : List Command) (past : List Action) :
    Vetted ex past (ex.executeChain commands past).1 := by
  refine (inOrderCareful ex.stepDelay (fun c => ?_) commands past).1
  unfold Executor.execute
  split
  · exact aliasCareful ex c
  · exact stepCareful ex c

end VoiceCommand.Gates
