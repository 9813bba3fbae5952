import VoiceCommand.Proofs.Executor.Steps

/-! Undo actions behind the handlers that gave them. The replies of the handlers are read off a history, so
they are there also where the executor has lost them. -/
namespace VoiceCommand.Executor
open Course (waiting)
open Gates (Passage isCall settled tryPassage waitingUncalled)

/-- The outcome that the handler of a command gave, unless the history ends before the handler did. -/
def reply? (registry : Registry) (past : List Action) (c : Command) (rest : List Action) :
    Option (Command × Outcome) :=
  ((registry.entryFor? c).bind (·.handler)).bind fun handler =>
    let (delay,reply) := handler.respond past c
    if (waiting delay).isPrefixOf rest then reply.toOption.map fun outcome => (c,outcome) else none

/-- The outcomes that handlers gave in a history, each with its command, the oldest first. -/
def replies (registry : Registry) : List Action → List Action → List (Command × Outcome)
  | _,[] => []
  | past,.call c :: rest => (reply? registry past c rest).toList ++ replies registry (past ++ [.call c]) rest
  | past,a :: rest => replies registry (past ++ [a]) rest

def offered (o : Outcome) : Option UndoAction := if o.success then o.undo else none

theorem offeredCons (o : Outcome) (rest : List Outcome) :
    (o :: rest).filterMap offered = (offered o).toList ++ rest.filterMap offered := by
  cases gives : offered o <;> simp [gives]

theorem undoOffered (outcomes : List Outcome) :
    Outcome.undoActions outcomes = (outcomes.filterMap offered).reverse := by
  unfold Outcome.undoActions
  rw [← List.filterMap_eq_filter,List.filterMap_filterMap,← List.filterMap_reverse]
  congr 1
  funext o
  cases success : o.success <;> simp [offered,success]

variable {registry : Registry}

theorem repliesUncalled {past history : List Action} (uncalled : ∀ a ∈ history, isCall a = false) :
    replies registry past history = [] := by
  induction history generalizing past with
  | nil => rfl
  | cons a rest ih =>
    have first := uncalled a List.mem_cons_self
    have later := @ih (past ++ [a]) fun b mem => uncalled b (List.mem_cons_of_mem _ mem)
    cases a <;> first | exact later | simp [isCall] at first

/-- Every handler that was called has taken all its time. -/
def Whole (registry : Registry) (past history : List Action) : Prop :=
  ∀ before c after handler, history = before ++ .call c :: after →
    (registry.entryFor? c).bind (·.handler) = some handler →
      waiting (handler.respond (past ++ before) c).1 <+: after

theorem wholeUncalled {past history : List Action} (uncalled : ∀ a ∈ history, isCall a = false) :
    Whole registry past history := by
  intro before c after handler split
  have absent := uncalled (.call c) (by simp [split])
  simp [isCall] at absent

theorem wholeAppend {past first second : List Action} (left : Whole registry past first)
    (right : Whole registry (past ++ first) second) : Whole registry past (first ++ second) := by
  intro before c after handler split found
  rcases splitAppend split with ⟨rest,eq⟩ | ⟨middle,eq,rest⟩
  · have done := left before c rest handler eq found
    rw [eq,List.append_assoc,List.append_cancel_left_eq,List.cons_append,List.cons.injEq] at split
    rw [← split.2]
    exact done.trans (List.prefix_append _ _)
  · rw [eq,← List.append_assoc]
    exact right middle c after handler rest found

theorem repliesAppend {past first : List Action} (whole : Whole registry past first) (second : List Action) :
    replies registry past (first ++ second) =
      replies registry past first ++ replies registry (past ++ first) second := by
  induction first generalizing past with
  | nil => simp [replies]
  | cons a rest ih =>
    have later : Whole registry (past ++ [a]) rest := by
      intro before c after handler split found
      have done := whole (a :: before) c after handler (by rw [split]; rfl) found
      simpa using done
    have tail := ih later
    rw [List.append_assoc] at tail
    cases a with
    | call c =>
      -- the handler has finished within `rest`, so nothing behind it can make up for a wait cut short
      have same : reply? registry past c (rest ++ second) = reply? registry past c rest := by
        unfold reply?
        cases found : (registry.entryFor? c).bind (·.handler) with
        | none => rfl
        | some handler =>
          have done := whole [] c rest handler rfl found
          rw [List.append_nil] at done
          simp only [Option.bind_some]
          rw [if_pos (List.isPrefixOf_iff_prefix.mpr (done.trans (List.prefix_append _ _))),
            if_pos (List.isPrefixOf_iff_prefix.mpr done)]
      simp only [List.cons_append,replies,same,List.append_assoc]
      rw [tail]
      rfl
    | _ => exact tail

theorem repliesCalled {past history : List Action} {r : Command × Outcome}
    (mem : r ∈ replies registry past history) : .call r.1 ∈ history := by
  induction history generalizing past with
  | nil => cases mem
  | cons a rest ih =>
    cases a with
    | call c =>
      rcases List.mem_append.mp mem with mem | mem
      · have own : reply? registry past c rest = some r := Option.mem_toList.mp mem
        obtain ⟨handler,_,given⟩ := Option.bind_eq_some_iff.mp own
        simp only at given
        split at given
        · obtain ⟨o,_,same⟩ := Option.map_eq_some_iff.mp given
          rw [← same]
          exact List.mem_cons_self
        · cases given
      · exact List.mem_cons_of_mem _ (ih mem)
    | _ => exact List.mem_cons_of_mem _ (ih mem)

/-- What the handlers of a history offer to undo, the steps of custom commands aside. -/
def directOffers (registry : Registry) (past history : List Action) : List UndoAction :=
  ((replies registry past history).filter fun r => r.1.source != .alias).filterMap fun r => offered r.2

theorem directUncalled {past history : List Action} (uncalled : ∀ a ∈ history, isCall a = false) :
    directOffers registry past history = [] := by
  simp [directOffers,repliesUncalled uncalled]

theorem directAppend {past first : List Action} (whole : Whole registry past first) (second : List Action) :
    directOffers registry past (first ++ second) =
      directOffers registry past first ++ directOffers registry (past ++ first) second := by
  simp [directOffers,repliesAppend whole]

/- What a handler was called for, it was called for with all its time, and its reply is the outcome. -/
theorem passageReplies {ex : Executor} {c : Command} {past history : List Action}
    {result : Except CommandError Outcome} (h : Passage ex c past (history,result)) :
    Whole ex.registry past history ∧
      (replies ex.registry past history).map (fun r => (r.1,offered r.2)) =
        result.toOption.toList.map fun o => (c,offered o) := by
  cases h with
  | refused uncalled => exact ⟨wholeUncalled uncalled,by simp [repliesUncalled uncalled,Except.toOption]⟩
  | @called before delay reply handler e uncalled cleared handled responds =>
    have dispatched : (ex.registry.entryFor? c).bind (·.handler) = some handler := by
      simp [cleared.dispatched,handled]
    constructor
    · refine wholeAppend (wholeUncalled uncalled) fun inside d after other split found => ?_
      cases inside with
      | nil =>
        obtain ⟨same,rest⟩ := List.cons.inj split
        cases same
        rw [dispatched] at found
        cases Option.some.inj found
        rw [List.append_nil,responds]
        exact rest ▸ List.prefix_rfl
      | cons a inside =>
        obtain ⟨_,rest⟩ := List.cons.inj split
        have absent := waitingUncalled (.call d) (by rw [rest]; simp)
        simp [isCall] at absent
    · rw [repliesAppend (wholeUncalled uncalled),repliesUncalled uncalled,replies,reply?,dispatched,
        repliesUncalled waitingUncalled]
      simp only [Option.bind_some,responds,List.isPrefixOf_iff_prefix,List.prefix_rfl,if_true]
      cases reply with
      | error cause => simp [settled,Except.toOption]
      | ok o =>
        have same : offered (speaking c o) = offered o := by
          unfold speaking
          split <;> rfl
        simp [settled,Except.toOption,same]

theorem stepReplies (ex : Executor) (c : Command) (past : List Action) :
    Whole ex.registry past (ex.executeStep c past).1 ∧
      (replies ex.registry past (ex.executeStep c past).1).map (fun r => (r.1,offered r.2)) =
        (ex.tryExecute c past).2.toOption.toList.map fun o => (c,offered o) := by
  rw [Gates.stepActions]
  exact passageReplies (tryPassage ex c past)

theorem stepOffered (ex : Executor) (c : Command) (past : List Action) :
    offered (ex.executeStep c past).2 = (ex.tryExecute c past).2.toOption.bind offered := by
  simp only [executeStep,Course.bindRun,Course.nowRun,List.append_nil]
  cases (ex.tryExecute c past).2 <;> rfl

theorem stepOffers (ex : Executor) {c : Command} (direct : c.source ≠ .alias) (past : List Action) :
    directOffers ex.registry past (ex.executeStep c past).1 = (offered (ex.executeStep c past).2).toList := by
  have given := (stepReplies ex c past).2
  -- an outcome bears the message that is spoken, so only what is offered can be compared with the reply
  have pairs (rs : List (Command × Outcome)) : (rs.filter fun r => r.1.source != .alias).filterMap
      (fun r => offered r.2) = ((rs.map fun r => (r.1,offered r.2)).filter
        fun r => r.1.source != .alias).filterMap (·.2) := by
    simp [List.filter_map,List.filterMap_map,Function.comp_def]
  rw [stepOffered,directOffers,pairs,given]
  cases (ex.tryExecute c past).2.toOption with
  | none => rfl
  | some o => cases gives : offered o <;> simp [direct,gives]

theorem inOrderCons (pause : Nat) (execute : Command → Course Outcome) (c d : Command)
    (rest : List Command) (past : List Action) :
    let first := execute c past
    let later := inOrder pause execute (d :: rest) (past ++ first.1 ++ waiting pause)
    inOrder pause execute (c :: d :: rest) past =
      if first.2.success then (first.1 ++ (waiting pause ++ later.1),first.2 :: later.2)
      else (first.1,[first.2]) := by
  simp only [inOrder,Course.bindRun]
  cases (execute c past).2.success <;> simp

section
variable {pause : Nat} {execute : Command → Course Outcome} {commands : List Command}
  (whole : ∀ c ∈ commands, ∀ past, Whole registry past (execute c past).1)
include whole

theorem inOrderWhole (past : List Action) : Whole registry past (inOrder pause execute commands past).1 := by
  induction commands generalizing past with
  | nil => exact wholeUncalled (by simp [inOrder])
  | cons c rest ih =>
    have first := whole c List.mem_cons_self past
    have later := ih fun d mem => whole d (List.mem_cons_of_mem _ mem)
    cases rest with
    | nil => simpa [inOrder] using first
    | cons d rest =>
      rw [inOrderCons]
      split
      · refine wholeAppend first (wholeAppend (wholeUncalled waitingUncalled) ?_)
        exact later _
      · exact first

theorem inOrderOffers (each : ∀ c ∈ commands, ∀ past,
      directOffers registry past (execute c past).1 = (offered (execute c past).2).toList)
    (past : List Action) : directOffers registry past (inOrder pause execute commands past).1 =
      (inOrder pause execute commands past).2.filterMap offered := by
  induction commands generalizing past with
  | nil => rfl
  | cons c rest ih =>
    have begun := whole c List.mem_cons_self past
    have first := each c List.mem_cons_self past
    have later := ih (fun d mem => whole d (List.mem_cons_of_mem _ mem))
      fun d mem => each d (List.mem_cons_of_mem _ mem)
    cases rest with
    | nil => simpa [inOrder,offeredCons] using first
    | cons d rest =>
      rw [inOrderCons]
      split
      · rw [directAppend begun,directAppend (wholeUncalled waitingUncalled),
          directUncalled waitingUncalled,List.nil_append,first,later,offeredCons]
      · simpa [offeredCons] using first

end

theorem summaryUndo (custom : CustomCommand) (steps : List Command) (outcomes : List Outcome) :
    (aliasOutcome custom steps outcomes).undo = none := by
  unfold aliasOutcome
  split <;> rfl

/- The outcome of a custom command has no undo action of its own, whatever its steps offered. -/
theorem aliasOffers (ex : Executor) (c : Command) (past : List Action) :
    Whole ex.registry past (ex.executeAlias c past).1 ∧
      directOffers ex.registry past (ex.executeAlias c past).1 = [] ∧
      offered (ex.executeAlias c past).2 = none := by
  have stepped : Course.Only (fun a => ∀ d, a = .call d → d.source = .alias) (ex.executeAlias c) := by
    refine aliasOnly (by simp) (by simp) (by simp) (by simp) fun custom _ d mem e same => ?_
    obtain ⟨step,_,made⟩ := List.mem_map.mp mem
    rw [← Action.call.inj same,← made]; rfl
  refine ⟨?_,?_,?_⟩
  · unfold executeAlias
    cases ex.resolve c with
    | error message => exact wholeUncalled (by simp)
    | ok custom =>
      simp only [Course.bindRun,Course.nowRun,Course.performRun,Course.pureRun,List.nil_append,
        List.append_nil]
      refine wholeAppend (wholeUncalled (by simp [isCall])) ?_
      exact inOrderWhole (fun d _ past => (stepReplies ex d past).1) _
  · unfold directOffers
    rw [List.filter_eq_nil_iff.mpr]
    · rfl
    · intro r mem
      have step := stepped past (.call r.1) (repliesCalled mem) r.1 rfl
      simp [step]
  · unfold executeAlias
    cases ex.resolve c with
    | error message => rfl
    | ok custom =>
      simp only [Course.bindRun,Course.pureRun,offered,summaryUndo,ite_self]

theorem inOrderSome {pause : Nat} {execute : Command → Course Outcome} {commands : List Command}
    (nonempty : commands ≠ []) (past : List Action) : (inOrder pause execute commands past).2 ≠ [] := by
  cases commands with
  | nil => exact absurd rfl nonempty
  | cons c rest =>
    cases rest with
    | nil => simp [inOrder]
    | cons d rest =>
      rw [inOrderCons]
      split <;> simp

/- Of what the handlers of a chain offer to undo, its outcomes keep what was offered for its own
commands. -/
theorem chainOffers (ex : Executor) {commands : List Command}
    (sources : ∀ c ∈ commands, c.source = .alias → c.intent = .customAlias) (past : List Action) :
    Whole ex.registry past (ex.executeChain commands past).1 ∧
      directOffers ex.registry past (ex.executeChain commands past).1 =
        (ex.executeChain commands past).2.filterMap offered := by
  have own : ∀ c ∈ commands, ∀ past, Whole ex.registry past (ex.execute c past).1 ∧
      directOffers ex.registry past (ex.execute c past).1 = (offered (ex.execute c past).2).toList := by
    intro c mem past
    unfold execute
    split
    · obtain ⟨whole,nothing,lost⟩ := aliasOffers ex c past
      exact ⟨whole,by rw [nothing,lost]; rfl⟩
    · rename_i otherwise
      exact ⟨(stepReplies ex c past).1,
        stepOffers ex (fun source => otherwise ⟨sources c mem source,source⟩) past⟩
  exact ⟨inOrderWhole (fun c mem past => (own c mem past).1) past,
    inOrderOffers (fun c mem past => (own c mem past).1) (fun c mem past => (own c mem past).2) past⟩

end VoiceCommand.Executor
