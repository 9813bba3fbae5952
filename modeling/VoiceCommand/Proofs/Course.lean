import VoiceCommand.Collaborators

/-! Laws of histories and of courses of events: what a course makes happen is put together from what
its parts make happen, and a course that is cut short has happened up to some point. -/
namespace VoiceCommand

theorem elapsedAppend (first second : List Action) :
    elapsed (first ++ second) = elapsed first + elapsed second := by
  induction first with
  | nil => simp [elapsed]
  | cons a rest ih => cases a <;> simp [elapsed,ih,Nat.add_assoc]

/- Where an element of a joined list stands: in the first part, or in the second behind all of the first. -/
theorem splitAppend {α : Type} {first second before after : List α} {a : α}
    (split : first ++ second = before ++ a :: after) :
    (∃ rest, first = before ++ a :: rest) ∨
      ∃ middle, before = first ++ middle ∧ second = middle ++ a :: after := by
  rcases List.append_eq_append_iff.mp split with ⟨middle,eq,rest⟩ | ⟨middle,eq,rest⟩
  · exact .inr ⟨middle,eq,rest⟩
  · cases middle with
    | nil => exact .inr ⟨[],by simpa using eq.symm,by simpa using rest.symm⟩
    | cons b middle =>
      obtain ⟨same,_⟩ := List.cons.inj rest
      exact .inl ⟨middle,by rw [eq,same]⟩

def Action.isElapse : Action → Bool
  | .elapse _ => true
  | _ => false

/- Only waits are changed by a cut, so any other action has happened in full, and so has all that
came before it. -/
theorem cutSplit {limit history before after} {a : Action} (whole : a.isElapse = false)
    (split : cutAt limit history = before ++ a :: after) : ∃ rest, history = before ++ a :: rest := by
  fun_induction cutAt limit history generalizing before with
  | case1 => simp at split
  | case2 limit ms rest fits ih =>
    cases before with
    | nil => cases split; simp [Action.isElapse] at whole
    | cons b before =>
      obtain ⟨same,tail⟩ := List.cons.inj split
      obtain ⟨left,eq⟩ := ih tail
      exact ⟨left,by rw [← same,eq,List.cons_append]⟩
  | case3 limit ms rest tooLong =>
    cases before with
    | nil => cases split; simp [Action.isElapse] at whole
    | cons b before => simp at split
  | case4 limit b rest other ih =>
    cases before with
    | nil =>
      obtain ⟨same,_⟩ := List.cons.inj split
      exact ⟨rest,by rw [← same]; rfl⟩
    | cons b before =>
      obtain ⟨same,tail⟩ := List.cons.inj split
      obtain ⟨left,eq⟩ := ih tail
      exact ⟨left,by rw [← same,eq,List.cons_append]⟩

theorem memCut {limit history} {a : Action} (mem : a ∈ cutAt limit history) :
    a ∈ history ∨ a.isElapse = true := by
  cases whole : a.isElapse with
  | true => exact .inr rfl
  | false =>
    obtain ⟨before,after,split⟩ := List.append_of_mem mem
    obtain ⟨rest,eq⟩ := cutSplit whole split
    exact .inl (by simp [eq])

/- A history that outlasts its limit is cut within one of its waits. Nothing in front of this wait is changed. -/
theorem cutLate {limit history} (late : limit < elapsed history) :
    ∃ kept ms rest, history = kept ++ .elapse ms :: rest ∧ elapsed kept ≤ limit ∧
      limit < elapsed kept + ms ∧ cutAt limit history = kept ++ [.elapse (limit - elapsed kept)] := by
  fun_induction cutAt limit history with
  | case1 => simp [elapsed] at late
  | case2 limit ms rest fits ih =>
    obtain ⟨kept,long,behind,split,inTime,beyond,cut⟩ := ih (by simp only [elapsed] at late; omega)
    refine ⟨.elapse ms :: kept,long,behind,by rw [split,List.cons_append],?_,?_,?_⟩
    · simp only [elapsed]
      omega
    · simp only [elapsed]
      omega
    · rw [cut,List.cons_append,elapsed,Nat.sub_sub]
  | case3 limit ms rest tooLong =>
    exact ⟨[],ms,rest,rfl,Nat.zero_le _,by simpa [elapsed] using tooLong,rfl⟩
  | case4 limit a rest other ih =>
    have quiet (kept : List Action) : elapsed (a :: kept) = elapsed kept := by
      cases a with
      | elapse ms => exact absurd rfl (other ms)
      | _ => rfl
    obtain ⟨kept,long,behind,split,inTime,beyond,cut⟩ := ih (by rwa [quiet] at late)
    refine ⟨a :: kept,long,behind,by rw [split,List.cons_append],?_,?_,?_⟩
    · rwa [quiet]
    · rwa [quiet]
    · rw [cut,List.cons_append,quiet]

/- What happens by the limit is kept with all that came before it, and nothing that happens later is. -/
theorem cutTimely {limit history before} {a : Action} (late : limit < elapsed history)
    (whole : a.isElapse = false) : (∃ after, cutAt limit history = before ++ a :: after) ↔
      elapsed before ≤ limit ∧ ∃ after, history = before ++ a :: after := by
  obtain ⟨kept,ms,rest,split,inTime,beyond,cut⟩ := cutLate late
  have instant : a ≠ .elapse ms ∧ a ≠ .elapse (limit - elapsed kept) := by
    constructor <;> rintro rfl <;> cases whole
  constructor
  · rintro ⟨after,found⟩
    refine ⟨?_,cutSplit whole found⟩
    rw [cut] at found
    rcases splitAppend found with ⟨back,eq⟩ | ⟨middle,eq,last⟩
    · rw [eq,elapsedAppend] at inTime
      omega
    · cases middle with
      | nil => exact absurd (List.cons.inj last).1.symm instant.2
      | cons b middle => simp at last
  · rintro ⟨early,after,found⟩
    rw [split] at found
    rcases splitAppend found with ⟨back,eq⟩ | ⟨middle,eq,last⟩
    · exact ⟨back ++ [.elapse (limit - elapsed kept)],by rw [cut,eq,List.append_assoc,List.cons_append]⟩
    · cases middle with
      | nil => exact absurd (List.cons.inj last).1.symm instant.1
      | cons b middle =>
        rw [eq,← (List.cons.inj last).1,elapsedAppend,elapsed] at early
        omega

/- Whatever is not a wait takes no time and is not cut. -/
theorem instantly {a : Action} (other : ∀ ms, a ≠ .elapse ms) (rest : List Action) :
    elapsed (a :: rest) = elapsed rest ∧ ∀ limit, cutAt limit (a :: rest) = a :: cutAt limit rest := by
  cases a with
  | elapse ms => exact absurd rfl (other ms)
  | _ => exact ⟨rfl,fun _ => rfl⟩

theorem cutWhole {limit history} (inTime : elapsed history ≤ limit) : cutAt limit history = history := by
  fun_induction cutAt limit history with
  | case1 => rfl
  | case2 limit ms rest fits ih =>
    simp only [elapsed] at inTime
    rw [ih (by omega)]
  | case3 limit ms rest tooLong =>
    simp only [elapsed] at inTime
    omega
  | case4 limit a rest other ih =>
    rw [(instantly other rest).1] at inTime
    rw [ih inTime]

/- The limit falls into the first part, or what is left of it into the second. -/
theorem cutAppend (limit : Nat) (first second : List Action) : cutAt limit (first ++ second) =
    if elapsed first ≤ limit then first ++ cutAt (limit - elapsed first) second else cutAt limit first := by
  fun_induction cutAt limit first with
  | case1 => simp [elapsed]
  | case2 limit ms rest fits ih =>
    have room : ms + elapsed rest ≤ limit ↔ elapsed rest ≤ limit - ms := by omega
    simp only [List.cons_append,cutAt,if_pos fits,ih,elapsed,room,Nat.sub_sub]
    split <;> rfl
  | case3 limit ms rest tooLong =>
    have late : ¬ ms + elapsed rest ≤ limit := by omega
    rw [List.cons_append,cutAt,if_neg tooLong,elapsed,if_neg late]
  | case4 limit a rest other ih =>
    rw [List.cons_append,(instantly other _).2,ih,(instantly other _).1]
    split <;> rfl

theorem elapsedCut (limit : Nat) (history : List Action) :
    elapsed (cutAt limit history) = min limit (elapsed history) := by
  by_cases inTime : elapsed history ≤ limit
  · rw [cutWhole inTime,Nat.min_eq_right inTime]
  · have late := Nat.not_le.mp inTime
    obtain ⟨kept,ms,rest,_,early,_,cut⟩ := cutLate late
    rw [cut,elapsedAppend,Nat.min_eq_left (Nat.le_of_lt late)]
    exact Nat.add_sub_of_le early

/- No limit beyond the end makes a difference. -/
theorem cutLater (limit : Nat) (history : List Action) :
    cutAt (min limit (elapsed history)) history = cutAt limit history := by
  by_cases inTime : elapsed history ≤ limit
  · rw [Nat.min_eq_right inTime,cutWhole (Nat.le_refl _),cutWhole inTime]
  · rw [Nat.min_eq_left (Nat.le_of_lt (Nat.not_le.mp inTime))]

theorem cutSooner {inner outer : Nat} (less : inner ≤ outer) (history : List Action) :
    cutAt inner (cutAt outer history) = cutAt inner history := by
  by_cases inTime : elapsed history ≤ outer
  · rw [cutWhole inTime]
  · obtain ⟨kept,ms,rest,split,early,beyond,cut⟩ := cutLate (Nat.not_le.mp inTime)
    have long : ¬ ms ≤ inner - elapsed kept := by omega
    have last : cutAt (inner - elapsed kept) [.elapse (outer - elapsed kept)] =
        [.elapse (inner - elapsed kept)] := by
      simp only [cutAt]
      split
      · rename_i fits
        rw [Nat.le_antisymm fits (Nat.sub_le_sub_right less _)]
      · rfl
    rw [cut,split,cutAppend,cutAppend,last,cutAt,if_neg long]

/- Of two limits the earlier one counts. -/
theorem cutTwice (first second : Nat) (history : List Action) :
    cutAt first (cutAt second history) = cutAt (min first second) history := by
  rcases Nat.le_total first second with sooner | later
  · rw [Nat.min_eq_left sooner,cutSooner sooner]
  · have ends : elapsed (cutAt second history) ≤ first := by
      rw [elapsedCut]
      exact Nat.le_trans (Nat.min_le_left _ _) later
    rw [Nat.min_eq_right later,cutWhole ends]

theorem withinCut {α : Type} (limit : Nat) (c : Course α) (past : List Action) :
    (Course.within limit c past).1 = cutAt limit (c past).1 := by
  simp only [Course.within]
  split
  · rename_i inTime
    exact (cutWhole inTime).symm
  · rfl

namespace Course

def waiting (ms : Nat) : List Action := if ms = 0 then [] else [.elapse ms]

def asking (question : String) (delay : Nat) (answer : Bool) : List Action :=
  .put question :: (waiting delay ++ [.ask question answer])

theorem memWaiting {ms} {a : Action} (mem : a ∈ waiting ms) : a = .elapse ms := by
  unfold waiting at mem
  split at mem
  · simp at mem
  · simpa using mem

theorem elapsedWaiting (ms : Nat) : elapsed (waiting ms) = ms := by
  unfold waiting
  split
  · rename_i instant
    exact instant.symm
  · simp [elapsed]

variable {α β : Type}

@[simp] theorem pureRun (a : α) (past : List Action) : (Pure.pure a : Course α) past = ([],a) := rfl

@[simp] theorem bindRun (c : Course α) (next : α → Course β) (past : List Action) :
    (c >>= next) past =
      ((c past).1 ++ (next (c past).2 (past ++ (c past).1)).1,
        (next (c past).2 (past ++ (c past).1)).2) := rfl

theorem bindAlike {c : Course α} {next : α → Course β} {before before' : List Action}
    (first : c before = c before') (steady : ∀ a past past', next a past = next a past') :
    (c >>= next) before = (c >>= next) before' := by
  rw [bindRun,bindRun,first,steady _ (before ++ _) (before' ++ (c before').1)]

@[simp] theorem performRun (action : Action) (past : List Action) :
    perform action past = ([action],()) := rfl

@[simp] theorem pastRun (before : List Action) : past before = ([],before) := rfl

@[simp] theorem nowRun (past : List Action) : now past = ([],elapsed past) := rfl

@[simp] theorem waitRun (ms : Nat) (past : List Action) : wait ms past = (waiting ms,()) := rfl

theorem askRun (prompt : Prompt) (question : String) (past : List Action) :
    ask prompt question past =
      (asking question (prompt.respond past question).1 (prompt.respond past question).2,
        (prompt.respond past question).2) := by
  simp [ask,pastRun,asking]

theorem callRun (handler : Handler) (c : Command) (past : List Action) :
    call handler c past =
      (.call c :: waiting (handler.respond past c).1,(handler.respond past c).2) := by
  simp [call,pastRun]

theorem classifyRun (classifier : Classifier) (text : String) (past : List Action) :
    classify classifier text past =
      (.classify text :: waiting (classifier.respond past text).1,
        (classifier.respond past text).2) := by
  simp [classify,pastRun]

def Only (p : Action → Prop) (c : Course α) : Prop := ∀ past, ∀ a ∈ (c past).1, p a

variable {p : Action → Prop}

theorem Only.pure (a : α) : Only p (Pure.pure a : Course α) := by
  intro past b mem
  simp at mem

theorem Only.bind {c : Course α} {next : α → Course β} (first : Only p c)
    (second : ∀ a, Only p (next a)) : Only p (c >>= next) := by
  intro past b mem
  rw [bindRun] at mem
  rcases List.mem_append.mp mem with mem | mem
  · exact first past b mem
  · exact second _ _ b mem

theorem Only.perform {action : Action} (h : p action) : Only p (Course.perform action) := by
  intro past b mem
  simp only [performRun,List.mem_singleton] at mem
  exact mem ▸ h

theorem Only.now : Only p Course.now := by
  intro past b mem
  simp at mem

theorem Only.wait (elapses : ∀ ms, p (.elapse ms)) (ms : Nat) : Only p (Course.wait ms) := by
  intro past b mem
  exact memWaiting mem ▸ elapses ms

theorem Only.within (elapses : ∀ ms, p (.elapse ms)) {c : Course α} (h : Only p c) (limit : Nat) :
    Only p (Course.within limit c) := by
  intro past b mem
  simp only [Course.within] at mem
  split at mem
  · exact h past b mem
  · rcases memCut mem with mem | elapse
    · exact h past b mem
    · cases b <;> simp [Action.isElapse] at elapse
      exact elapses _

end Course

end VoiceCommand
