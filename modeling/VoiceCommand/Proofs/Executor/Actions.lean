import VoiceCommand.Executor
import VoiceCommand.Proofs.Course

/-! Which actions an executor performs: waits, questions, calls of the handlers of its commands, and
credits of the custom commands that it has resolved. -/
namespace VoiceCommand.Executor
open Course (Only)

section
variable {p : Action → Prop} (waits : ∀ ms, p (.elapse ms))
include waits

theorem inOrderOnly {pause : Nat} {execute : Command → Course Outcome} {commands : List Command}
    (each : ∀ c ∈ commands, Only p (execute c)) : Only p (inOrder pause execute commands) := by
  induction commands with
  | nil => exact .pure _
  | cons c rest ih =>
    have first := each c List.mem_cons_self
    have later := ih fun d mem => each d (List.mem_cons_of_mem _ mem)
    cases rest with
    | nil => exact first.bind fun _ => .pure _
    | cons d rest =>
      refine first.bind fun o => ?_
      split
      · exact (Only.wait waits pause).bind fun _ => later.bind fun _ => .pure _
      · exact .pure _

theorem askOnly (puts : ∀ q, p (.put q)) (asks : ∀ q a, p (.ask q a)) (prompt : Prompt)
    (question : String) : Only p (Course.ask prompt question) := by
  intro past a mem
  rw [Course.askRun] at mem
  simp only [Course.asking,List.mem_cons,List.mem_append,List.not_mem_nil,or_false] at mem
  rcases mem with rfl | mem | rfl
  · exact puts _
  · exact Course.memWaiting mem ▸ waits _
  · exact asks _ _

theorem callOnly {c : Command} (calls : p (.call c)) (e : Entry) : Only p (callHandler e c) := by
  unfold callHandler
  split
  · exact .pure _
  · refine Only.bind ?_ fun reply => by split <;> exact .pure _
    intro past a mem
    rw [Course.callRun] at mem
    rcases List.mem_cons.mp mem with rfl | mem
    · exact calls
    · exact Course.memWaiting mem ▸ waits _

theorem stepOnly (puts : ∀ q, p (.put q)) (asks : ∀ q a, p (.ask q a)) {c : Command}
    (calls : p (.call c)) (ex : Executor) : Only p (ex.executeStep c) := by
  have gates : Only p (ex.tryExecute c) := by
    unfold tryExecute
    split
    · exact .pure _
    · rename_i e _
      split
      · exact .pure _
      · split
        · exact .pure _
        · split
          · refine Only.bind ?_ fun agreed => ?_
            · unfold confirm
              split
              · exact askOnly waits puts asks _ _
              · exact .pure _
            · split
              · exact callOnly waits calls e
              · exact .pure _
          · exact callOnly waits calls e
  unfold executeStep
  refine Only.now.bind fun _ => gates.bind fun result => Only.now.bind fun _ => ?_
  split <;> exact .pure _

theorem aliasOnly (puts : ∀ q, p (.put q)) (asks : ∀ q a, p (.ask q a)) {ex : Executor} {c : Command}
    (credits : ∀ custom, ex.resolve c = .ok custom → p (.credit custom.name))
    (calls : ∀ custom, ex.resolve c = .ok custom → ∀ d ∈ stepCommands (triggerOf c) custom,
      p (.call d)) : Only p (ex.executeAlias c) := by
  unfold executeAlias
  split
  · exact .pure _
  · rename_i custom resolved
    have steps : Only p (inOrder ex.stepDelay ex.executeStep (stepCommands (triggerOf c) custom)) :=
      inOrderOnly waits fun d mem => stepOnly waits puts asks (calls custom resolved d mem) ex
    exact Only.now.bind fun _ => (Only.perform (credits custom resolved)).bind fun _ =>
      steps.bind fun _ => Only.now.bind fun _ => .pure _

theorem chainOnly (puts : ∀ q, p (.put q)) (asks : ∀ q a, p (.ask q a)) (calls : ∀ c, p (.call c))
    (credits : ∀ name, p (.credit name)) (ex : Executor) (commands : List Command) :
    Only p (ex.executeChain commands) := by
  refine inOrderOnly waits fun c _ => ?_
  unfold execute
  split
  · exact aliasOnly waits puts asks (fun _ _ => credits _) fun _ _ d _ => calls d
  · exact stepOnly waits puts asks (calls c) ex

end

end VoiceCommand.Executor
