import VoiceCommand.Proofs.Executor.Gates
import VoiceCommand.Proofs.Executor.Undo

/-! What an executor reports can be read. Every failure has words of its own, and a handler that has nothing to say
lends its voice to the display name of the command. -/
namespace VoiceCommand

namespace Text

theorem visibleFront {s : String} (visible : allBlank s = false) (t : String) : allBlank (s ++ t) = false := by
  simp only [allBlank,String.toList_append,List.all_append,Bool.and_eq_false_iff]
  exact .inl visible

theorem visibleBack (s : String) {t : String} (visible : allBlank t = false) : allBlank (s ++ t) = false := by
  simp only [allBlank,String.toList_append,List.all_append,Bool.and_eq_false_iff]
  exact .inr visible

theorem visibleJoined (separator : String) {texts : List String} (nonempty : texts ≠ [])
    (visible : ∀ t ∈ texts, allBlank t = false) : allBlank (separator.intercalate texts) = false := by
  obtain ⟨t,rest,rfl⟩ := List.exists_cons_of_ne_nil nonempty
  have first := visible t List.mem_cons_self
  cases rest with
  | nil => exact first
  | cons u rest =>
    rw [String.intercalate_cons_cons]
    exact visibleFront (visibleFront first _) _

end Text

theorem errorVisible (e : CommandError) : Text.allBlank e.message = false := by
  open Text in
  cases e with
  | unrecognized text => exact visibleBack _ (by decide)
  | missingEntity intent key => exact visibleFront (visibleBack _ (by decide)) _
  | disabled name => exact visibleBack _ (by decide)
  | confirmationDeclined name => exact visibleBack _ (by decide)
  | noHandler name => exact visibleFront (by decide) _
  | handlerFailed intent cause => exact visibleFront (visibleBack _ (by decide)) _
  | chainFailed intent index cause => exact visibleFront (visibleBack _ (by decide)) _
  | timeout seconds => exact visibleBack _ (by decide)
  | classifier cause => exact visibleFront (by decide) _

/-- The command bears a name that can be read, or runs as a custom command, which does not need one. -/
def Presentable (c : Command) : Prop :=
  Text.allBlank c.displayName = false ∨ c.intent = .customAlias ∧ c.source = .alias

namespace Executor

theorem speakingVisible {c : Command} (named : Text.allBlank c.displayName = false) (o : Outcome) :
    Text.allBlank (speaking c o).message = false := by
  unfold speaking
  split
  · exact named
  · rename_i visible
    exact Bool.eq_false_iff.mpr visible

theorem stepVisible {c : Command} (named : Text.allBlank c.displayName = false) (ex : Executor)
    (past : List Action) : Text.allBlank (ex.executeStep c past).2.message = false := by
  have passage := Gates.tryPassage ex c past
  simp only [executeStep,Course.bindRun,Course.nowRun,List.append_nil]
  generalize ex.tryExecute c past = tried at passage
  cases passage with
  | refused uncalled => exact errorVisible _
  | @called before delay reply handler e uncalled cleared handled responds =>
    cases reply with
    | error cause => exact errorVisible _
    | ok outcome => exact speakingVisible named outcome

theorem refusalVisible {ex : Executor} {c : Command} {message : String} (refused : ex.resolve c = .error message) :
    Text.allBlank message = false := by
  unfold resolve at refused
  split at refused
  · cases refused
    exact errorVisible _
  · split at refused
    · cases refused
      decide
    · split at refused
      · cases refused
        exact Text.visibleBack _ (by decide)
      · split at refused
        · cases refused
          exact Text.visibleBack _ (by decide)
        · split at refused
          · cases refused
            exact Text.visibleBack _ (by decide)
          · cases refused

theorem summaryVisible (custom : CustomCommand) (steps : List Command) (outcomes : List Outcome) :
    Text.allBlank (aliasOutcome custom steps outcomes).message = false := by
  unfold aliasOutcome
  split
  · exact Text.visibleBack _ (errorVisible _)
  · exact Text.visibleBack _ (by decide)

theorem aliasVisible (ex : Executor) (c : Command) (past : List Action) :
    Text.allBlank (ex.executeAlias c past).2.message = false := by
  unfold executeAlias
  cases resolved : ex.resolve c with
  | error message => exact refusalVisible resolved
  | ok custom => exact summaryVisible custom _ _

theorem executeVisible {c : Command} (presentable : Presentable c) (ex : Executor) (past : List Action) :
    Text.allBlank (ex.execute c past).2.message = false := by
  unfold execute
  split
  · exact aliasVisible ex c past
  · rename_i other
    exact stepVisible (presentable.resolve_right other) ex past

theorem inOrderEach {p : Outcome → Prop} {pause : Nat} {execute : Command → Course Outcome}
    {commands : List Command} (each : ∀ c ∈ commands, ∀ past, p (execute c past).2) (past : List Action) :
    ∀ o ∈ (inOrder pause execute commands past).2, p o := by
  induction commands generalizing past with
  | nil => simp [inOrder]
  | cons c rest ih =>
    have first := each c List.mem_cons_self past
    have later := ih fun d mem => each d (List.mem_cons_of_mem _ mem)
    cases rest with
    | nil => simpa [inOrder] using first
    | cons d rest =>
      rw [inOrderCons]
      split
      · exact List.forall_mem_cons.mpr ⟨first,later _⟩
      · exact List.forall_mem_singleton.mpr first

theorem chainVisible {commands : List Command} (presentable : ∀ c ∈ commands, Presentable c) (ex : Executor)
    (past : List Action) : ∀ o ∈ (ex.executeChain commands past).2, Text.allBlank o.message = false :=
  inOrderEach (fun c mem past => executeVisible (presentable c mem) ex past) past

end Executor

end VoiceCommand
