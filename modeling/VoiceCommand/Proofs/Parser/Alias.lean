import VoiceCommand.Proofs.Executor.Steps
import VoiceCommand.Proofs.Parser.Actions

/-! Custom commands between recognition and execution. The store is searched twice, first by what was said and
then by the trigger phrase of what was found; both searches stop at the same place. -/
namespace VoiceCommand

theorem triggerVisible {c : CustomCommand} {text : String} (h : c.isTriggeredBy text = true) :
    c.isTriggeredBy c.trigger = true := by
  simp only [CustomCommand.isTriggeredBy,Bool.and_eq_true,beq_self_eq_true,and_true] at h ⊢
  exact h.1

/- What triggers a custom command may be replaced by its trigger phrase. -/
theorem triggeredAlike {c : CustomCommand} {text : String} (h : c.isTriggeredBy text = true)
    (other : CustomCommand) : other.isTriggeredBy c.trigger = other.isTriggeredBy text := by
  simp only [CustomCommand.isTriggeredBy,Bool.and_eq_true,beq_iff_eq] at h
  unfold CustomCommand.isTriggeredBy
  rw [h.2]

namespace Parser
open Executor (triggerOf)

def isSaid (text : String) (c : CustomCommand) : Bool :=
  c.enabled && (c.isTriggeredBy text || c.isTriggeredBy (Text.normalize text))

def isAsked (trigger : String) (c : CustomCommand) : Bool := c.enabled && c.isTriggeredBy trigger

structure FirstAt (store : Store) (p : CustomCommand → Bool) (i : Nat) (custom : CustomCommand) : Prop where
  here : store[i]? = some custom
  holds : p custom = true
  earlier : ∀ (j : Nat) other, j < i → store[j]? = some other → p other = false

theorem firstFound {store : Store} {p : CustomCommand → Bool} {custom : CustomCommand}
    (h : store.find? p = some custom) : ∃ i, FirstAt store p i custom := by
  obtain ⟨holds,before,after,split,missed⟩ := List.find?_eq_some_iff_append.mp h
  refine ⟨before.length,by simp [split],holds,fun j other less found => ?_⟩
  rw [split,List.getElem?_append_left less] at found
  simpa using missed other (List.mem_of_getElem? found)

theorem foundFirst {store : Store} {p : CustomCommand → Bool} {i : Nat} {custom : CustomCommand}
    (h : FirstAt store p i custom) : store.find? p = some custom := by
  obtain ⟨inside,same⟩ := List.getElem?_eq_some_iff.mp h.here
  refine List.find?_eq_some_iff_append.mpr ⟨h.holds,store.take i,store.drop (i + 1),?_,?_⟩
  · rw [← same,← List.drop_eq_getElem_cons inside,List.take_append_drop]
  · intro other mem
    obtain ⟨j,less,found⟩ := List.mem_take_iff_getElem.mp mem
    simpa using h.earlier j other (by omega) (by rw [← found]; exact List.getElem?_eq_getElem _)

/-- The text was recognised as the custom command at this place, and its trigger phrase leads there again. -/
structure Recognised (store : Store) (text : String) (c : Command) (i : Nat) (custom : CustomCommand) :
    Prop where
  said : FirstAt store (isSaid text) i custom
  command : c = aliasCommand text custom
  enabled : custom.enabled = true
  asked : FirstAt store (isAsked (triggerOf c)) i custom
  found : store.triggered? (triggerOf c) = some custom

theorem triggerKept (text : String) (custom : CustomCommand) :
    triggerOf (aliasCommand text custom) = custom.trigger := by
  have order : aliasNameKey < triggerKey := by decide
  have entries : (aliasCommand text custom).entities.entries =
      [(aliasNameKey,custom.name),(triggerKey,custom.trigger)] :=
    KeyMap.ofAscending (List.pairwise_pair.mpr order)
  simp [triggerOf,Command.entity?,KeyMap.get?,entries,List.lookup_cons,aliasNameKey,triggerKey]

/- Whatever the trigger phrase asks for was said as well. -/
theorem askedSaid {text : String} {custom other : CustomCommand}
    (triggered : custom.isTriggeredBy text = true ∨ custom.isTriggeredBy (Text.normalize text) = true)
    (asked : isAsked custom.trigger other = true) : isSaid text other = true := by
  simp only [isAsked,Bool.and_eq_true] at asked
  rcases triggered with raw | normal
  · rw [triggeredAlike raw] at asked
    simp [isSaid,asked]
  · rw [triggeredAlike normal] at asked
    simp [isSaid,asked]

theorem askedFirst {store : Store} {text : String} {i : Nat} {custom : CustomCommand}
    (said : FirstAt store (isSaid text) i custom) : FirstAt store (isAsked custom.trigger) i custom := by
  obtain ⟨enabled,triggered⟩ : custom.enabled = true ∧
      (custom.isTriggeredBy text = true ∨ custom.isTriggeredBy (Text.normalize text) = true) := by
    simpa [isSaid] using said.holds
  refine ⟨said.here,?_,fun j other less found => ?_⟩
  · have visible := triggered.elim triggerVisible triggerVisible
    simp [isAsked,enabled,visible]
  · cases asked : isAsked custom.trigger other with
    | false => rfl
    | true => exact (askedSaid triggered asked).symm.trans (said.earlier j other less found)

theorem aliasRecognised {store text c} (h : matchAlias? store text = some c) :
    ∃ i custom, Recognised store text c i custom := by
  obtain ⟨custom,first,eq⟩ := Option.map_eq_some_iff.mp h
  obtain ⟨i,said⟩ := firstFound first
  have asked := askedFirst said
  have trigger : triggerOf c = custom.trigger := by rw [← eq,triggerKept]
  have enabled : custom.enabled = true := (Bool.and_eq_true_iff.mp said.holds).1
  refine ⟨i,custom,said,eq.symm,enabled,?_,?_⟩
  · rw [trigger]
    exact asked
  · rw [trigger]
    exact foundFirst asked

end Parser

namespace Executor
open VoiceCommand.Parser (Recognised)

/-- What becomes of a custom command that was recognised: this very one runs, or it is refused for a reason
that lies in itself or in the registry. -/
inductive Expansion (ex : Executor) (c : Command) (custom : CustomCommand) : Prop where
  | runs (resolved : ex.resolve c = .ok custom)
  | disabled (off : ex.registry.isEnabled .customAlias = false)
      (refused : ex.resolve c = .error (CommandError.disabled Intent.customAlias.label).message)
  | idle (stepless : custom.steps = []) (refused : ex.resolve c = .error (custom.name ++ " has no actions"))
  | nested {step} (inside : step ∈ custom.steps) (intent : step.intent = .customAlias)
      (refused : ex.resolve c = .error (custom.name ++ " cannot run another custom command"))

def unavailable (c : Command) : String :=
  "Custom command \"" ++ c.displayName ++ "\" is no longer available"

section
variable {ex : Executor} {store : Store} {text : String} {c : Command} {i : Nat} {custom : CustomCommand}

theorem recognisedExpansion (kept : ex.store = some store) (h : Recognised store text c i custom) :
    Expansion ex c custom := by
  cases allowed : ex.registry.isEnabled .customAlias with
  | false => exact .disabled allowed (by simp [resolve,allowed])
  | true =>
    cases stepless : custom.steps.isEmpty with
    | true => exact .idle (List.isEmpty_iff.mp stepless) (by simp [resolve,allowed,kept,h.found,stepless])
    | false =>
      cases nested : custom.steps.any fun step => step.intent == .customAlias with
      | true =>
        obtain ⟨step,inside,intent⟩ := List.any_eq_true.mp nested
        refine .nested inside (beq_iff_eq.mp intent) ?_
        simp only [resolve,allowed,kept,h.found,stepless,nested,Bool.not_true,Bool.false_eq_true,if_false,if_true]
      | false =>
        refine .runs ?_
        simp only [resolve,allowed,kept,h.found,stepless,nested,Bool.not_true,Bool.false_eq_true,if_false]

theorem recognisedSame (kept : ex.store = some store) (h : Recognised store text c i custom)
    {other : CustomCommand} (resolved : ex.resolve c = .ok other) : other = custom := by
  obtain ⟨searched,same,found,_⟩ := resolvedSource resolved
  rw [kept] at same
  cases Option.some.inj same
  exact Option.some.inj (found.symm.trans h.found)

/- A text that begins with `front` and then `name` again cannot also be `name` followed by a character
that `front` lacks: `name` would repeat `front` until its end. -/
theorem notRepeated {front rest last : List Char} {d : Char} (nonempty : front ≠ []) (lacks : d ∉ front)
    (name : List Char) : name ++ d :: rest ≠ front ++ (name ++ last) := by
  induction size : name.length using Nat.strongRecOn generalizing name with
  | ind n ih =>
    intro eq
    rcases List.append_eq_append_iff.mp eq with ⟨middle,eq,behind⟩ | ⟨middle,eq,behind⟩
    · cases middle with
      | nil =>
        obtain ⟨e,others,begins⟩ := List.exists_cons_of_ne_nil nonempty
        rw [List.append_nil] at eq
        rw [← eq,begins] at behind
        simp only [List.nil_append,List.cons_append,List.cons.injEq] at behind
        exact lacks (by simp [begins,behind.1])
      | cons e middle =>
        obtain ⟨same,_⟩ := List.cons.inj behind
        exact lacks (by simp [eq,same])
    · have shorter : middle.length < n := by
        have positive := List.length_pos_iff.mpr nonempty
        rw [← size,eq,List.length_append]
        omega
      exact ih _ shorter middle rfl (by simpa [eq] using behind.symm)

theorem summaryAvailable (custom : CustomCommand) (steps : List Command) (outcomes : List Outcome) :
    (aliasOutcome custom steps outcomes).message ≠
      "Custom command \"" ++ custom.name ++ "\" is no longer available" := by
  obtain ⟨rest,begins⟩ : ∃ rest,
      (aliasOutcome custom steps outcomes).message = custom.name ++ ": " ++ rest := by
    unfold aliasOutcome
    split
    · exact ⟨_,rfl⟩
    · exact ⟨toString outcomes.length ++ " actions done",by simp [Outcome.succeeded,String.append_assoc]⟩
  rw [begins]
  intro same
  have chars := congrArg String.toList same
  have colon : ": ".toList = [':',' '] := rfl
  have front : "Custom command \"".toList = 'C' :: "ustom command \"".toList := rfl
  have lacks : ':' ∉ 'C' :: "ustom command \"".toList := by decide +kernel
  simp only [String.toList_append,List.append_assoc,colon,front,List.cons_append] at chars
  exact notRepeated (List.cons_ne_nil _ _) lacks custom.name.toList chars

theorem summaryMessage {ex : Executor} {c : Command} {custom : CustomCommand}
    (resolved : ex.resolve c = .ok custom) (past : List Action) : ∃ outcomes,
    (ex.executeAlias c past).2.message =
      (aliasOutcome custom (stepCommands (triggerOf c) custom) outcomes).message := by
  unfold executeAlias
  simp only [resolved,Course.bindRun,Course.pureRun]
  exact ⟨_,rfl⟩

theorem refusalMessage {ex : Executor} {c : Command} {message : String}
    (refused : ex.resolve c = .error message) (past : List Action) :
    (ex.executeAlias c past).2.message = message := by
  unfold executeAlias
  simp only [refused,Course.pureRun]
  rfl

/- Each refusal is shorter than that message. -/
theorem recognisedAvailable (kept : ex.store = some store) (h : Recognised store text c i custom)
    (past : List Action) : (ex.execute c past).2.message ≠ unavailable c := by
  have name : c.displayName = custom.name := by rw [h.command]; rfl
  have isAlias : ex.execute c = ex.executeAlias c := by
    unfold execute
    rw [if_pos (by rw [h.command]; exact ⟨rfl,rfl⟩)]
  have front : "Custom command \"".length = 16 := rfl
  have back : "\" is no longer available".length = 24 := rfl
  rw [isAlias]
  change _ ≠ "Custom command \"" ++ c.displayName ++ "\" is no longer available"
  rw [name]
  cases recognisedExpansion kept h with
  | runs resolved =>
    obtain ⟨outcomes,message⟩ := summaryMessage resolved past
    rw [message]
    exact summaryAvailable custom _ outcomes
  | disabled off refused =>
    rw [refusalMessage refused]
    intro same
    have length := congrArg String.length same
    have own : (CommandError.disabled Intent.customAlias.label).message.length = 38 := rfl
    simp only [own,String.length_append] at length
    omega
  | idle stepless refused =>
    rw [refusalMessage refused]
    intro same
    have length := congrArg String.length same
    have own : " has no actions".length = 15 := rfl
    simp only [String.length_append] at length
    omega
  | nested inside intent refused =>
    rw [refusalMessage refused]
    intro same
    have length := congrArg String.length same
    have own : " cannot run another custom command".length = 34 := rfl
    simp only [String.length_append] at length
    omega

end

end Executor

end VoiceCommand
