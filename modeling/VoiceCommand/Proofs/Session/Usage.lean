import VoiceCommand.Proofs.Executor.Expansion
import VoiceCommand.Proofs.Parser.Alias
import VoiceCommand.Proofs.Session.State

/-! Uses of custom commands. The one that runs is found by its trigger phrase and its use is noted by its name, so an
earlier one of the same name is credited in its place. -/
namespace VoiceCommand
open VoiceCommand.Parser (FirstAt firstFound isAsked)

namespace Store

theorem modifiedFirst {store : Store} {p : CustomCommand → Bool} (f : CustomCommand → CustomCommand) {i : Nat}
    {c : CustomCommand} (h : FirstAt store p i c) : store.modifyFirst p f = store.set i (f c) := by
  induction store generalizing i with
  | nil => cases h.here
  | cons d rest ih =>
    cases i with
    | zero =>
      cases Option.some.inj h.here
      rw [modifyFirst,if_pos h.holds]
      rfl
    | succ i =>
      have other : p d = false := h.earlier 0 d (Nat.succ_pos i) rfl
      have later : FirstAt rest p i c :=
        ⟨h.here,h.holds,fun j e less found => h.earlier (j + 1) e (Nat.succ_lt_succ less) found⟩
      rw [modifyFirst,if_neg (by simp [other]),ih later]
      rfl

/-- Of the custom commands, the one at this place was used once, and nothing else has changed. -/
structure UsedOnce (before after : Store) (i : Nat) : Prop where
  here : ∃ c d, before[i]? = some c ∧ after[i]? = some d ∧
    d = { c with useCount := d.useCount, lastUsedAt := d.lastUsedAt } ∧ d.lastUsedAt.isSome = true ∧
    (c.useCount.toNat + 1 < UInt64.size → d.useCount.toNat = c.useCount.toNat + 1)
  others : ∀ j, j ≠ i → after[j]? = before[j]?

theorem countGrows {c : CustomCommand} (below : c.useCount.toNat + 1 < UInt64.size) (time : Timestamp) :
    (c.recordUse time).useCount.toNat = c.useCount.toNat + 1 := by
  rw [CustomCommand.recordUse,UInt64.toNat_add]
  exact Nat.mod_eq_of_lt below

theorem usedDiffers (c : CustomCommand) (time : Timestamp) : c.recordUse time ≠ c := by
  intro same
  have count : c.useCount + 1 = c.useCount := congrArg CustomCommand.useCount same
  have value := congrArg UInt64.toNat count
  have bound := c.useCount.toNat_lt
  rw [UInt64.toNat_add] at value
  simp only [UInt64.reduceToNat] at value
  omega

section
variable {store : Store} {name : String} {i : Nat} {c : CustomCommand}
  (h : FirstAt store (fun d => d.name == name) i c)
include h

theorem usedFirst (time : Timestamp) : UsedOnce store (store.recordUse name time) i := by
  have inside := (List.getElem?_eq_some_iff.mp h.here).1
  rw [recordUse,modifiedFirst (·.recordUse time) h]
  refine ⟨⟨c,c.recordUse time,h.here,List.getElem?_set_self inside,rfl,rfl,fun below => countGrows below time⟩,?_⟩
  intro j other
  exact List.getElem?_set_ne other.symm

/- The place that is credited has changed, and one alone may. -/
theorem usedOnly (time : Timestamp) {j : Nat} (used : UsedOnce store (store.recordUse name time) j) : j = i := by
  have inside := (List.getElem?_eq_some_iff.mp h.here).1
  refine Decidable.byContradiction fun other => usedDiffers c time ?_
  have kept := used.others i (Ne.symm other)
  rw [recordUse,modifiedFirst (·.recordUse time) h,List.getElem?_set_self inside,h.here] at kept
  exact Option.some.inj kept

end

section
variable {store : Store} {i : Nat} {c : CustomCommand} (here : store[i]? = some c) (time : Timestamp)
include here

theorem namesakeUsed : ∃ j namesake, j ≤ i ∧ FirstAt store (fun d => d.name == c.name) j namesake ∧
    UsedOnce store (store.recordUse c.name time) j := by
  have present : (store.find? fun d => d.name == c.name).isSome = true :=
    List.find?_isSome.mpr ⟨c,List.mem_of_getElem? here,beq_self_eq_true _⟩
  obtain ⟨namesake,found⟩ := Option.isSome_iff_exists.mp present
  obtain ⟨j,first⟩ := firstFound found
  refine ⟨j,namesake,Nat.le_of_not_lt fun less => ?_,first,usedFirst first time⟩
  have apart := first.earlier i c less here
  simp at apart

theorem usedUnlessNamesake : UsedOnce store (store.recordUse c.name time) i ↔
    ∀ k other, k < i → store[k]? = some other → other.name ≠ c.name := by
  constructor
  · intro used k other less found
    obtain ⟨j,namesake,_,first,_⟩ := namesakeUsed here time
    rw [usedOnly first time used] at less
    simpa using first.earlier k other less found
  · intro apart
    refine usedFirst ⟨here,beq_self_eq_true _,fun k other less found => ?_⟩ time
    simpa using apart k other less found

end

end Store

namespace Session
open Executor (aliasRun resolvedFound resolvedSource resolvedSteps stepsDo triggerOf)
open Store (UsedOnce namesakeUsed usedUnlessNamesake)

theorem storeUncredited {actions : List Action} (uncredited : ∀ a ∈ actions, ∀ name, a ≠ .credit name)
    (s : Session) : (s.after actions).store = s.store := by
  refine afterKeeps Session.store (fun _ a mem => ?_) s
  cases a with
  | credit name => exact absurd rfl (uncredited _ mem name)
  | _ => rfl

/- The credit comes first, and the steps give none. -/
theorem aliasCredits {s : Session} {c : Command} {custom : CustomCommand}
    (resolved : s.executor.resolve c = .ok custom) : (s.follow (s.executor.executeAlias c)).1.store =
      s.store.recordUse custom.name (s.epoch.later s.clock) := by
  have plain := (resolvedSteps resolved).2
  have run := aliasRun plain resolved s.past
  have uncredited := fun a mem => (stepsDo plain s.executor (triggerOf c) (s.past ++ [.credit custom.name]) a mem).1
  change (s.after (s.executor.executeAlias c s.past).1).store = _
  rw [run,afterCons,storeUncredited uncredited]
  rfl

theorem refusedFor {s : Session} {c : Command}
    (reasons : s.registry.isEnabled .customAlias = false ∨ s.store.triggered? (triggerOf c) = none ∨
      ∃ custom, s.store.triggered? (triggerOf c) = some custom ∧
        (custom.steps = [] ∨ ∃ step ∈ custom.steps, step.intent = .customAlias)) :
    ∃ message, s.executor.resolve c = .error message := by
  cases resolved : s.executor.resolve c with
  | error message => exact ⟨message,rfl⟩
  | ok custom =>
    obtain ⟨store,kept,found,runnable⟩ := resolvedSource resolved
    obtain ⟨stepped,plain⟩ := resolvedSteps resolved
    cases Option.some.inj kept
    rcases reasons with disabled | unfound | ⟨other,same,reason⟩
    · have allowed : s.registry.isEnabled .customAlias = true := runnable.allowed
      rw [disabled] at allowed
      cases allowed
    · rw [unfound] at found
      cases found
    · cases Option.some.inj (same.symm.trans found)
      rcases reason with idle | ⟨step,inside,nested⟩
      · exact absurd idle stepped
      · exact absurd nested (plain step inside)

theorem refusedStill {s : Session} {c : Command} {message : String}
    (refused : s.executor.resolve c = .error message) : (s.follow (s.executor.executeAlias c)).1 = s := by
  change s.after (s.executor.executeAlias c s.past).1 = s
  rw [Executor.executeAlias,refused]
  rfl

/-- When the steps of a custom command are run, one use is noted for the first custom command of the same name, and
nothing else changes in the store; so it is noted for the one that runs if and only if no earlier one has its name.
If the command is refused before its first step, nothing changes at all. -/
theorem creditsFirstNamesake (s : Session) (c : Command) :
    let t := (s.follow (s.executor.executeAlias c)).1
    (∀ i custom, s.registry.isEnabled .customAlias = true → FirstAt s.store (isAsked (triggerOf c)) i custom →
      custom.steps ≠ [] → (∀ step ∈ custom.steps, step.intent ≠ .customAlias) →
        (∃ j namesake, j ≤ i ∧ FirstAt s.store (fun d => d.name == custom.name) j namesake ∧
          UsedOnce s.store t.store j) ∧
        (UsedOnce s.store t.store i ↔
          ∀ k other, k < i → s.store[k]? = some other → other.name ≠ custom.name)) ∧
    (s.registry.isEnabled .customAlias = false ∨ s.store.triggered? (triggerOf c) = none ∨
      (∃ custom, s.store.triggered? (triggerOf c) = some custom ∧
        (custom.steps = [] ∨ ∃ step ∈ custom.steps, step.intent = .customAlias)) → t = s) := by
  intro t
  constructor
  · intro i custom enabled first stepped plain
    have resolved : s.executor.resolve c = .ok custom :=
      (resolvedFound plain rfl (Parser.foundFirst first) stepped).trans (if_pos enabled)
    have credited : t.store = s.store.recordUse custom.name (s.epoch.later s.clock) := aliasCredits resolved
    rw [credited]
    exact ⟨namesakeUsed first.here _,usedUnlessNamesake first.here _⟩
  · intro reasons
    obtain ⟨message,refused⟩ := refusedFor reasons
    exact refusedStill refused

/- Two custom commands share a trigger phrase, and the first is disabled; then custom commands as such are. -/
theorem leavingUsed :
    let bedtime := { CustomCommand.new "Bedtime" "leaving now" with steps := [⟨.volumeMute,.empty⟩] }
    let idle := { CustomCommand.new "Leaving" "leaving now" with steps := [⟨.lockScreen,.empty⟩], enabled := false }
    let s := { desk with store := [idle,bedtime] }
    let c := Parser.aliasCommand "Leaving now!" bedtime
    let t := (s.follow (s.executor.executeAlias c)).1
    let off := s.call (.setEnabled .customAlias false)
    UsedOnce s.store t.store 1 ∧ t.store.map (fun custom => custom.useCount) = [0,1] ∧
      (off.follow (off.executor.executeAlias c)).1 = off := by
  intro bedtime idle s c t off
  have asked : FirstAt s.store (isAsked (Executor.triggerOf c)) 1 bedtime := by
    refine ⟨rfl,by decide +kernel,fun j other less found => ?_⟩
    have first : j = 0 := by omega
    rw [first] at found
    rw [← Option.some.inj found]
    rfl
  obtain ⟨_,credited⟩ := (creditsFirstNamesake s c).1 1 bedtime rfl asked (by decide) (by decide)
  refine ⟨credited.mpr fun k other less found => ?_,by decide +kernel,(creditsFirstNamesake off c).2 (.inl rfl)⟩
  have first : k = 0 := by omega
  rw [first] at found
  rw [← Option.some.inj found]
  decide +kernel

/- The second of two custom commands of one name runs, and the first is credited. -/
theorem namesakeCredited :
    let lights (trigger : String) := { CustomCommand.new "Lights" trigger with steps := [⟨.volumeMute,.empty⟩] }
    let s := { desk with store := [lights "lights on",lights "lights off"] }
    let c := Parser.aliasCommand "lights off" (lights "lights off")
    let t := (s.follow (s.executor.executeAlias c)).1
    s.store.triggered? (Executor.triggerOf c) = s.store[1]? ∧
      (s.executor.executeAlias c s.past).2.success = true ∧
      t.store.map (fun custom => (custom.trigger,custom.useCount,custom.lastUsedAt.isSome)) =
        [("lights on",1,true),("lights off",0,false)] ∧
      ¬ UsedOnce s.store t.store 1 := by
  intro lights s c t
  refine ⟨by decide +kernel,by decide +kernel,by decide +kernel,fun used => ?_⟩
  have kept : t.store[0]? = s.store[0]? := used.others 0 (by decide)
  have changed : t.store[0]? ≠ s.store[0]? := by decide +kernel
  exact changed kept

end Session

end VoiceCommand
