import VoiceCommand.Proofs.Intent
import VoiceCommand.Proofs.KeyMap
import VoiceCommand.Registry

/-! Everything that can be done to a registry, one change after another. Extensions come in under names that no
intent has, they never go, and only their flag changes. -/
namespace VoiceCommand.Registry

inductive Change where
  | register (e : Entry)
  | handle (intent : Intent) (handler : Handler)
  | enable (intent : Intent) (enabled : Bool)
  | enableExtension (name : String) (enabled : Bool)
  | loadDisabled (names : List String)

/-- A registration that is refused changes nothing. -/
def change (r : Registry) : Change → Registry
  | .register e => (r.register e).getD r
  | .handle intent handler => r.setHandler intent handler
  | .enable intent enabled => r.setEnabled intent enabled
  | .enableExtension name enabled => r.setExtensionEnabled name enabled
  | .loadDisabled names => r.loadDisabled names

def changed (r : Registry) (changes : List Change) : Registry := changes.foldl change r

/-- The entry is that of an extension which may stand under the key. -/
structure Filed (key : String) (e : Entry) : Prop where
  named : key = extensionName e.name
  nonempty : key ≠ ""
  free : Intent.parse? key = none
  intent : e.intent = .customAlias
  foreign : e.isBuiltIn = false

/-- What one change does to the extensions. -/
inductive Extended (r next : Registry) : Prop
  | kept (same : next.extensions = r.extensions)
  | added {key e} (absent : r.extensions.get? key = none) (filed : Filed key e)
      (same : next.extensions = r.extensions.insert key e)
  | switched {key e} (enabled : Bool) (found : r.extensions.get? key = some e)
      (same : next.extensions = r.extensions.insert key { e with enabled := enabled })

theorem registerRefused {r : Registry} {e : Entry} : r.register e = none ↔ extensionName e.name = "" ∨
    (∃ i, Intent.parse? (extensionName e.name) = some i) ∨ ∃ other, r.extension? e.name = some other := by
  have empty : (extensionName e.name).isEmpty = true ↔ extensionName e.name = "" := String.isEmpty_iff
  simp only [register]
  split
  · rename_i taken
    simp only [Bool.or_eq_true,Option.isSome_iff_exists,empty,or_assoc] at taken
    exact ⟨fun _ => taken,fun _ => rfl⟩
  · rename_i free
    simp only [Bool.or_eq_true,Option.isSome_iff_exists,empty,or_assoc] at free
    exact ⟨nofun,fun taken => absurd taken free⟩

theorem registerAccepted {r next : Registry} {e : Entry} (accepted : r.register e = some next) :
    next = { r with extensions :=
      r.extensions.insert (extensionName e.name) { e with intent := .customAlias, isBuiltIn := false } } := by
  simp only [register] at accepted
  split at accepted
  · cases accepted
  · exact (Option.some.inj accepted).symm

theorem registerExtended {r next : Registry} {e : Entry} (accepted : r.register e = some next) :
    Extended r next := by
  have passed : ¬ r.register e = none := by simp [accepted]
  rw [registerRefused,not_or,not_or] at passed
  obtain ⟨nonempty,free,absent⟩ := passed
  rw [registerAccepted accepted]
  refine .added ?_ ?_ rfl
  · exact Option.eq_none_iff_forall_ne_some.mpr fun other there => absent ⟨other,there⟩
  · exact ⟨rfl,nonempty,Option.eq_none_iff_forall_ne_some.mpr fun i named => free ⟨i,named⟩,rfl,rfl⟩

theorem extended (r : Registry) (c : Change) : Extended r (r.change c) := by
  cases c with
  | register e =>
    cases accepted : r.register e with
    | none => exact .kept (by simp [change,accepted])
    | some next => simpa [change,accepted] using registerExtended accepted
  | handle intent handler => exact .kept rfl
  | enable intent enabled => exact .kept rfl
  | enableExtension name enabled =>
    cases found : r.extensions.get? (extensionName name) with
    | none => exact .kept (by simp [change,setExtensionEnabled,extension?,found])
    | some e => exact .switched enabled found (by simp [change,setExtensionEnabled,extension?,found])
  | loadDisabled names => exact .kept rfl

def Orderly (r : Registry) : Prop := ∀ key e, (key,e) ∈ r.extensions.entries → Filed key e

theorem orderlyNew : Orderly new := fun _ _ mem => nomatch mem

theorem orderlyChange {r : Registry} (orderly : Orderly r) (c : Change) : Orderly (r.change c) := by
  intro key e mem
  cases extended r c with
  | kept same => exact orderly key e (same ▸ mem)
  | added absent filed same =>
    rw [same] at mem
    rcases memInserted mem with new | old
    · cases new
      exact filed
    · exact orderly key e old
  | switched enabled found same =>
    rw [same] at mem
    rcases memInserted mem with new | old
    · cases new
      have filed := orderly _ _ (KeyMap.getMem found)
      exact ⟨filed.named,filed.nonempty,filed.free,filed.intent,filed.foreign⟩
    · exact orderly key e old

theorem orderlyChanged {r : Registry} (orderly : Orderly r) (changes : List Change) :
    Orderly (r.changed changes) := by
  induction changes generalizing r with
  | nil => exact orderly
  | cons c rest ih => exact ih (orderlyChange orderly c)

/- A key that is taken is not taken again, so the entry under it stays the one that it was. -/
theorem extensionStays {r : Registry} {key : String} {e : Entry} (found : r.extensions.get? key = some e)
    (c : Change) : ∃ enabled, (r.change c).extensions.get? key = some { e with enabled := enabled } := by
  cases extended r c with
  | kept same => exact ⟨e.enabled,by rw [same,found]⟩
  | @added other new absent _ same =>
    have apart : key ≠ other := fun eq => by simp [← eq,found] at absent
    exact ⟨e.enabled,by rw [same,KeyMap.getInsert,if_neg apart,found]⟩
  | @switched other old enabled there same =>
    rw [same,KeyMap.getInsert]
    split
    · rename_i eq
      rw [← eq,found] at there
      cases Option.some.inj there
      exact ⟨enabled,rfl⟩
    · exact ⟨e.enabled,found⟩

theorem extensionRemains {r : Registry} {key : String} {e : Entry} (found : r.extensions.get? key = some e)
    (changes : List Change) :
    ∃ enabled, (r.changed changes).extensions.get? key = some { e with enabled := enabled } := by
  induction changes generalizing r e with
  | nil => exact ⟨e.enabled,found⟩
  | cons c rest ih =>
    obtain ⟨_,there⟩ := extensionStays found c
    obtain ⟨enabled,later⟩ := ih there
    exact ⟨enabled,later⟩

theorem extensionListed {r : Registry} {name : String} (mem : name ∈ r.extensionNames) :
    ∃ key e, r.extensions.get? key = some e ∧ e.name = name := by
  obtain ⟨e,listed,named⟩ := List.mem_map.mp mem
  obtain ⟨held,foreign⟩ := List.mem_filter.mp listed
  rcases List.mem_append.mp held with builtIn | extension
  · obtain ⟨intent,_,same⟩ := List.mem_map.mp builtIn
    simp [← same,entry,BuiltIn.entry] at foreign
  · obtain ⟨key,there⟩ := KeyMap.memValues extension
    exact ⟨key,e,KeyMap.memGet there,named⟩

theorem extensionFound {r : Registry} (orderly : Orderly r) {name : String} (mem : name ∈ r.extensionNames) :
    ∃ e, r.extension? name = some e ∧ e.name = name ∧ Filed (extensionName name) e := by
  obtain ⟨key,e,found,named⟩ := extensionListed mem
  have filed := orderly key e (KeyMap.getMem found)
  have own : key = extensionName name := by rw [filed.named,named]
  exact ⟨e,by rw [extension?,← own,found],named,own ▸ filed⟩

end VoiceCommand.Registry
