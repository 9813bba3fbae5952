import VoiceCommand.Proofs.Intent
import VoiceCommand.Registry

/-! Flags as a list of names. The names of what a registry has disabled, loaded into another one, give it the same
flags. -/
namespace VoiceCommand.Registry

theorem disabledMem (r : Registry) (name : String) :
    name ∈ r.disabledNames ↔ ∃ i, r.isEnabled i = false ∧ i.name = name := by
  simp [disabledNames,sortNames,Intent.mem_all]

theorem nameParsed (i : Intent) : Intent.parse? i.name = some i := by
  have all : ∀ i ∈ Intent.all, Intent.parse? i.name = some i := by decide +kernel
  exact all i (Intent.mem_all i)

theorem loadedDisabled (r : Registry) (names : List String) (i : Intent) :
    (r.loadDisabled names).isEnabled i = false ↔ ∃ name ∈ names, Intent.parse? name = some i := by
  change (!(names.filterMap Intent.parse?).contains i) = false ↔ _
  rw [Bool.not_eq_false',List.contains_iff_mem,List.mem_filterMap]

theorem loadedFlags (r q : Registry) : (q.loadDisabled r.disabledNames).isEnabled = r.isEnabled := by
  funext i
  rw [← Bool.not_inj_iff,Bool.eq_iff_iff,Bool.not_eq_true',Bool.not_eq_true',loadedDisabled]
  constructor
  · rintro ⟨name,mem,parsed⟩
    obtain ⟨j,off,rfl⟩ := (disabledMem r name).mp mem
    rw [nameParsed] at parsed
    exact Option.some.inj parsed ▸ off
  · exact fun off => ⟨i.name,(disabledMem r _).mpr ⟨i,off,rfl⟩,nameParsed i⟩

theorem sameDisabled {r q : Registry} (flags : r.isEnabled = q.isEnabled) : r.disabledNames = q.disabledNames := by
  simp only [disabledNames,flags]

theorem setFlag (r : Registry) (i : Intent) (enabled : Bool) (j : Intent) :
    (r.setEnabled i enabled).isEnabled j = if j = i then enabled else r.isEnabled j := by
  simp only [isEnabled,setEnabled,modify]
  split <;> rfl

theorem disabledOnce (r : Registry) : r.disabledNames.Nodup := by
  have apart : (Intent.all.map Intent.name).Nodup := by decide +kernel
  have part : (Intent.all.filter fun i => !r.isEnabled i).Sublist Intent.all := List.filter_sublist
  have sorted := List.mergeSort_perm ((Intent.all.filter fun i => !r.isEnabled i).map Intent.name) fun a b => a ≤ b
  exact sorted.nodup_iff.mpr (List.Nodup.sublist (part.map Intent.name) apart)

/- The sort only puts no name behind a greater one; no two are equal because no two intents share a name. -/
theorem disabledAscending (r : Registry) : r.disabledNames.Pairwise (· < ·) := by
  have sorted : r.disabledNames.Pairwise fun a b => decide (a ≤ b) = true := by
    refine List.pairwise_mergeSort (fun a b c first second => ?_) (fun a b => ?_) _
    · simp only [decide_eq_true_eq] at first second ⊢
      exact String.le_trans first second
    · simpa using String.le_total a b
  refine (sorted.and (disabledOnce r)).imp fun {a b} ⟨before,other⟩ => ?_
  refine Decidable.byContradiction fun notLess => other ?_
  exact String.le_antisymm (of_decide_eq_true before) (String.not_lt.mp notLess)

/-- Loading a list of names disables the intents that it names in any spelling and no others, whatever was disabled
before, and changes nothing else. The names of what is disabled stand in strictly ascending order, and loaded into
any registry they disable the same there and are read back as they were. -/
theorem snapshotFaithful (r q : Registry) (names : List String) :
    let loaded := r.loadDisabled names
    let copy := q.loadDisabled r.disabledNames
    (∀ i, loaded.isEnabled i = false ↔ ∃ name ∈ names, Intent.parse? name = some i) ∧
      (∀ i, loaded.entry i = { r.entry i with enabled := loaded.isEnabled i }) ∧
      loaded.extensions = r.extensions ∧
      (∀ name, name ∈ r.disabledNames ↔ ∃ i, r.isEnabled i = false ∧ i.name = name) ∧
      r.disabledNames.Pairwise (· < ·) ∧ r.disabledNames.Nodup ∧
      (∀ i, copy.isEnabled i = r.isEnabled i) ∧ copy.disabledNames = r.disabledNames := by
  intro loaded copy
  have flags : copy.isEnabled = r.isEnabled := loadedFlags r q
  refine ⟨loadedDisabled r names,fun i => rfl,rfl,disabledMem r,disabledAscending r,disabledOnce r,?_,?_⟩
  · exact fun i => congrFun flags i
  · exact sameDisabled flags

end VoiceCommand.Registry
