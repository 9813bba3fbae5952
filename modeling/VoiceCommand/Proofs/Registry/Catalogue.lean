import VoiceCommand.Proofs.Registry.Changes

/-! What a registry lists, whatever was done to it: each intent once, with all that the intent says about itself, and
extensions under names that no intent answers to. -/
namespace VoiceCommand.Registry

/-- The entry says what the intent says about itself. -/
structure Own (i : Intent) (e : Entry) : Prop where
  builtIn : e.isBuiltIn = true
  intent : e.intent = i
  name : e.name = i.name
  category : e.category = i.category
  required : e.required = i.required
  optional : e.optional = i.optional
  confirmed : e.needsConfirmation = i.needsConfirmation

structure Catalogued (r : Registry) : Prop where
  builtIn : ∀ i, r.entries.filter (fun e => e.isBuiltIn && e.intent == i) = [r.entry i] ∧ Own i (r.entry i)
  filed : ∀ key e, r.extensions.get? key = some e → Filed key e
  listed : ∀ e ∈ r.entries, e.isBuiltIn = false → r.extension? e.name = some e
  apart : ∀ name i, Intent.parse? name = some i → r.extension? name = none
  placed : ∀ e ∈ r.entries, ∀ category, e ∈ r.entriesIn category ↔ category = e.category
  parted : (Category.all.flatMap r.entriesIn).Perm r.entries

theorem onlyIntent (i : Intent) : Intent.all.filter (fun j => j == i) = [i] := by
  cases i <;> rfl

theorem categoriesPart (entries : List Entry) :
    (Category.all.flatMap fun category => entries.filter fun e => e.category == category).Perm entries := by
  induction entries with
  | nil => exact List.Perm.nil
  | cons e rest ih =>
    simp only [Category.all,List.flatMap_cons,List.flatMap_nil,List.append_nil] at ih ⊢
    have onto := ih.cons e
    cases category : e.category with
    | app => simpa [List.filter_cons,category] using onto
    | window => simpa [List.filter_cons,category] using List.perm_middle.trans onto
    | system =>
      rw [← List.append_assoc] at onto ⊢
      simpa [List.filter_cons,category] using List.perm_middle.trans onto
    | workflow =>
      rw [← List.append_assoc,← List.append_assoc] at onto ⊢
      simpa [List.filter_cons,category] using List.perm_middle.trans onto

section
variable {r : Registry} (orderly : Orderly r)
include orderly

theorem extensionForeign {e : Entry} (mem : e ∈ r.extensions.values) :
    r.extension? e.name = some e ∧ e.isBuiltIn = false := by
  obtain ⟨key,there⟩ := KeyMap.memValues mem
  have filed := orderly key e there
  refine ⟨?_,filed.foreign⟩
  rw [extension?,← filed.named]
  exact KeyMap.memGet there

theorem builtInOnce (i : Intent) :
    r.entries.filter (fun e => e.isBuiltIn && e.intent == i) = [r.entry i] := by
  have foreign : r.extensions.values.filter (fun e => e.isBuiltIn && e.intent == i) = [] := by
    refine List.filter_eq_nil_iff.mpr fun e mem => ?_
    simp [(extensionForeign orderly mem).2]
  have own : (fun e : Entry => e.isBuiltIn && e.intent == i) ∘ r.entry = fun j => j == i := rfl
  rw [entries,List.filter_append,foreign,List.append_nil,List.filter_map,own,onlyIntent]
  rfl

/- A name is folded as Unicode to find an extension and as ASCII to find an intent. Whatever the second folding takes
for an intent is one to the first folding too, and no extension stands there. -/
theorem namesApart {name : String} {i : Intent} (parsed : Intent.parse? name = some i) :
    r.extension? name = none := by
  cases found : r.extension? name with
  | none => rfl
  | some e =>
    have free := (orderly _ e (KeyMap.getMem found)).free
    rw [extensionName,Intent.parseLower (Intent.parseNamed.mp parsed)] at free
    cases free

theorem orderlyCatalogued : Catalogued r := by
  refine ⟨fun i => ⟨builtInOnce orderly i,⟨rfl,rfl,rfl,rfl,rfl,rfl,rfl⟩⟩,?_,?_,?_,?_,?_⟩
  · exact fun key e found => orderly key e (KeyMap.getMem found)
  · intro e mem foreign
    rcases List.mem_append.mp mem with builtIn | extension
    · obtain ⟨i,_,same⟩ := List.mem_map.mp builtIn
      rw [← same] at foreign
      cases foreign
    · exact (extensionForeign orderly extension).1
  · exact fun name i => namesApart orderly
  · intro e mem category
    simp only [entriesIn,List.mem_filter,mem,true_and,beq_iff_eq]
    exact eq_comm
  · exact categoriesPart r.entries

end

/-- Whatever is done to a new registry, it lists each intent once and as the intent is, every extension stands under
the folded form of its name and says that it is one, and no name stands for an intent and for an extension. A
registration is refused because of its name alone and then changes nothing; one that is accepted adds its entry, as
an extension whatever it says itself, and leaves all others as they are. -/
theorem alwaysCatalogued (changes : List Change) :
    let r := new.changed changes
    Catalogued r ∧ ∀ e,
      (r.register e = none ↔ extensionName e.name = "" ∨
        (∃ i, Intent.parse? (extensionName e.name) = some i) ∨ ∃ other, r.extension? e.name = some other) ∧
      (r.register e = none → r.change (.register e) = r) ∧
      ∀ next, r.register e = some next → r.change (.register e) = next ∧ next.builtIn = r.builtIn ∧
        ∀ name, next.extension? name = if extensionName name = extensionName e.name then
          some { e with intent := .customAlias, isBuiltIn := false } else r.extension? name := by
  intro r
  refine ⟨orderlyCatalogued (orderlyChanged orderlyNew changes),fun e => ⟨registerRefused,?_,?_⟩⟩
  · intro refused
    simp only [change,refused,Option.getD_none]
  · intro next accepted
    refine ⟨by simp only [change,accepted,Option.getD_some],?_,fun name => ?_⟩
    · rw [registerAccepted accepted]
    · rw [registerAccepted accepted]
      exact KeyMap.getInsert ..

/- An entry that claims to be the built-in one of an intent, under another name and under the name of an intent. -/
theorem forgedEntries :
    let forged : Entry := ⟨.lockScreen," Lights ",true,true,.system,[],[],false,none⟩
    let shadow := { forged with name := " LockScreen" }
    (∃ next, new.register forged = some next ∧
      next.extension? "LIGHTS" = some { forged with intent := .customAlias, isBuiltIn := false }) ∧
      new.register shadow = none ∧ new.change (.register shadow) = new := by
  intro forged shadow
  obtain ⟨_,registered⟩ := alwaysCatalogued []
  obtain ⟨refused,_,accepted⟩ := registered forged
  obtain ⟨taken,unchanged,_⟩ := registered shadow
  have named : new.register shadow = none := taken.mpr (.inr (.inl ⟨.lockScreen,by decide +kernel⟩))
  refine ⟨?_,named,unchanged named⟩
  cases result : new.register forged with
  | none =>
    rcases refused.mp result with empty | ⟨i,intent⟩ | ⟨other,there⟩
    · exact absurd empty (by decide +kernel)
    · have free : Intent.parse? (extensionName forged.name) = none := by decide +kernel
      rw [free] at intent
      cases intent
    · cases there
  | some next =>
    obtain ⟨_,_,found⟩ := accepted next result
    refine ⟨next,rfl,?_⟩
    rw [found,if_pos (by decide +kernel)]

end VoiceCommand.Registry
