import VoiceCommand.Proofs.Executor.Messages
import VoiceCommand.Proofs.Parser.Classified
import VoiceCommand.Proofs.Parser.Values
import VoiceCommand.Proofs.Template

/-! Display names of commands. What the table recognises is named by the template of its row, and every other
command by the template of the first row for its intent, unless an open brace in the result makes it look unfilled.
The two names are the same as long as no value brings such a brace with it. -/
namespace VoiceCommand

namespace Template

theorem rowSlots {row : PatternRow} (listed : row ∈ PatternRow.all) : slots row.template = row.keys :=
  shapedSlots (rowShaped listed)

theorem labelClosed (intent : Intent) : '\x7b' ∉ intent.label.toList := by
  cases intent <;> decide

theorem displayNameRendered {intent : Intent} {row : PatternRow} (first : PatternRow.ofIntent? intent = some row)
    (entities : Entities) : displayName intent entities = render row.template entities ↔
      '\x7b' ∉ (render row.template entities).toList := by
  simp only [displayName,first,List.contains_iff_mem]
  split
  · rename_i opened
    refine ⟨fun same => ?_,fun closed => absurd opened closed⟩
    rw [← same]
    exact labelClosed intent
  · rename_i closed
    exact ⟨fun _ => closed,fun _ => rfl⟩

theorem rowFirst {row : PatternRow} (listed : row ∈ PatternRow.all) :
    PatternRow.ofIntent? row.intent = some row := by
  have all : ∀ row ∈ PatternRow.all, PatternRow.ofIntent? row.intent = some row := by decide +kernel
  exact all row listed

/- The letters of a template have no braces, so only a value can bring one in. -/
theorem displayNameFilled {intent : Intent} {row : PatternRow} (first : PatternRow.ofIntent? intent = some row)
    {entities : Entities} (present : ∀ key ∈ slots row.template, (entities.get? key).isSome = true) :
    displayName intent entities = render row.template entities ↔
      ∀ key ∈ slots row.template, ∀ value, entities.get? key = some value →
        '\x7b' ∉ (render value (later entities key)).toList := by
  have shaped := rowShaped (List.mem_of_find?_eq_some first)
  rw [displayNameRendered first,rendered shaped,filledClosed shaped,← shapedSlots shaped]
  refine forall₂_congr fun key mem => ?_
  obtain ⟨value,found⟩ := Option.isSome_iff_exists.mp (present key mem)
  simp [found]

/- A template begins with a letter, which no placeholder takes away. -/
theorem renderVisible {row : PatternRow} (listed : row ∈ PatternRow.all) (entities : Entities) :
    Text.allBlank (render row.template entities) = false := by
  have all : ∀ row ∈ PatternRow.all,
      row.template.toList.head?.any (fun c => c != '\x7b' && !Text.isBlank c) = true := by decide +kernel
  have begins := all row listed
  cases chars : row.template.toList with
  | nil => simp [chars] at begins
  | cons c rest =>
    simp only [chars,List.head?_cons,Option.any_some,Bool.and_eq_true,bne_iff_ne,Bool.not_eq_true'] at begins
    have split : row.template = String.ofList ([c] ++ ((String.ofList rest).toList ++ [])) := by
      rw [← String.toList_inj]
      simp [chars]
    have first : '\x7b' ∉ [c] := by simpa using begins.1.symm
    have within := visitWithin first List.not_mem_nil entities.entries (String.ofList rest)
    rw [← split] at within
    rw [render,← visited,within]
    simp [Text.allBlank,begins.2]

theorem displayNameVisible (intent : Intent) (entities : Entities) :
    Text.allBlank (displayName intent entities) = false := by
  have label : Text.allBlank intent.label = false := by cases intent <;> decide
  unfold displayName
  split
  · rename_i row first
    simp only
    split
    · exact label
    · exact renderVisible (List.mem_of_find?_eq_some first) entities
  · exact label

end Template

namespace Parser

/- What was captured has the key of the slot alone, and nothing is visited behind it. -/
theorem laterCaptured {template : String} {keys : List String} (h : Template.Shaped template keys)
    {entities : Entities} (own : entities.keys = keys) {key : String} (mem : key ∈ keys) (value : String) :
    Template.render value (Template.later entities key) = value := by
  have alone : (Template.later entities key).entries = [] := by
    refine List.filter_eq_nil_iff.mpr fun e held => ?_
    have listed : e.1 ∈ keys := own ▸ List.mem_map_of_mem held
    cases h with
    | plain closed => cases mem
    | single whole before behind bare =>
      rw [List.mem_singleton] at mem listed
      simp [mem,listed]
  rw [Template.render,alone]
  rfl

/-- The name that the table gives a command is that of its intent and values, if and only if none of its values has an
open brace. In general an intent with a row is named by the template of that row, with all places filled, if and only
if no value has an open brace once it stands there. -/
theorem namedAlike (least : Binary64) (text : String) (intent : Intent) (entities : Entities) :
    (∀ c, matchPattern? least text = some c → ∃ row, PatternRow.ofIntent? c.intent = some row ∧
      c.displayName = Template.render row.template c.entities ∧
      (Template.displayName c.intent c.entities = c.displayName ↔
        ∀ key value, (key,value) ∈ c.entities.entries → '\x7b' ∉ value.toList)) ∧
    ∀ row, PatternRow.ofIntent? intent = some row →
      (∀ key ∈ Template.slots row.template, (entities.get? key).isSome = true) →
      (Template.displayName intent entities = Template.render row.template entities ↔
        ∀ key ∈ Template.slots row.template, ∀ value, entities.get? key = some value →
          '\x7b' ∉ (Template.render value (Template.later entities key)).toList) := by
  refine ⟨fun c found => ?_,fun row first => Template.displayNameFilled first⟩
  obtain ⟨f,won,same⟩ := patternWinning found
  have complete : Complete text f.row c := same ▸ fitComplete won
  have name : c.displayName = Template.render f.row.template c.entities := same ▸ rfl
  have first : PatternRow.ofIntent? c.intent = some f.row := complete.intent ▸ Template.rowFirst won.listed
  have held (key : String) (mem : key ∈ f.row.keys) : ∃ value, (key,value) ∈ c.entities.entries := by
    rw [← complete.keys] at mem
    obtain ⟨⟨_,value⟩,there,rfl⟩ := List.mem_map.mp mem
    exact ⟨value,there⟩
  have shaped := Template.rowShaped won.listed
  have slots := Template.rowSlots won.listed
  have present : ∀ key ∈ Template.slots f.row.template, (c.entities.get? key).isSome = true := by
    intro key mem
    obtain ⟨value,there⟩ := held key (slots ▸ mem)
    simp [KeyMap.memGet there]
  refine ⟨f.row,first,name,?_⟩
  rw [name,Template.displayNameFilled first present,slots]
  constructor
  · intro closed key value there
    have listed : key ∈ f.row.keys := complete.keys ▸ List.mem_map_of_mem there
    rw [← laterCaptured shaped complete.keys listed value]
    exact closed key listed value (KeyMap.memGet there)
  · intro closed key mem value there
    rw [laterCaptured shaped complete.keys mem value]
    exact closed key value (KeyMap.getMem there)

/- The second map has a value that no slot asks for, with a brace in it. -/
theorem safariNamed :
    let level := KeyMap.ofList [("level","30"),("unit","\x7bpercent")]
    (∃ c, matchPattern? .zero "open Safari" = some c ∧ c.displayName = "Open Safari" ∧
      Template.displayName c.intent c.entities = "Open Safari") ∧
    Template.displayName .volumeSet level = "Set volume to 30%" := by
  intro level
  obtain ⟨recognised,general⟩ := namedAlike .zero "open Safari" .volumeSet level
  constructor
  · have opening : ((matchPattern? .zero "open Safari").map fun c => (c.displayName,c.entities.entries)) =
        some ("Open Safari",[("appName","Safari")]) := by decide +kernel
    obtain ⟨c,found,shape⟩ := Option.map_eq_some_iff.mp opening
    obtain ⟨name,entries⟩ := Prod.mk.inj shape
    obtain ⟨_,_,_,same⟩ := recognised c found
    refine ⟨c,found,name,(same.mpr fun key value mem => ?_).trans name⟩
    rw [entries,List.mem_singleton] at mem
    cases mem
    decide
  · have setting : ∃ row, PatternRow.ofIntent? .volumeSet = some row ∧ Template.slots row.template = ["level"] ∧
        Template.render row.template level = "Set volume to 30%" := by
      refine ⟨_,rfl,?_⟩
      decide +kernel
    obtain ⟨row,first,slot,name⟩ := setting
    have there : level.get? "level" = some "30" := by decide +kernel
    rw [← name]
    refine (general row first (by simp [slot,there])).mpr fun key mem value found => ?_
    rw [slot,List.mem_singleton] at mem
    rw [mem,there,Option.some.injEq] at found
    rw [mem,← found]
    decide +kernel

/- An open brace in a spoken name is taken for a place that was not filled. -/
theorem braceMislabelled :
    (matchPattern? .zero "open \x7bx").map (fun c =>
      (c.displayName,c.entities.entries,Template.displayName c.intent c.entities)) =
        some ("Open \x7bx",[("appName","\x7bx")],"Open App") := by
  decide +kernel

theorem trimVisible {s : String} (filled : Text.trim s ≠ "") : Text.allBlank (Text.trim s) = false := by
  have first := Text.stripFirst Text.isBlank s.toList
  have nonempty : Text.strip Text.isBlank s.toList ≠ [] := fun empty => filled (by rw [Text.trim,empty])
  obtain ⟨c,rest,begins⟩ := List.exists_cons_of_ne_nil nonempty
  rw [begins] at first
  simp [Text.allBlank,Text.trim,begins,show Text.isBlank c = false from first]

theorem patternVisible {least text c} (h : matchPattern? least text = some c) :
    Text.allBlank c.displayName = false := by
  obtain ⟨f,won,same⟩ := patternWinning h
  rw [same]
  exact Template.renderVisible won.listed f.entities

section
variable {extensions : List String} (named : "" ∉ extensions)
include named

theorem classificationVisible {text answer confidence c}
    (h : ofClassification? extensions text answer confidence = some c) : Text.allBlank c.displayName = false := by
  simp only [ofClassification?] at h
  split at h
  · rename_i known
    rw [← Option.some.inj h]
    refine trimVisible fun empty => named ?_
    rw [empty] at known
    exact List.contains_iff_mem.mp known
  · split at h
    · cases h
    · cases h
    · cases h
    · rw [← Option.some.inj h]
      exact Template.displayNameVisible _ _

theorem semanticVisible {s : Semantic} {text past c} (h : (s.command? extensions text past).2 = some c) :
    Text.allBlank c.displayName = false := by
  obtain ⟨_,_,_,_,_,made⟩ := semanticReply h
  exact classificationVisible named made

end

theorem aliasPresentable {store text c} (h : matchAlias? store text = some c) : Presentable c := by
  obtain ⟨custom,_,same⟩ := Option.map_eq_some_iff.mp h
  rw [← same]
  exact .inr ⟨rfl,rfl⟩

section
variable {parser : Parser} (named : "" ∉ parser.extensions)
include named

theorem parsePresentable {store text past c} (h : (parser.parse store text past).2 = .ok c) : Presentable c := by
  rcases parseOrigin h with isAlias | fit | ⟨s,_,answer⟩
  · exact aliasPresentable isAlias
  · exact .inl (patternVisible fit)
  · exact .inl (semanticVisible named answer)

theorem chainPresentable {store text past} : ∀ c ∈ (parser.parseChain store text past).2, Presentable c := by
  intro c mem
  rcases chainOrigin mem with ⟨isAlias,_⟩ | ⟨segment,fit⟩ | ⟨s,_,answer⟩
  · exact aliasPresentable isAlias
  · exact .inl (patternVisible fit)
  · exact .inl (semanticVisible named answer)

end

end Parser

end VoiceCommand
