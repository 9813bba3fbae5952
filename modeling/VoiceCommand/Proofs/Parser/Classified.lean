import VoiceCommand.Proofs.Binary64.Rounding
import VoiceCommand.Proofs.Course
import VoiceCommand.Proofs.Registry.Changes
import VoiceCommand.Session.Basic

/-! What a classifier can bring about. Whatever it answers, the command is one that it may choose: a built-in one
with clean values, or a reference to an extension that the registry holds and will go on holding. -/
namespace VoiceCommand

namespace Parser

theorem elapsedClassify (text : String) (delay : Nat) :
    elapsed (.classify text :: Course.waiting delay) = delay := by
  unfold Course.waiting
  split <;> simp_all [elapsed]

theorem semanticReply {s : Semantic} {extensions text past c}
    (h : (s.command? extensions text past).2 = some c) :
    ∃ delay answer, s.classifier.respond past text = (delay,.ok answer) ∧ delay ≤ s.timeout ∧
      answer.confidence.confidence.lt s.minConfidence = false ∧
      ofClassification? extensions text answer answer.confidence.confidence = some c := by
  rcases told : s.classifier.respond past text with ⟨delay,reply⟩
  simp only [Semantic.command?,Course.bindRun,Course.within,Course.classifyRun,told,elapsedClassify] at h
  by_cases inTime : delay ≤ s.timeout
  · simp only [inTime,if_true] at h
    cases reply with
    | error cause => simp at h
    | ok answer =>
      refine ⟨delay,answer,rfl,inTime,?_⟩
      simp only at h
      split at h
      · simp at h
      · rename_i sure
        exact ⟨Bool.eq_false_iff.mpr sure,h⟩
  · simp [inTime] at h

/-- A command for an intent that a classifier may choose, with clean values under the keys of the intent only. -/
structure Chosen (answer : Classification) (c : Command) : Prop where
  named : Intent.parse? answer.intent = some c.intent
  single : c.intent ≠ .chainedCommand
  builtIn : c.intent ≠ .customAlias
  declared : ∀ key value, (key,value) ∈ c.entities.entries →
    (key ∈ c.intent.required ∨ key ∈ c.intent.optional) ∧ Text.trim value = value ∧ value ≠ ""

/-- A command for the extension that the answer names; the registry leads to that extension, now and later. -/
structure Referred (r : Registry) (answer : Classification) (c : Command) : Prop where
  intent : c.intent = .customAlias
  alone : c.entities.entries = [(extensionKey,Text.trim answer.intent)]
  leads : ∃ e, r.entryFor? c = some e ∧ e.isBuiltIn = false ∧ e.name ∈ r.extensionNames ∧
    Registry.extensionName e.name = Registry.extensionName answer.intent ∧
    ∀ changes, ∃ enabled, (r.changed changes).entryFor? c = some { e with enabled := enabled }

theorem declaredClean (intent : Intent) (entities : Entities) {key value : String}
    (mem : (key,value) ∈ (declaredEntities intent entities).entries) :
    (key ∈ intent.required ∨ key ∈ intent.optional) ∧ Text.trim value = value ∧ value ≠ "" := by
  obtain ⟨⟨_,raw⟩,held,same⟩ := List.mem_map.mp mem
  cases same
  obtain ⟨_,kept⟩ := List.mem_filter.mp held
  simp only [Bool.and_eq_true,Bool.or_eq_true,Bool.not_eq_true',List.contains_iff_mem] at kept
  exact ⟨kept.2,Text.trimTrim raw,Text.trimNotBlank kept.1⟩

theorem builtInChosen {extensions text answer confidence c}
    (other : extensions.contains (Registry.extensionName answer.intent) = false)
    (h : ofClassification? extensions text answer confidence = some c) : Chosen answer c := by
  simp only [ofClassification?,Intent.parseTrim] at h
  rw [if_neg (by simpa [Registry.extensionName] using other)] at h
  split at h
  · cases h
  · cases h
  · cases h
  · rename_i intent single builtIn named
    rw [← Option.some.inj h]
    exact ⟨named,single,builtIn,fun _ _ mem => declaredClean intent answer.entities mem⟩

theorem extensionEntry {c : Command} {name : String} (intent : c.intent = .customAlias)
    (alone : c.entities.entries = [(extensionKey,name)]) (r : Registry) :
    r.entryFor? c = r.extension? name := by
  have meant : c.extension? = some name := by
    simp [Command.extension?,intent,Command.entity?,KeyMap.get?,alone]
  simp only [Registry.entryFor?,meant]

/- The entity is the name as it was answered, trimmed; the key under which it is looked up is that of the name
as it was registered. -/
theorem extensionReferred {r : Registry} (orderly : r.Orderly) {text answer confidence c name}
    (listed : name ∈ r.extensionNames)
    (same : Registry.extensionName name = Registry.extensionName answer.intent)
    (h : ofClassification? (r.extensionNames.map Registry.extensionName) text answer confidence = some c) :
    Referred r answer c := by
  have known : (r.extensionNames.map Registry.extensionName).contains (Text.lower (Text.trim answer.intent)) =
      true := List.contains_iff_mem.mpr (List.mem_map.mpr ⟨name,listed,same⟩)
  simp only [ofClassification?,known,if_true] at h
  have intent : c.intent = .customAlias := by
    rw [← Option.some.inj h]
    rfl
  have alone : c.entities.entries = [(extensionKey,Text.trim answer.intent)] := by
    rw [← Option.some.inj h]
    exact KeyMap.single _ _
  have key : Registry.extensionName (Text.trim answer.intent) = Registry.extensionName name := by
    rw [same,Registry.extensionName,Text.trimTrim]
    rfl
  obtain ⟨e,found,named,filed⟩ := Registry.extensionFound orderly listed
  refine ⟨intent,alone,e,?_,filed.foreign,named ▸ listed,by rw [named,same],fun changes => ?_⟩
  · rw [extensionEntry intent alone,Registry.extension?,key]
    exact found
  · rw [extensionEntry intent alone,Registry.extension?,key]
    exact Registry.extensionRemains found changes

/- An extension is filed under a key that names no intent, and lower case does not hide a name from its intent. -/
theorem intentNoExtension {r : Registry} (orderly : r.Orderly) {s : String} {i : Intent}
    (named : Text.sameName i.name (Text.trim s) = true) :
    Registry.extensionName s ∉ r.extensionNames.map Registry.extensionName := by
  intro mem
  obtain ⟨name,listed,same⟩ := List.mem_map.mp mem
  obtain ⟨e,_,_,filed⟩ := Registry.extensionFound orderly listed
  have free := filed.free
  rw [same,Registry.extensionName,Intent.parseLower named] at free
  cases free

theorem classificationConfidence {extensions text answer confidence c}
    (h : ofClassification? extensions text answer confidence = some c) : c.confidence = confidence := by
  simp only [ofClassification?] at h
  split at h
  · rw [← Option.some.inj h]
  · split at h
    · cases h
    · cases h
    · cases h
    · rw [← Option.some.inj h]

/-- What the command stands for is up to the answer, but kept within what the registry knows. -/
structure Contained (r : Registry) (answer : Classification) (c : Command) : Prop where
  either : Chosen answer c ∨ Referred r answer c
  intentsFirst : ∀ i, Text.sameName i.name (Text.trim answer.intent) = true → Chosen answer c ∧ c.intent = i

theorem classificationContained {r : Registry} (orderly : r.Orderly) {text answer confidence c}
    (h : ofClassification? (r.extensionNames.map Registry.extensionName) text answer confidence = some c) :
    Contained r answer c := by
  by_cases mem : Registry.extensionName answer.intent ∈ r.extensionNames.map Registry.extensionName
  · obtain ⟨name,listed,same⟩ := List.mem_map.mp mem
    refine ⟨.inr (extensionReferred orderly listed same h),fun i named => ?_⟩
    exact absurd mem (intentNoExtension orderly named)
  · have chosen := builtInChosen (by simpa using mem) h
    refine ⟨.inl chosen,fun i named => ⟨chosen,?_⟩⟩
    have parsed := chosen.named.symm.trans (Intent.parseNamed.mpr named)
    exact Option.some.inj parsed

/-- The classifier was asked as configured, and its answer came in time and was sure enough. -/
structure Trusted (settings : SemanticSettings) (classifier : Classifier) (text : String) (past : List Action)
    (answer : Classification) : Prop where
  inTime : ∃ delay ≤ settings.timeout, classifier.respond past text = (delay,.ok answer)
  sure : settings.minConfidence.confidence.le answer.confidence.confidence = true
  reached : Binary64.zero.le settings.minConfidence = true → settings.minConfidence.le .one = true →
    settings.minConfidence.le answer.confidence.confidence = true

theorem configuredReply {settings : ParserSettings} {classifierOf : SemanticSettings → Classifier}
    {names text past c}
    (h : (((Session.parserOf settings classifierOf).withExtensions names).classify? text past).2 = some c) :
    ∃ semantic answer, settings.semantic = some semantic ∧
      Trusted semantic (classifierOf semantic) text past answer ∧
      ofClassification? (names.map Registry.extensionName) text answer answer.confidence.confidence = some c := by
  cases configured : settings.semantic with
  | none => simp [Session.parserOf,configured,withExtensions,classify?,new] at h
  | some semantic =>
    simp only [Session.parserOf,configured,withExtensions,withSemantic,classify?] at h
    obtain ⟨delay,answer,told,inTime,notLess,made⟩ := semanticReply h
    have sure := Binary64.confidenceReaches notLess
    refine ⟨semantic,answer,rfl,⟨⟨delay,inTime,told⟩,sure,fun low high => ?_⟩,made⟩
    rwa [Binary64.confidenceInside low high] at sure

end Parser

namespace Session

theorem fallbackContained (changes : List Registry.Change) (config : Config)
    (classifierOf : SemanticSettings → Classifier) (confirmation : Option Prompt) (epoch : Timestamp)
    (text : String) (past : List Action) (c : Command)
    (yielded : ((ofConfig config (Registry.new.changed changes) classifierOf confirmation epoch).parser.classify?
      text past).2 = some c) :
    ∃ semantic answer, config.parser.semantic = some semantic ∧
      Parser.Trusted semantic (classifierOf semantic) text past answer ∧
      c.confidence = answer.confidence.confidence ∧
      Parser.Contained (ofConfig config (Registry.new.changed changes) classifierOf confirmation epoch).registry
        answer c := by
  obtain ⟨semantic,answer,configured,trusted,made⟩ := Parser.configuredReply yielded
  have orderly := Registry.orderlyChange (Registry.orderlyChanged Registry.orderlyNew changes)
    (.loadDisabled config.disabledIntents)
  exact ⟨semantic,answer,configured,trusted,Parser.classificationConfidence made,
    Parser.classificationContained orderly made⟩

/- A name that was registered, disabled and answered in three different spellings. -/
theorem lightsContained :
    let lights : Entry := .extension " Lights On" .system ⟨fun _ _ => (0,.error "no lamp")⟩
    let registry := Registry.new.changed [.register lights,.enableExtension "LIGHTS ON" false]
    let answer : Classification := ⟨"lights oN\t",.ofList [("room","hall")],.one⟩
    let s := ofConfig { parser := { semantic := some { model := "small" } } } registry
      (fun _ => ⟨fun _ _ => (5,.ok answer)⟩) none ⟨0,0⟩
    ∃ c, (s.parser.classify? "it is dark" []).2 = some c ∧ Parser.Contained s.registry answer c ∧
      c.extension? = some "lights oN" := by
  intro lights registry answer s
  have heard : (s.parser.classify? "it is dark" []).2.isSome = true := by decide +kernel
  obtain ⟨c,yielded⟩ := Option.isSome_iff_exists.mp heard
  obtain ⟨semantic,told,_,trusted,_,contained⟩ := fallbackContained
    [.register lights,.enableExtension "LIGHTS ON" false] _ (fun _ => ⟨fun _ _ => (5,.ok answer)⟩) none ⟨0,0⟩
    "it is dark" [] c yielded
  obtain ⟨_,_,same⟩ := trusted.inTime
  cases same
  have meant : (s.parser.classify? "it is dark" []).2.bind Command.extension? = some "lights oN" := by
    decide +kernel
  rw [yielded] at meant
  exact ⟨c,yielded,contained,meant⟩

end Session

end VoiceCommand
