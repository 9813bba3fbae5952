import VoiceCommand.CommandLine.Basic
import VoiceCommand.Proofs.CommandLine.Printed
import VoiceCommand.Proofs.Course
import VoiceCommand.Proofs.Files.Program
import VoiceCommand.Proofs.Text.Case

/-! Recognition on the command line and in a session. The former reads the list of disabled intents itself and takes
the text as it is, the latter goes through its registry and trims first; they find the same commands. -/
namespace VoiceCommand

theorem triggeredTrim (c : CustomCommand) (text : String) :
    c.isTriggeredBy (Text.trim text) = c.isTriggeredBy text := by
  simp only [CustomCommand.isTriggeredBy,Text.trimTrim]

namespace Parser
open Text (normalizeTrim trimTrim)

theorem aliasTrim (store : Store) (text : String) :
    matchAlias? store (Text.trim text) = matchAlias? store text := by
  have command : aliasCommand (Text.trim text) = aliasCommand text := by
    funext c
    simp only [aliasCommand,trimTrim]
  simp only [matchAlias?,trigger?,triggeredTrim,normalizeTrim,command]

theorem patternTrim (least : Binary64) (text : String) :
    matchPattern? least (Text.trim text) = matchPattern? least text := by
  have command : ∀ f : Fit, f.command (Text.trim text) = f.command text := by
    intro f
    simp only [Fit.command,trimTrim]
  simp only [matchPattern?,normalizeTrim,command]

theorem chainTrim (least : Binary64) (text : String) :
    splitChain? least (Text.trim text) = splitChain? least text := by
  simp only [splitChain?,normalizeTrim]

/- A text that fails to be recognised is reported as it is or trimmed, depending on where it fails; once it is trimmed
there is no difference. -/
theorem parseTrimmed (p : Parser) (store : Store) (text : String) (past : List Action) :
    (p.parse store (Text.trim text) past).1 = (p.parse store text past).1 ∧
      (p.parse store (Text.trim text) past).2 =
        (p.parse store text past).2.mapError fun _ => .unrecognized (Text.trim text) := by
  unfold parse
  simp only [normalizeTrim,aliasTrim,patternTrim,trimTrim]
  cases (Text.normalize text).isEmpty with
  | true => exact ⟨rfl,rfl⟩
  | false =>
    cases matchAlias? store text with
    | some command => exact ⟨rfl,rfl⟩
    | none =>
      cases matchPattern? p.minConfidence text with
      | some command => exact ⟨rfl,rfl⟩
      | none =>
        cases answer : (p.classify? (Text.normalize text) past).2 <;>
          simp [answer,Except.mapError]

theorem parseChainTrim (p : Parser) (store : Store) (text : String) :
    p.parseChain store (Text.trim text) = p.parseChain store text := by
  funext past
  obtain ⟨actions,result⟩ := parseTrimmed p store text past
  unfold parseChain
  rw [aliasTrim,chainTrim]
  cases matchAlias? store text with
  | some command => rfl
  | none =>
    cases splitChain? p.minConfidence text with
    | some commands => rfl
    | none =>
      simp only [Course.bindRun,actions,result]
      cases (p.parse store text past).2 <;> rfl

section
variable {p : Parser} {past : List Action}
  (alike : ∀ s, p.semantic = some s → ∀ question, s.classifier.respond past question = s.classifier.respond [] question)
include alike

/- Of the past nothing matters but what the classifier makes of it. -/
theorem classifyAlike (text : String) : p.classify? text past = p.classify? text [] := by
  unfold classify?
  cases semantic : p.semantic with
  | none => rfl
  | some s =>
    have asked : Course.classify s.classifier text past = Course.classify s.classifier text [] := by
      rw [Course.classifyRun,Course.classifyRun,alike s semantic text]
    refine Course.bindAlike ?_ fun reply _ _ => ?_
    · simp only [Course.within,asked]
    · split
      · dsimp only
        split <;> rfl
      · rfl

theorem parseAlike (store : Store) (text : String) : p.parse store text past = p.parse store text [] := by
  unfold parse
  cases (Text.normalize text).isEmpty with
  | true => rfl
  | false =>
    cases matchAlias? store text with
    | some command => rfl
    | none =>
      cases matchPattern? p.minConfidence text with
      | some command => rfl
      | none => exact Course.bindAlike (classifyAlike alike _) fun answer _ _ => by cases answer <;> rfl

theorem parseChainAlike (store : Store) (text : String) :
    p.parseChain store text past = p.parseChain store text [] := by
  unfold parseChain
  cases matchAlias? store text with
  | some command => rfl
  | none =>
    cases splitChain? p.minConfidence text with
    | some commands => rfl
    | none => exact Course.bindAlike (parseAlike alike store text) fun result _ _ => by cases result <;> rfl

end

end Parser

namespace Session

theorem parserBare (settings : ParserSettings) (classifierOf : SemanticSettings → Classifier) :
    (parserOf settings classifierOf).withExtensions [] = parserOf settings classifierOf := by
  unfold parserOf
  cases settings.semantic <;> rfl

end Session

namespace CommandLine

/- The flag of an intent after loading does not depend on what it was before. -/
theorem chainsAlike (c : Config) (registry : Registry) (classifierOf : SemanticSettings → Classifier)
    (confirmation : Option Prompt) (epoch : Timestamp) :
    (Session.ofConfig c registry classifierOf confirmation epoch).chains = chains c := by
  have listed : (c.disabledIntents.filterMap Intent.parse?).contains .chainedCommand =
      c.disabledIntents.any fun name => Intent.parse? name == some .chainedCommand := by
    rw [Bool.eq_iff_iff]
    simp [List.mem_filterMap]
  change (c.session.chaining && !(c.disabledIntents.filterMap Intent.parse?).contains .chainedCommand) = _
  rw [listed]
  rfl

theorem parserAlike (c : Config) {registry : Registry} (without : registry.extensions = .empty)
    (classifierOf : SemanticSettings → Classifier) (confirmation : Option Prompt) (epoch : Timestamp) :
    (Session.ofConfig c registry classifierOf confirmation epoch).parser =
      Session.parserOf c.parser classifierOf := by
  have unextended : (registry.loadDisabled c.disabledIntents).extensionNames = [] := by
    simp [Registry.extensionNames,Registry.entries,Registry.loadDisabled,without,KeyMap.values,KeyMap.empty,
      Registry.entry,BuiltIn.entry]
  change (Session.parserOf c.parser classifierOf).withExtensions _ = _
  rw [unextended,Session.parserBare]

theorem loneCommand (answer : Except CommandError Command) (text : String) :
    (if answer.toOption.toList.isEmpty then .error (.unrecognized text) else .ok answer.toOption.toList) =
      (answer.mapError fun _ => CommandError.unrecognized text).map fun command => [command] := by
  cases answer <;> simp [Except.map,Except.mapError,Except.toOption]

theorem recogniseAlike (c : Config) {registry : Registry} (without : registry.extensions = .empty)
    (classifierOf : SemanticSettings → Classifier) (confirmation : Option Prompt) (epoch : Timestamp)
    (text : String) : recognise c classifierOf text =
      (Session.ofConfig c registry classifierOf confirmation epoch).recognise (Text.trim text) := by
  have store : (Session.ofConfig c registry classifierOf confirmation epoch).store = c.customCommands := rfl
  funext past
  unfold recognise commandsOf Session.recognise
  rw [chainsAlike,parserAlike c without,store,Parser.parseChainTrim]
  cases chains c with
  | true => rfl
  | false =>
    obtain ⟨actions,result⟩ := Parser.parseTrimmed (Session.parserOf c.parser classifierOf)
      c.customCommands text past
    simp only [Bool.false_eq_true,if_false,Course.bindRun,Course.pureRun,actions,result,loneCommand,
      List.append_nil]

theorem recogniseRefused (c : Config) (classifierOf : SemanticSettings → Classifier) (text : String)
    {past : List Action} {e : CommandError} (h : (recognise c classifierOf text past).2 = .error e) :
    e = .unrecognized (Text.trim text) := by
  unfold recognise at h
  simp only [Course.bindRun,Course.pureRun] at h
  split at h
  · exact (Except.error.inj h).symm
  · cases h

theorem recogniseSteady {c : Config} {classifierOf : SemanticSettings → Classifier} {past : List Action}
    (alike : ∀ settings, c.parser.semantic = some settings → ∀ question,
      (classifierOf settings).respond past question = (classifierOf settings).respond [] question)
    (text : String) : recognise c classifierOf text past = recognise c classifierOf text [] := by
  have alike' : ∀ s, (Session.parserOf c.parser classifierOf).semantic = some s → ∀ question,
      s.classifier.respond past question = s.classifier.respond [] question := by
    intro s found
    cases semantic : c.parser.semantic with
    | none => simp [Session.parserOf,semantic,Parser.new] at found
    | some settings =>
      simp only [Session.parserOf,semantic,Parser.withSemantic,Option.some.injEq] at found
      exact found ▸ alike settings semantic
  refine Course.bindAlike ?_ fun _ _ _ => rfl
  unfold commandsOf
  cases chains c with
  | true => exact Parser.parseChainAlike alike' c.customCommands text
  | false => exact Course.bindAlike (Parser.parseAlike alike' c.customCommands text) fun _ _ _ => rfl

/-- For a text the command line finds the commands that a session with the same configuration and classifier finds for
the trimmed text, with the same questions. It prints these commands, or the reason why there are none, if the classifier
makes no difference between the two. The printed text gives the commands back and is that of no others. -/
theorem previewedAsRun (c : Config) (registry : Registry) (without : registry.extensions = .empty)
    (classifierOf : SemanticSettings → Classifier) (confirmation : Option Prompt) (epoch : Timestamp)
    (text : String) :
    let session := Session.ofConfig c registry classifierOf confirmation epoch
    let found (past : List Action) := (session.recognise (Text.trim text) past).2
    recognise c classifierOf text = session.recognise (Text.trim text) ∧
      (∀ past e, found past = .error e → e = .unrecognized (Text.trim text)) ∧
      (∀ past commands, found past = .ok commands → Printed commands (commandsText commands) ∧
        (∀ d ∈ commands, d.confidence.IsFinite) ∧
        ∀ others : List Command, (∀ d ∈ others, d.confidence.IsFinite) →
          commandsText others = commandsText commands → others = commands) ∧
      ∀ path disk after past, (Config.ofFileOrDefault path).run.run disk = (.ok c,after) →
        (∀ settings, c.parser.semantic = some settings → ∀ question,
          (classifierOf settings).respond past question = (classifierOf settings).respond [] question) →
        (parseTask classifierOf path text).run.run disk =
          (((found past).mapError CommandError.message).map fun commands => [commandsText commands],after) := by
  intro session found
  have same : recognise c classifierOf text = session.recognise (Text.trim text) :=
    recogniseAlike c without classifierOf confirmation epoch text
  refine ⟨same,fun past e refused => ?_,fun past commands recognised => ?_,
    fun path disk after past loaded alike => ?_⟩
  · change (session.recognise (Text.trim text) past).2 = .error e at refused
    rw [← same] at refused
    exact recogniseRefused c classifierOf text refused
  · change (session.recognise (Text.trim text) past).2 = .ok commands at recognised
    rw [← same] at recognised
    have portion := recognisePortion recognised
    have finite : ∀ d ∈ commands, d.confidence.IsFinite := fun d mem => (portion d mem).finite
    exact ⟨commandsTextRead portion,finite,fun others finite' same => commandsTextInj finite' finite same⟩
  · have steady : (recognise c classifierOf text []).2 = found past := by
      rw [← recogniseSteady alike text,same]
    unfold parseTask
    rw [FileTask.runBind loaded,steady]
    cases found past <;> rfl

/- A configuration on disk, and a text that only the classifier knows what to do with. -/
theorem cosyPreviewed :
    let c : Config := { parser := { semantic := some { model := "small" } }, disabledIntents := [" LOCKscreen"] }
    let disk := (Disk.new "home").put ["home","config.toml"]
      (.file (some "disabled_intents = [\" LOCKscreen\"]\n[parser.semantic]\nmodel = \"small\"\n"))
    let registry := Registry.new.setEnabled .chainedCommand false
    let answer : Classification := ⟨"openApp",.ofList [("appName","Hue \"2\"")],.ofRatio 4 5⟩
    let classifierOf : SemanticSettings → Classifier := fun _ => ⟨fun _ _ => (5,.ok answer)⟩
    let session := Session.ofConfig c registry classifierOf none ⟨0,0⟩
    let command : Command :=
      ⟨.openApp,.ofList [("appName","Hue \"2\"")],"make it cosy",.ofRatio 4 5,"Open Hue \"2\"",.semantic⟩
    let printed := "\n".intercalate ["[","  \x7b","    \"intent\": \"openApp\",","    \"entities\": \x7b",
      "      \"appName\": \"Hue \\\"2\\\"\"","    \x7d,","    \"raw_text\": \"make it cosy\",",
      "    \"confidence\": 0.8,","    \"display_name\": \"Open Hue \\\"2\\\"\",",
      "    \"source\": \"semantic_fallback\"","  \x7d","]"]
    (session.recognise (Text.trim " make it cosy") [.elapse 7]).2 = .ok [command] ∧
      (parseTask classifierOf "config.toml" " make it cosy").run.run disk = (.ok [printed],disk) ∧
      Printed [command] printed ∧
      ∀ others : List Command, (∀ d ∈ others, d.confidence.IsFinite) →
        commandsText others = printed → others = [command] := by
  intro c disk registry answer classifierOf session command printed
  have found : (session.recognise (Text.trim " make it cosy") [.elapse 7]).2 = .ok [command] := by decide +kernel
  have loaded : (Config.ofFileOrDefault "config.toml").run.run disk = (.ok c,disk) := by decide +kernel
  have text : commandsText [command] = printed := by decide +kernel
  obtain ⟨_,_,prints,task⟩ := previewedAsRun c registry rfl classifierOf none ⟨0,0⟩ " make it cosy"
  obtain ⟨read,_,unique⟩ := prints _ _ found
  refine ⟨found,?_,text ▸ read,fun others finite same => unique others finite (same.trans text.symm)⟩
  refine (task "config.toml" disk disk [.elapse 7] loaded fun _ _ _ => rfl).trans ?_
  change (((session.recognise (Text.trim " make it cosy") [.elapse 7]).2.mapError _).map _,disk) = _
  rw [found,← text]
  rfl

end CommandLine

end VoiceCommand
