import VoiceCommand.CommandLine.Recognition
import VoiceCommand.Document.Shapes
import VoiceCommand.Proofs.Document.Portion
import VoiceCommand.Proofs.Intent
import VoiceCommand.Proofs.KeyMap
import VoiceCommand.Proofs.Parser.Classified
import VoiceCommand.Proofs.Parser.Values

/-! Commands as they are printed. Every field of a command is written out, so the text is that of no other commands, and
read as a document of commands it gives them back in their order. -/
namespace VoiceCommand

theorem Binary64.confidencePortion (x : Binary64) : x.confidence.IsPortion := by
  have least : zero.IsPortion := ⟨false,0,rfl,by decide⟩
  have greatest : one.IsPortion := ⟨false,_,rfl,Nat.le_refl _⟩
  cases x with
  | nan => exact least
  | number negative m =>
    simp only [confidence,clamp]
    split
    · exact least
    · split
      · exact greatest
      · rename_i notLess notMore
        refine ⟨negative,m,rfl,?_⟩
        simp only [lt,zero,one,rank] at notLess notMore
        cases negative <;> simp at notLess notMore <;> omega

theorem Source.ofNameOwn (source : Source) : Source.ofName? source.name = some source := by
  cases source <;> decide

namespace Command
open Document.Json (Plain)

theorem toValuePlain {c : Command} (finite : c.confidence.IsFinite) : Plain c.toValue := by
  have entities : Plain (.table (c.entities.entries.map fun e => (some e.1,.text e.2)) .closed) := by
    refine .table (fun m mem => ?_) (fun m mem => ?_)
    · obtain ⟨e,_,rfl⟩ := List.mem_map.mp mem
      rfl
    · obtain ⟨e,_,rfl⟩ := List.mem_map.mp mem
      exact .text e.2
  refine .table (by simp) ?_
  simp only [List.forall_mem_cons]
  exact ⟨.text _,entities,.text _,.real finite,.text _,.text _,List.forall_mem_nil _⟩

theorem toValueInj {c d : Command} (same : c.toValue = d.toValue) : c = d := by
  obtain ⟨intent,⟨entries,_⟩,rawText,confidence,displayName,source⟩ := c
  obtain ⟨intent',⟨entries',_⟩,rawText',confidence',displayName',source'⟩ := d
  simp only [toValue,Document.Value.table.injEq,List.cons.injEq,Prod.mk.injEq,Document.Value.text.injEq,
    Document.Value.real.injEq,and_true,true_and] at same
  obtain ⟨name,values,rfl,rfl,rfl,origin⟩ := same
  obtain rfl : intent = intent' := Intent.nameOwn (congrArg (fun s => Text.asciiLower s.toList) name)
  obtain rfl : source = source' := by
    have own := Source.ofNameOwn source
    rw [origin,Source.ofNameOwn] at own
    exact (Option.some.inj own).symm
  obtain rfl : entries = entries' := by
    refine List.map_injective_iff.mpr (fun e e' pair => ?_) values
    simpa [Prod.ext_iff] using pair
  rfl

open Document (Decoder Value)

theorem entitiesDecoded (entities : Entities) :
    Decoder.entities (.table (entities.entries.map fun e => (some e.1,.text e.2)) .closed) = .ok entities := by
  have each (entries : List (String × String)) :
      (entries.map fun e => (some e.1,Value.text e.2)).mapM Decoder.entry = .ok entries := by
    induction entries with
    | nil => rfl
    | cons e rest ih =>
      rw [List.map_cons,List.mapM_cons,ih]
      rfl
  simp only [Decoder.entities,each]
  exact congrArg Except.ok (KeyMap.sameEntries (KeyMap.ofAscending entities.ascending))

theorem toValueReread {c : Command} (portion : c.confidence.IsPortion) :
    ∃ y, Document.command .json c.toValue.reread = .ok { c with confidence := y } := by
  obtain ⟨y,real⟩ := Document.Json.portionReread portion
  have entities : (Value.table (c.entities.entries.map fun e => (some e.1,.text e.2)) .closed).reread =
      .table (c.entities.entries.map fun e => (some e.1,.text e.2)) .closed := by
    simp [Value.reread,Value.membersReread]
  have again : c.toValue.reread = .table [
      (some "intent",.text c.intent.name),
      (some "entities",.table (c.entities.entries.map fun e => (some e.1,.text e.2)) .closed),
      (some "raw_text",.text c.rawText),
      (some "confidence",.real y),
      (some "display_name",.text c.displayName),
      (some "source",.text c.source.name)] .closed := by
    rw [toValue,Value.reread]
    simp only [Value.rereadMembers,entities]
    simp [Value.reread,real]
  refine ⟨y,?_⟩
  rw [again]
  simp [Document.command,Document.Record.decode,Document.Record.readMembers,Document.Record.field,
    List.lookup_cons,Document.intent,Document.source,Decoder.name,Decoder.text,Decoder.real,Intent.ofNameOwn,
    Source.ofNameOwn,entitiesDecoded,bind,Except.bind,Except.map,Document.Ending.fault?,new]

end Command

namespace Parser

theorem patternPortion {least text c} (h : matchPattern? least text = some c) : c.confidence.IsPortion := by
  obtain ⟨f,won,rfl⟩ := patternWinning h
  obtain ⟨row,_,fit⟩ := bestFit won.best
  obtain ⟨hit,_,same⟩ := Option.map_eq_some_iff.mp fit
  have rounded : f.confidence = (Binary64.ofRatio hit.length (Text.normalize text).toList.length).confidence := by
    rw [← same]
  change f.confidence.IsPortion
  rw [rounded]
  exact Binary64.confidencePortion _

theorem semanticPortion {s : Semantic} {extensions text past c}
    (h : (s.command? extensions text past).2 = some c) : c.confidence.IsPortion := by
  obtain ⟨_,answer,_,_,_,made⟩ := semanticReply h
  rw [classificationConfidence made]
  exact Binary64.confidencePortion _

theorem aliasPortion {store text c} (h : matchAlias? store text = some c) : c.confidence.IsPortion := by
  obtain ⟨custom,_,rfl⟩ := Option.map_eq_some_iff.mp h
  exact Binary64.confidencePortion .one

theorem parsePortion {parser : Parser} {store text past c} (h : (parser.parse store text past).2 = .ok c) :
    c.confidence.IsPortion := by
  rcases parseOrigin h with isAlias | fit | ⟨s,_,answer⟩
  · exact aliasPortion isAlias
  · exact patternPortion fit
  · exact semanticPortion answer

theorem chainPortion {parser : Parser} {store text past} :
    ∀ c ∈ (parser.parseChain store text past).2, c.confidence.IsPortion := by
  intro c mem
  rcases chainOrigin mem with ⟨isAlias,_⟩ | ⟨segment,fit⟩ | ⟨s,_,answer⟩
  · exact aliasPortion isAlias
  · exact patternPortion fit
  · exact semanticPortion answer

end Parser

namespace CommandLine

theorem commandsPlain {commands : List Command} (finite : ∀ c ∈ commands, c.confidence.IsFinite) :
    Document.Json.Plain (.list (commands.map Command.toValue) .closed) := by
  refine .list fun v mem => ?_
  obtain ⟨c,listed,rfl⟩ := List.mem_map.mp mem
  exact Command.toValuePlain (finite c listed)

theorem commandsTextInj {commands others : List Command} (finite : ∀ c ∈ commands, c.confidence.IsFinite)
    (finite' : ∀ c ∈ others, c.confidence.IsFinite) (same : commandsText commands = commandsText others) :
    commands = others := by
  have lists := Document.Json.writeInj (commandsPlain finite) (commandsPlain finite') same
  simp only [Document.Value.list.injEq,and_true] at lists
  exact List.map_injective_iff.mpr (fun _ _ => Command.toValueInj) lists

/-- Read as a document, the text gives the commands, each with the confidence that the reader makes of its digits. -/
def Printed (commands : List Command) (text : String) : Prop :=
  ∃ read, Document.Json.decode (Document.Decoder.list (Document.command .json)) text = .ok read ∧
    List.Forall₂ (fun c d => d = { c with confidence := d.confidence }) commands read

theorem commandsTextRead {commands : List Command} (portion : ∀ c ∈ commands, c.confidence.IsPortion) :
    Printed commands (commandsText commands) := by
  have each : ∃ read, (commands.map fun c => c.toValue.reread).mapM (Document.command .json) = .ok read ∧
      List.Forall₂ (fun c d => d = { c with confidence := d.confidence }) commands read := by
    induction commands with
    | nil => exact ⟨[],rfl,.nil⟩
    | cons c rest ih =>
      obtain ⟨y,first⟩ := Command.toValueReread (portion c List.mem_cons_self)
      obtain ⟨read,later,alike⟩ := ih fun d mem => portion d (List.mem_cons_of_mem _ mem)
      refine ⟨{ c with confidence := y } :: read,?_,.cons rfl alike⟩
      rw [List.map_cons,List.mapM_cons,first,later]
      rfl
  obtain ⟨read,decoded,alike⟩ := each
  refine ⟨read,?_,alike⟩
  rw [commandsText,Document.Json.decodeWritten (commandsPlain fun c mem => (portion c mem).finite),
    Document.Value.reread,Document.Value.itemsReread,List.map_map]
  simp only [Document.Decoder.list,Function.comp_def,decoded]
  rfl

theorem commandsPortion (c : Config) (classifierOf : SemanticSettings → Classifier) (text : String)
    (past : List Action) : ∀ d ∈ (commandsOf c classifierOf text past).2, d.confidence.IsPortion := by
  intro d mem
  unfold commandsOf at mem
  split at mem
  · exact Parser.chainPortion d mem
  · simp only [Course.bindRun,Course.pureRun,Option.mem_toList] at mem
    cases answer : ((Session.parserOf c.parser classifierOf).parse c.customCommands text past).2 with
    | error e => simp [answer,Except.toOption] at mem
    | ok command =>
      rw [answer] at mem
      obtain rfl : command = d := Option.some.inj mem
      exact Parser.parsePortion answer

theorem recognisePortion {c : Config} {classifierOf : SemanticSettings → Classifier} {text : String}
    {past : List Action} {commands : List Command} (h : (recognise c classifierOf text past).2 = .ok commands) :
    ∀ d ∈ commands, d.confidence.IsPortion := by
  unfold recognise at h
  simp only [Course.bindRun,Course.pureRun] at h
  split at h
  · cases h
  · rw [← Except.ok.inj h]
    exact commandsPortion c classifierOf text past

end CommandLine

end VoiceCommand
