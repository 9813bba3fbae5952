import VoiceCommand.Parser.Basic
import VoiceCommand.Proofs.Course

/-! What recognition does and where its commands come from. It only ever asks the classifier and waits for
it, and the source of a custom command is borne by nothing else. -/
namespace VoiceCommand.Parser
open Course (Only)

section
variable {p : Action → Prop} (waits : ∀ ms, p (.elapse ms)) (asks : ∀ text, p (.classify text))
include waits asks

theorem semanticOnly (s : Semantic) (extensions : List String) (text : String) :
    Only p (s.command? extensions text) := by
  have asked : Only p (Course.classify s.classifier text) := by
    intro past a mem
    rw [Course.classifyRun] at mem
    rcases List.mem_cons.mp mem with rfl | mem
    · exact asks text
    · exact Course.memWaiting mem ▸ waits _
  refine (asked.within waits s.timeout).bind fun reply => ?_
  split
  · simp only
    split <;> exact .pure _
  · exact .pure _

theorem parseOnly (parser : Parser) (store : Store) (text : String) :
    Only p (parser.parse store text) := by
  unfold parse
  simp only
  split
  · exact .pure _
  · split
    · exact .pure _
    · split
      · exact .pure _
      · refine Only.bind ?_ fun found => by split <;> exact .pure _
        unfold classify?
        split
        · exact semanticOnly waits asks _ _ _
        · exact .pure _

theorem parseChainOnly (parser : Parser) (store : Store) (text : String) :
    Only p (parser.parseChain store text) := by
  unfold parseChain
  split
  · exact .pure _
  · split
    · exact .pure _
    · exact (parseOnly waits asks parser store text).bind fun found => by split <;> exact .pure _

end

def Honest (c : Command) : Prop := c.source = .alias → c.intent = .customAlias

theorem aliasHonest {store text c} (h : matchAlias? store text = some c) : Honest c := by
  unfold matchAlias? at h
  obtain ⟨custom,_,eq⟩ := Option.map_eq_some_iff.mp h
  intro _
  rw [← eq]; rfl

theorem patternSource {least text c} (h : matchPattern? least text = some c) : c.source = .pattern := by
  unfold matchPattern? at h
  simp only at h
  split at h
  · simp at h
  · generalize best? _ = best at h
    cases best with
    | none => simp at h
    | some f =>
      simp only at h
      split at h
      · simp at h
      · rw [← Option.some.inj h]; rfl

theorem classificationSource {extensions text answer confidence c}
    (h : ofClassification? extensions text answer confidence = some c) : c.source = .semantic := by
  unfold ofClassification? at h
  simp only at h
  split at h
  · rw [← Option.some.inj h]; rfl
  · split at h
    · simp at h
    · simp at h
    · simp at h
    · rw [← Option.some.inj h]; rfl

theorem semanticSource {s : Semantic} {extensions text past c}
    (h : (s.command? extensions text past).2 = some c) : c.source = .semantic := by
  simp only [Semantic.command?,Course.bindRun] at h
  rcases reply : (Course.within s.timeout (Course.classify s.classifier text) past).2 with
    _ | cause | answer
  · simp [reply] at h
  · simp [reply] at h
  · simp only [reply] at h
    split at h
    · simp at h
    · simp only [Course.pureRun] at h
      exact classificationSource h

/- Where a command can come from: a custom command, the table, or the classifier. -/
theorem parseOrigin {parser : Parser} {store text past c}
    (h : (parser.parse store text past).2 = .ok c) :
    matchAlias? store text = some c ∨ matchPattern? parser.minConfidence text = some c ∨
      ∃ s, parser.semantic = some s ∧
        (s.command? parser.extensions (Text.normalize text) past).2 = some c := by
  unfold parse at h
  split at h
  · simp at h
  · cases found : matchAlias? store text with
    | some command =>
      simp only [found,Course.pureRun,Except.ok.injEq] at h
      exact .inl (congrArg some h)
    | none =>
      cases fit : matchPattern? parser.minConfidence text with
      | some command =>
        simp only [found,fit,Course.pureRun,Except.ok.injEq] at h
        exact .inr (.inl (congrArg some h))
      | none =>
        simp only [found,fit,Course.bindRun] at h
        cases answer : (parser.classify? (Text.normalize text) past).2 with
        | none => simp [answer] at h
        | some command =>
          simp only [answer,Course.pureRun,Except.ok.injEq] at h
          unfold classify? at answer
          cases classifier : parser.semantic with
          | none => simp [classifier] at answer
          | some s =>
            simp only [classifier] at answer
            exact .inr (.inr ⟨s,rfl,answer.trans (congrArg some h)⟩)

theorem parseSource {parser : Parser} {store text past c}
    (h : (parser.parse store text past).2 = .ok c) :
    matchAlias? store text = some c ∨ c.source ≠ .alias := by
  rcases parseOrigin h with isAlias | fit | ⟨s,_,answer⟩
  · exact .inl isAlias
  · exact .inr (by simp [patternSource fit])
  · exact .inr (by simp [semanticSource answer])

theorem segmentFound {least : Binary64} {segments : List String} {commands : List Command}
    (h : segments.mapM (matchPattern? least) = some commands) :
    ∀ c ∈ commands, ∃ segment ∈ segments, matchPattern? least segment = some c := by
  intro c mem
  induction segments generalizing commands with
  | nil => simp at h; simp [h] at mem
  | cons segment rest ih =>
    simp only [List.mapM_cons,bind,Option.bind_eq_some_iff,pure,Option.some.injEq] at h
    obtain ⟨first,one,others,all,eq⟩ := h
    rw [← eq] at mem
    rcases List.mem_cons.mp mem with rfl | mem
    · exact ⟨segment,List.mem_cons_self,one⟩
    · obtain ⟨other,inside,found⟩ := ih all mem
      exact ⟨other,List.mem_cons_of_mem _ inside,found⟩

theorem chainOrigin {parser : Parser} {store text past c}
    (mem : c ∈ (parser.parseChain store text past).2) :
    (matchAlias? store text = some c ∧ (parser.parseChain store text past).2 = [c]) ∨
      (∃ segment, matchPattern? parser.minConfidence segment = some c) ∨
      ∃ s, parser.semantic = some s ∧
        (s.command? parser.extensions (Text.normalize text) past).2 = some c := by
  unfold parseChain at mem ⊢
  cases found : matchAlias? store text with
  | some command =>
    simp only [found,Course.pureRun,List.mem_singleton] at mem
    exact .inl (by simp [mem])
  | none =>
    cases split : splitChain? parser.minConfidence text with
    | some commands =>
      obtain ⟨segments,_,all⟩ := Option.bind_eq_some_iff.mp split
      simp only [found,split,Course.pureRun] at mem
      obtain ⟨segment,_,fit⟩ := segmentFound all c mem
      exact .inr (.inl ⟨segment,fit⟩)
    | none =>
      simp only [found,split,Course.bindRun] at mem
      cases result : (parser.parse store text past).2 with
      | error e => simp [result] at mem
      | ok command =>
        simp only [result,Course.pureRun,List.mem_singleton] at mem
        rcases parseOrigin (mem ▸ result) with isAlias | fit | answer
        · simp [found] at isAlias
        · exact .inr (.inl ⟨text,fit⟩)
        · exact .inr (.inr answer)

/- A custom command is recognised in a whole text, and then it is the only command of the text. -/
theorem chainSource {parser : Parser} {store text past} :
    (∃ c, matchAlias? store text = some c ∧ (parser.parseChain store text past).2 = [c]) ∨
      ∀ c ∈ (parser.parseChain store text past).2, c.source ≠ .alias := by
  by_cases own : ∃ c, matchAlias? store text = some c ∧ (parser.parseChain store text past).2 = [c]
  · exact .inl own
  · refine .inr fun c mem => ?_
    rcases chainOrigin mem with isAlias | ⟨segment,fit⟩ | ⟨s,_,answer⟩
    · exact absurd ⟨c,isAlias⟩ own
    · simp [patternSource fit]
    · simp [semanticSource answer]

end VoiceCommand.Parser
