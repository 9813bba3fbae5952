import Mathlib.Data.List.Forall2
import VoiceCommand.Proofs.Parser.Actions

/-! Chains are split whole or not at all. A text becomes one command for each of its segments, or is read as a single
command, and the classifier is asked about it once, when nothing else has taken it. -/
namespace VoiceCommand.Parser
open Course (waiting)

/-- The texts about which the classifier was asked. -/
def asked (history : List Action) : List String :=
  history.filterMap fun | .classify text => some text | _ => none

/-- Neither a custom command nor a phrasing takes the text, of which something is left in normal form. -/
structure Unclaimed (p : Parser) (store : Store) (text : String) : Prop where
  left : Text.normalize text ≠ ""
  untriggered : matchAlias? store text = none
  unmatched : matchPattern? p.minConfidence text = none

/-- There is no segment, or some segment is not a command of the table. -/
def Unsplit (p : Parser) (text : String) : Prop :=
  ∀ segments, splitSegments? (Text.normalize text) = some segments →
    ∃ segment ∈ segments, matchPattern? p.minConfidence segment = none

/-- One command of the table for each segment, in order. -/
structure Split (p : Parser) (text : String) (commands : List Command) : Prop where
  many : 2 ≤ commands.length
  matched : ∃ segments, splitSegments? (Text.normalize text) = some segments ∧
    List.Forall₂ (fun segment c => matchPattern? p.minConfidence segment = some c ∧ c.source = .pattern)
      segments commands

/-- The classifier is asked about this text and no other, at most once, and just when there is cause to. -/
structure AskedOnce (history : List Action) (text : String) (cause : Prop) : Prop where
  once : asked history = [] ∨ asked history = [text]
  caused : asked history ≠ [] ↔ cause

theorem askedAppend (first second : List Action) : asked (first ++ second) = asked first ++ asked second :=
  List.filterMap_append

theorem askedWaiting (ms : Nat) : asked (waiting ms) = [] := by
  unfold waiting
  split <;> rfl

/- A cut only shortens waits and leaves out what comes after; a question at the beginning has been put. -/
theorem askedCut {limit delay : Nat} {text : String} :
    asked (cutAt limit (.classify text :: waiting delay)) = [text] := by
  unfold waiting
  split
  · rfl
  · simp only [cutAt]
    split <;> rfl

theorem semanticAsks (s : Semantic) (extensions : List String) (text : String) (past : List Action) :
    asked (s.command? extensions text past).1 = [text] := by
  have within : asked (Course.within s.timeout (Course.classify s.classifier text) past).1 = [text] := by
    simp only [Course.within,Course.classifyRun]
    split
    · rw [show ∀ rest, asked (.classify text :: rest) = text :: asked rest from fun _ => rfl,askedWaiting]
    · exact askedCut
  simp only [Semantic.command?,Course.bindRun,askedAppend,within]
  rcases (Course.within s.timeout (Course.classify s.classifier text) past).2 with _ | cause | answer
  · rfl
  · rfl
  · simp only
    split <;> rfl

theorem classifierAsks (p : Parser) (text : String) (past : List Action) :
    asked (p.classify? text past).1 = if p.semantic.isSome then [text] else [] := by
  unfold classify?
  cases p.semantic with
  | none => rfl
  | some s => exact semanticAsks s p.extensions text past

section
variable {p : Parser} {store : Store} {text : String} {past : List Action}

theorem parseClaimed (claimed : ¬ Unclaimed p store text) : asked (p.parse store text past).1 = [] := by
  unfold parse
  simp only [String.isEmpty_iff]
  split
  · rfl
  · rename_i left
    cases found : matchAlias? store text with
    | some c => rfl
    | none =>
      cases fit : matchPattern? p.minConfidence text with
      | some c => rfl
      | none => exact absurd ⟨left,found,fit⟩ claimed

theorem parseUnclaimed (unclaimed : Unclaimed p store text) :
    asked (p.parse store text past).1 = if p.semantic.isSome then [Text.normalize text] else [] := by
  unfold parse
  simp only [String.isEmpty_iff,unclaimed.left,unclaimed.untriggered,unclaimed.unmatched,if_false,
    Course.bindRun,askedAppend,classifierAsks]
  cases (p.classify? (Text.normalize text) past).2 <;> simp [asked]

theorem segmentsMany {segments : List String} (split : splitSegments? text = some segments) :
    2 ≤ segments.length := by
  obtain ⟨separator,_,pieces⟩ := Option.bind_eq_some_iff.mp split
  simp only at pieces
  split at pieces
  · rename_i enough
    rw [← Option.some.inj pieces,List.length_map]
    exact enough
  · cases pieces

/- Along the segments: the first one that is no command undoes the whole. -/
theorem eachSegment {least : Binary64} {segments : List String} {commands : List Command} :
    segments.mapM (matchPattern? least) = some commands ↔
      List.Forall₂ (fun segment c => matchPattern? least segment = some c) segments commands := by
  induction segments generalizing commands with
  | nil => simp [eq_comm]
  | cons segment rest ih =>
    simp only [List.mapM_cons,bind,pure,Option.bind_eq_some_iff,Option.some.injEq,List.forall₂_cons_left_iff]
    constructor
    · rintro ⟨c,first,others,later,rfl⟩
      exact ⟨c,others,first,ih.mp later,rfl⟩
    · rintro ⟨c,others,first,later,rfl⟩
      exact ⟨c,first,others,ih.mpr later,rfl⟩

theorem someSegment {least : Binary64} {segments : List String} :
    segments.mapM (matchPattern? least) = none ↔ ∃ segment ∈ segments, matchPattern? least segment = none := by
  induction segments with
  | nil => simp
  | cons segment rest ih =>
    simp only [List.mapM_cons,bind,pure,List.exists_mem_cons_iff,← ih]
    cases matchPattern? least segment <;> cases rest.mapM (matchPattern? least) <;> simp

theorem unsplitChain : splitChain? p.minConfidence text = none ↔ Unsplit p text := by
  unfold splitChain? Unsplit
  simp only [Option.bind_eq_none_iff,someSegment]

theorem splitWhole {commands : List Command} (split : splitChain? p.minConfidence text = some commands) :
    Split p text commands := by
  obtain ⟨segments,pieces,all⟩ := Option.bind_eq_some_iff.mp split
  have each := eachSegment.mp all
  refine ⟨each.length_eq ▸ segmentsMany pieces,segments,pieces,each.imp fun segment c fit => ?_⟩
  exact ⟨fit,patternSource fit⟩

theorem parseChainUnsplit (untriggered : matchAlias? store text = none) (unsplit : Unsplit p text) :
    (p.parseChain store text past).1 = (p.parse store text past).1 ∧
      (p.parseChain store text past).2 = (p.parse store text past).2.toOption.toList := by
  unfold parseChain
  simp only [untriggered,unsplitChain.mpr unsplit,Course.bindRun]
  cases (p.parse store text past).2 <;> simp [Except.toOption]

theorem parseChainSplit {commands : List Command} (untriggered : matchAlias? store text = none)
    (split : splitChain? p.minConfidence text = some commands) :
    p.parseChain store text past = ([],commands) := by
  unfold parseChain
  rw [untriggered,split]
  rfl

theorem parseChainTriggered {c : Command} (found : matchAlias? store text = some c) :
    p.parseChain store text past = ([],[c]) := by
  unfold parseChain
  rw [found]
  rfl

theorem parseAsks : AskedOnce (p.parse store text past).1 (Text.normalize text)
    (p.semantic.isSome = true ∧ Unclaimed p store text) := by
  by_cases unclaimed : Unclaimed p store text
  · have reached : asked (p.parse store text past).1 =
        if p.semantic.isSome then [Text.normalize text] else [] := parseUnclaimed unclaimed
    cases fallback : p.semantic.isSome with
    | true => exact ⟨.inr (by simp [reached,fallback]),by simp [reached,fallback,unclaimed]⟩
    | false => exact ⟨.inl (by simp [reached,fallback]),by simp [reached,fallback]⟩
  · have reached : asked (p.parse store text past).1 = [] := parseClaimed unclaimed
    exact ⟨.inl reached,by simp [reached,unclaimed]⟩

theorem unasked {history : List Action} {cause : Prop} (silent : asked history = []) (uncaused : ¬ cause) :
    AskedOnce history text cause :=
  ⟨.inl silent,by simp [silent,uncaused]⟩

/-- What a text becomes: the custom command that it triggers, or one command of the table for each segment, or what
it is as a single command. -/
inductive Read (p : Parser) (store : Store) (text : String) (past : List Action) : List Command → Prop where
  | triggered {c} (found : matchAlias? store text = some c) : Read p store text past [c]
  | split {commands} (untriggered : matchAlias? store text = none) (whole : Split p text commands) :
      Read p store text past commands
  | single {commands} (untriggered : matchAlias? store text = none) (unsplit : Unsplit p text)
      (same : commands = (p.parse store text past).2.toOption.toList) : Read p store text past commands

theorem parseChainRead : Read p store text past (p.parseChain store text past).2 := by
  cases found : matchAlias? store text with
  | some c =>
    rw [parseChainTriggered found]
    exact .triggered found
  | none =>
    cases split : splitChain? p.minConfidence text with
    | some commands =>
      rw [parseChainSplit found split]
      exact .split found (splitWhole split)
    | none =>
      have unsplit := unsplitChain.mp split
      exact .single found unsplit (parseChainUnsplit found unsplit).2

theorem parseChainAsks : AskedOnce (p.parseChain store text past).1 (Text.normalize text)
    (p.semantic.isSome = true ∧ Unclaimed p store text ∧ Unsplit p text) := by
  cases found : matchAlias? store text with
  | some c =>
    rw [parseChainTriggered found]
    exact unasked rfl fun ⟨_,unclaimed,_⟩ => by simp [unclaimed.untriggered] at found
  | none =>
    cases split : splitChain? p.minConfidence text with
    | some commands =>
      rw [parseChainSplit found split]
      exact unasked rfl fun ⟨_,_,unsplit⟩ => by simp [unsplitChain.mpr unsplit] at split
    | none =>
      have unsplit := unsplitChain.mp split
      have alone : AskedOnce (p.parse store text past).1 _ _ := parseAsks
      rw [(parseChainUnsplit found unsplit).1]
      refine ⟨alone.once,alone.caused.trans ?_⟩
      simp only [unsplit,and_true]

end

/-- A text is split whole or read as a single command. Where it is a command on its own, something comes of it. The
classifier is asked at most once, about the normal form, and only if something is left of it, neither a custom
command nor the table has taken the text, and it is no chain. -/
theorem splitOrSingle (p : Parser) (store : Store) (text : String) (past : List Action) :
    Read p store text past (p.parseChain store text past).2 ∧
      (∀ c, (p.parse store text past).2 = .ok c → (p.parseChain store text past).2 ≠ []) ∧
      AskedOnce (p.parse store text past).1 (Text.normalize text)
        (p.semantic.isSome = true ∧ Unclaimed p store text) ∧
      AskedOnce (p.parseChain store text past).1 (Text.normalize text)
        (p.semantic.isSome = true ∧ Unclaimed p store text ∧ Unsplit p text) := by
  refine ⟨parseChainRead,fun c succeeded => ?_,parseAsks,parseChainAsks⟩
  have read : Read p store text past (p.parseChain store text past).2 := parseChainRead
  intro empty
  rw [empty] at read
  cases read with
  | split _ whole => simpa using whole.many
  | single _ _ same =>
    rw [succeeded] at same
    cases same

end VoiceCommand.Parser
