import VoiceCommand.Proofs.KeyMap
import VoiceCommand.Proofs.Parser.Values
import VoiceCommand.Proofs.Pattern.Caseless
import VoiceCommand.Session.Hearing

/-! Recognition does not see the case of ASCII letters. A text made small is recognised as the same commands made
small, so two texts that become one when they are made small are recognised alike. -/
namespace VoiceCommand
open Text (asciiLower lowered sameName)

def Command.lowered (c : Command) : Command :=
  { c with
    entities := c.entities.mapValues Text.lowered
    rawText := Text.lowered c.rawText
    displayName := Text.lowered c.displayName }

/-- The same command but for the case of ASCII letters in its values and in the texts that it bears. -/
structure Alike (c d : Command) : Prop where
  intent : c.intent = d.intent
  source : c.source = d.source
  confidence : c.confidence = d.confidence
  keys : c.entities.keys = d.entities.keys
  values : List.Forall₂ (fun v w => sameName v w = true) c.entities.values d.entities.values
  displayName : sameName c.displayName d.displayName = true
  rawText : sameName c.rawText d.rawText = true

theorem mappedAlike {α β : Type} {f : α → β} {related : α → α → Prop}
    (alike : ∀ x y, f x = f y → related x y) {xs ys : List α} (same : xs.map f = ys.map f) :
    List.Forall₂ related xs ys := by
  have equal : List.Forall₂ Eq (xs.map f) (ys.map f) := List.forall₂_eq_eq_eq ▸ same
  rw [List.forall₂_map_left_iff,List.forall₂_map_right_iff] at equal
  exact equal.imp alike

theorem loweredAlike {c d : Command} (same : c.lowered = d.lowered) : Alike c d := by
  simp only [Command.lowered,Command.mk.injEq] at same
  obtain ⟨intent,entities,rawText,confidence,displayName,source⟩ := same
  have entries := congrArg KeyMap.entries entities
  have keys := congrArg (List.map Prod.fst) entries
  have values := congrArg (List.map Prod.snd) entries
  simp only [KeyMap.mapValues,List.map_map,Function.comp_def] at keys values
  refine ⟨intent,source,confidence,keys,mappedAlike (f := lowered) (fun _ _ => Text.sameLowered.mpr) ?_,
    Text.sameLowered.mpr displayName,Text.sameLowered.mpr rawText⟩
  simpa only [KeyMap.values,List.map_map,Function.comp_def] using values

theorem triggeredCaseless (c : CustomCommand) (text : String) :
    c.isTriggeredBy (lowered text) = c.isTriggeredBy text := by
  simp only [CustomCommand.isTriggeredBy,Text.trimCaseless,Text.lowerCaseless]

theorem cancelCaseless (text : String) : isCancelPhrase (lowered text) = isCancelPhrase text := by
  simp only [isCancelPhrase,Text.normalizeCaseless,Text.lowerCaseless]

namespace Parser

theorem aliasCaseless (store : Store) (text : String) :
    (matchAlias? store (lowered text)).map Command.lowered = (matchAlias? store text).map Command.lowered := by
  have found : trigger? store (lowered text) = trigger? store text := by
    simp only [trigger?,Text.normalizeCaseless,triggeredCaseless]
  simp only [matchAlias?,found,Option.map_map]
  refine congrArg (Option.map · _) (funext fun c => ?_)
  simp only [Function.comp_apply,aliasCommand,Command.lowered,Command.new,Text.trimCaseless,Text.loweredTwice]

def Fit.lowered (f : Fit) : Fit := { f with hit := f.hit.lowered }

theorem fitCaseless (cs : List Char) (row : PatternRow) :
    fit? (asciiLower cs) row = (fit? cs row).map Fit.lowered := by
  have length : (asciiLower cs).length = cs.length := List.length_map _
  simp only [fit?,Pattern.matchCaseless,Option.map_map,length]
  refine congrArg (Option.map · _) (funext fun hit => ?_)
  simp only [Function.comp_apply,Fit.lowered,Pattern.Match.lowered]

/- What decides between two fits are their scores. -/
theorem bestCaseless (cs : List Char) : best? (asciiLower cs) = (best? cs).map Fit.lowered := by
  have along (fits : List Fit) (best : Option Fit) :
      (fits.map Fit.lowered).foldl better (best.map Fit.lowered) = (fits.foldl better best).map Fit.lowered := by
    induction fits generalizing best with
    | nil => rfl
    | cons f rest ih =>
      have step : better (best.map Fit.lowered) f.lowered = (better best f).map Fit.lowered := by
        cases best with
        | none => rfl
        | some b =>
          change (if b.score.lt f.score then some f.lowered else some b.lowered) =
            Option.map Fit.lowered (if b.score.lt f.score then some f else some b)
          split <;> rfl
      simp only [List.map_cons,List.foldl_cons,step,ih]
  have fits : PatternRow.all.filterMap (fit? (asciiLower cs)) =
      (PatternRow.all.filterMap (fit? cs)).map Fit.lowered := by
    rw [List.map_filterMap]
    exact List.filterMap_congr fun row _ => fitCaseless cs row
  rw [best?,fits]
  exact along _ none

theorem entitiesCaseless (f : Fit) : f.lowered.entities = f.entities.mapValues lowered := by
  have stripped : (f.hit.captures.map asciiLower).map (Text.strip Text.isBlank) =
      (f.hit.captures.map (Text.strip Text.isBlank)).map asciiLower := by
    simp only [List.map_map,Function.comp_def,Text.stripCaseless Text.blankCaseless]
  unfold Fit.entities
  rw [← KeyMap.ofListMapped,List.map_filterMap]
  simp only [Fit.lowered,Pattern.Match.lowered,stripped,List.zip_map_right,List.filterMap_map]
  refine congrArg KeyMap.ofList (List.filterMap_congr fun e _ => ?_)
  simp only [Function.comp_apply,Prod.map,id_eq,Text.emptyCaseless]
  split
  · rfl
  · simp only [Option.map_some,Text.loweredOfList]

theorem fewEntities {f : Fit} (listed : f.row ∈ PatternRow.all) : f.entities.entries.length ≤ 1 := by
  have all : ∀ row ∈ PatternRow.all, row.keys.length ≤ 1 := by decide +kernel
  have short : ∀ entries : List (String × String), entries.length ≤ 1 →
      (KeyMap.ofList entries).entries.length ≤ 1 := by
    intro entries few
    match entries with
    | [] => exact Nat.zero_le 1
    | [(key,value)] => exact Nat.le_of_eq (congrArg List.length (KeyMap.single key value))
  refine short _ ((List.length_filterMap_le _ _).trans ?_)
  rw [List.length_zip]
  exact (Nat.min_le_left _ _).trans (all f.row listed)

/- With more values than one, a value could be searched for the key of the next. -/
theorem renderCaseless {entities : Entities} (few : entities.entries.length ≤ 1) (template : String) :
    lowered (Template.render template (entities.mapValues lowered)) =
      lowered (Template.render template entities) := by
  obtain ⟨entries,_⟩ := entities
  match entries with
  | [] => rfl
  | [(key,value)] => exact Text.replaceCaseless template (Template.placeholder key) value

theorem commandCaseless {f : Fit} (listed : f.row ∈ PatternRow.all) (text : String) :
    (f.lowered.command (lowered text)).lowered = (f.command text).lowered := by
  have name := renderCaseless (fewEntities listed) f.row.template
  have values : (f.entities.mapValues lowered).mapValues lowered = f.entities.mapValues lowered := by
    refine KeyMap.sameEntries ?_
    simp only [KeyMap.mapValues,List.map_map,Function.comp_def,Text.loweredTwice]
  simp only [Fit.command,Command.lowered,Command.new,entitiesCaseless,Text.trimCaseless,Text.loweredTwice,values]
  change (⟨_,_,_,_,lowered (Template.render f.row.template _),_⟩ : Command) = _
  rw [name]
  rfl

theorem patternCaseless (least : Binary64) (text : String) :
    (matchPattern? least (lowered text)).map Command.lowered =
      (matchPattern? least text).map Command.lowered := by
  unfold matchPattern?
  simp only [Text.normalizeCaseless,Text.loweredChars,Text.emptyCaseless,bestCaseless]
  split
  · rfl
  · cases best : best? (Text.normalize text).toList with
    | none => rfl
    | some f =>
      obtain ⟨row,listed,fit⟩ := bestFit best
      have own : f.row ∈ PatternRow.all := by
        obtain ⟨hit,_,eq⟩ := Option.map_eq_some_iff.mp fit
        rw [← eq]
        exact listed
      have command := commandCaseless own text
      simp only [Option.map_some]
      change Option.map _ (if f.confidence.lt least then none else some (f.lowered.command (lowered text))) = _
      split
      · rfl
      · simp only [Option.map_some,command]

theorem segmentsCaseless (text : String) :
    splitSegments? (lowered text) = (splitSegments? text).map (List.map lowered) := by
  unfold splitSegments?
  simp only [Text.loweredChars,Pattern.occursCaseless,Pattern.splitCaseless]
  cases separators.find? (·.occurs text.toList) with
  | none => rfl
  | some separator =>
    simp only [Option.bind_some]
    have pieces : (((separator.split text.toList).map asciiLower).map (Text.strip Text.isBlank)).filter
          (fun piece => !piece.isEmpty) =
        (((separator.split text.toList).map (Text.strip Text.isBlank)).filter
          (fun piece => !piece.isEmpty)).map asciiLower := by
      simp only [List.map_map,Function.comp_def,Text.stripCaseless Text.blankCaseless,List.filter_map,
        Text.emptyCaseless]
    simp only [pieces,List.length_map]
    split
    · simp only [Option.map_some,List.map_map,Function.comp_def,Text.loweredOfList]
    · rfl

theorem foundMapped {α β γ : Type} (find : α → Option β) (f : β → γ) (xs : List α) :
    (xs.mapM find).map (List.map f) = xs.mapM fun x => (find x).map f := by
  induction xs with
  | nil => rfl
  | cons x rest ih =>
    simp only [List.mapM_cons,Option.pure_def,Option.bind_eq_bind,← ih]
    cases find x <;> cases rest.mapM find <;> rfl

theorem chainCaseless (least : Binary64) (text : String) :
    (splitChain? least (lowered text)).map (List.map Command.lowered) =
      (splitChain? least text).map (List.map Command.lowered) := by
  simp only [splitChain?,Text.normalizeCaseless,segmentsCaseless]
  cases splitSegments? (Text.normalize text) with
  | none => rfl
  | some segments =>
    simp only [Option.map_some,Option.bind_some,foundMapped,List.mapM_map,Function.comp_apply,patternCaseless]

section
variable {p : Parser} (unclassified : p.semantic = none) (store : Store) (text : String) (past : List Action)
include unclassified

theorem parseUnclassified : (p.parse store text past).2.toOption =
    if (Text.normalize text).isEmpty then none
    else (matchAlias? store text).or (matchPattern? p.minConfidence text) := by
  unfold parse
  simp only [classify?,unclassified]
  split
  · rfl
  · cases matchAlias? store text with
    | some c => rfl
    | none => cases matchPattern? p.minConfidence text <;> rfl

theorem parseCaseless (other : List Action) :
    (p.parse store (lowered text) past).2.toOption.map Command.lowered =
      (p.parse store text other).2.toOption.map Command.lowered := by
  simp only [parseUnclassified unclassified,Text.normalizeCaseless,Text.loweredEmpty]
  split
  · rfl
  · simp only [Option.map_or,aliasCaseless,patternCaseless]

end

theorem parseChainFound (p : Parser) (store : Store) (text : String) (past : List Action) :
    (p.parseChain store text past).2 =
      (((matchAlias? store text).map fun c => [c]).or (splitChain? p.minConfidence text)).getD
        (p.parse store text past).2.toOption.toList := by
  unfold parseChain
  cases matchAlias? store text with
  | some c => rfl
  | none =>
    cases splitChain? p.minConfidence text with
    | some commands => rfl
    | none =>
      simp only [Course.bindRun]
      cases (p.parse store text past).2 <;> rfl

theorem parseChainCaseless {p : Parser} (unclassified : p.semantic = none) (store : Store) (text : String)
    (past other : List Action) : (p.parseChain store (lowered text) past).2.map Command.lowered =
      (p.parseChain store text other).2.map Command.lowered := by
  have alone (found : Option Command) : (found.map fun c => [c]).map (List.map Command.lowered) =
      (found.map Command.lowered).map fun c => [c] := by
    cases found <;> rfl
  simp only [parseChainFound,← Option.getD_map (List.map Command.lowered),Option.map_or,alone,aliasCaseless,
    chainCaseless,← Option.toList_map,parseCaseless unclassified store text past other]

/-- Without a classifier, two texts that differ in the case of ASCII letters alone are recognised alike, whatever
went before. -/
theorem recognisedAlike {p : Parser} (unclassified : p.semantic = none) (store : Store) {a b : String}
    (same : sameName a b = true) (past other : List Action) :
    Option.Rel Alike (p.parse store a past).2.toOption (p.parse store b other).2.toOption ∧
      List.Forall₂ Alike (p.parseChain store a past).2 (p.parseChain store b other).2 ∧
      isCancelPhrase a = isCancelPhrase b := by
  have small := Text.sameLowered.mp same
  refine ⟨?_,mappedAlike (f := Command.lowered) (fun _ _ => loweredAlike) ?_,?_⟩
  · have one := (parseCaseless unclassified store a past past).symm.trans
      (small ▸ parseCaseless unclassified store b past other)
    cases first : (p.parse store a past).2.toOption <;> cases second : (p.parse store b other).2.toOption
    · exact .none
    · simp [first,second] at one
    · simp [first,second] at one
    · rw [first,second] at one
      exact .some (loweredAlike (Option.some.inj one))
  · exact (parseChainCaseless unclassified store a past past).symm.trans
      (small ▸ parseChainCaseless unclassified store b past other)
  · rw [← cancelCaseless a,small,cancelCaseless]

theorem safariAlike :
    let p := Parser.new .zero
    p.semantic = none ∧ sameName "Open SAFARI, then mute." "OPEN Safari, THEN Mute." = true ∧
      List.Forall₂ Alike (p.parseChain [] "Open SAFARI, then mute." []).2
        (p.parseChain [] "OPEN Safari, THEN Mute." []).2 ∧
      (p.parseChain [] "OPEN Safari, THEN Mute." []).2.map (fun c => (c.intent,c.entities.values)) =
        [(.openApp,["Safari"]),(.volumeMute,[])] := by
  intro p
  have same : sameName "Open SAFARI, then mute." "OPEN Safari, THEN Mute." = true := by decide +kernel
  exact ⟨rfl,same,(recognisedAlike rfl [] same [] []).2.1,by decide +kernel⟩

end Parser

end VoiceCommand
