import VoiceCommand.Proofs.Parser.Ranking
import VoiceCommand.Proofs.Parser.Values
import VoiceCommand.Proofs.Pattern.Language
import VoiceCommand.Proofs.Pattern.Phrases
import VoiceCommand.Proofs.Text.Caseless
import VoiceCommand.Proofs.Text.Ranges

/-! Where the match of a recognised command ends. No phrasing ends within a word but that of a volume, which ends
behind three digits of its number or behind a unit, whatever follows. -/
namespace VoiceCommand.Parser
open Pattern
open Text (isWord isDigit isBlank asciiLower)

/-- No word is cut between the two parts. -/
def Whole (taken rest : List Char) : Prop := ¬ (taken.getLast?.any isWord = true ∧ rest.head?.any isWord = true)

instance (taken rest : List Char) : Decidable (Whole taken rest) :=
  inferInstanceAs (Decidable (¬ (_ ∧ _)))

/-- A match can only end on a boundary. -/
def endsBounded : Pattern → Bool
  | .seq _ .boundary => true
  | _ => false

theorem boundedWhole {p : Pattern} (bounded : endsBounded p = true) {front taken rest : List Char}
    (takes : p.Takes front taken rest) : Whole (front ++ taken) rest := by
  unfold endsBounded at bounded
  split at bounded
  · obtain ⟨first,_,rfl,_,rfl,lies⟩ := takes
    rintro ⟨before,behind⟩
    rw [← List.append_assoc,List.append_nil] at before
    simp only [Text.isBoundary,before,behind] at lies
    cases lies
  · cases bounded

theorem rowEnds : ∀ row ∈ PatternRow.all, endsBounded row.pattern = true ∨ row.pattern.isWhole = true ∨
    row.intent = .volumeSet := by decide +kernel

def volumeFront : Pattern :=
  .start ++ maybe (word "set" ++ blanks ++ PatternRow.the) ++ word "volume" ++ blanks ++ maybe (word "to" ++ blanks)

def levelDigits : Pattern := .many .digit 1 (some 3)

def percentUnit : Pattern := maybe (perhapsBlanks ++ words ["%","percent"])

theorem volumeRow : ∀ row ∈ PatternRow.all, row.intent = .volumeSet →
    row.pattern = volumeFront ++ .capture levelDigits ++ percentUnit ∧ row.keys = [levelKey] := by decide +kernel

/-- Nothing, or a sign or a word for percent, perhaps behind blanks. -/
def PercentUnit (cs : List Char) : Prop := cs = [] ∨ ∃ gap letters, cs = gap ++ letters ∧
  (∀ c ∈ gap, isBlank c = true) ∧ (letters = ['%'] ∨ asciiLower letters = "percent".toList)

section
variable {front taken rest : List Char}

theorem unitTakes (takes : percentUnit.Takes front taken rest) : PercentUnit taken := by
  rcases takes with ⟨gap,letters,rfl,⟨_,_,blank⟩,sign | name⟩ | unmeasured
  · have plain : 's' ∉ "%".toList ∧ 'k' ∉ "%".toList := by decide
    have same : asciiLower letters = ['%'] := (lettersTake plain).mp sign
    obtain ⟨c,rfl,lower⟩ := List.map_eq_singleton_iff.mp same
    have point : c = '%' := by
      have lowered : c.toLower.toNat = 37 := congrArg Char.toNat lower
      rw [Text.lowerNumber] at lowered
      refine Char.toNat_inj.mp (Eq.trans ?_ (show 37 = '%'.toNat from rfl))
      split at lowered <;> omega
    exact .inr ⟨gap,_,rfl,blank,.inl (by rw [point])⟩
  · exact .inr ⟨gap,letters,rfl,blank,.inr ((lettersTake (by decide)).mp name)⟩
  · exact .inl unmeasured

theorem frontBlank (takes : volumeFront.Takes front taken rest) : taken.getLast?.any isBlank = true := by
  have ends {cs gap : List Char} (blank : Gap gap) : (cs ++ gap).getLast?.any isBlank = true := by
    obtain ⟨others,c,rfl,last⟩ := gapEnds blank
    simpa [← List.append_assoc] using last
  obtain ⟨_,_,rfl,⟨said,gap,rfl,_,before⟩,⟨word,gap',rfl,_,behind⟩ | rfl⟩ := takes
  · rw [← List.append_assoc]
    exact ends (blanksTake.mp behind)
  · rw [List.append_nil]
    exact ends (blanksTake.mp before)

end

/- Behind a part that may be absent nothing is tried again. -/
theorem optionalFirst {p q : Pattern} {place e : Pattern.Place}
    (first : ((Pattern.seq p (.optional q)).run place).head? = some e) :
    ∃ m, (p.run place).head? = some m ∧ e ∈ (Pattern.optional q).run m := by
  rw [Pattern.run] at first
  cases ends : p.run place with
  | nil => simp [ends] at first
  | cons m rest =>
    rw [ends,List.flatMap_cons,List.head?_append_of_ne_nil _ (by simp [Pattern.run])] at first
    exact ⟨m,rfl,List.mem_of_head? first⟩

/-- How a phrase for the volume is matched: what is in front of its number, of that as many digits as are taken,
and the unit. -/
structure Measured (cs front digits measure rest : List Char) : Prop where
  split : cs = front ++ digits ++ measure ++ rest
  blank : front.getLast?.any isBlank = true
  positive : 1 ≤ digits.length
  few : digits.length ≤ 3
  numeric : ∀ d ∈ digits, isDigit d = true
  farthest : digits.length = 3 ∨ (measure ++ rest).head?.any isDigit = false
  unit : PercentUnit measure

theorem uncaptured {p : Pattern} (free : p.captures = 0) {front rest : List Char} {place e : Pattern.Place}
    (here : Between front rest place) (mem : e ∈ p.run place) : e.captured = place.captured := by
  obtain ⟨_,_,kept⟩ := runTakes here.at mem
  exact kept free

theorem volumeMatch {cs : List Char} {m : Match}
    (found : (volumeFront ++ .capture levelDigits ++ percentUnit).match? cs = some m) :
    ∃ front digits measure rest, Measured cs front digits measure rest ∧
      m.length = (front ++ digits ++ measure).length ∧ m.captures = [digits] := by
  obtain ⟨e,first,rfl⟩ := Option.map_eq_some_iff.mp found
  obtain ⟨n,counted,last⟩ := optionalFirst first
  obtain ⟨x,before,here⟩ := seqFirst counted
  obtain ⟨front,later,rfl,start,heads⟩ := runSound (betweenStart cs) before
  rw [Pattern.run,List.head?_map] at here
  obtain ⟨d,most,rfl⟩ := Option.map_eq_some_iff.mp here
  obtain ⟨digits,behind,rfl,middle,⟨positive,within,all⟩,ends⟩ := manyFirst start most
  let n : Pattern.Place := { d with captured := d.captured ++ [(x.position,d.position)] }
  have there : Between (front ++ digits) behind n := ⟨middle.before,middle.rest,middle.position⟩
  obtain ⟨measure,rest,rfl,ending,takes⟩ := runSound there last
  refine ⟨front,digits,measure,rest,⟨by simp,frontBlank heads,positive,within 3 rfl,all,?_,unitTakes takes⟩,?_,?_⟩
  · exact ends.imp_left fun full => (Option.some.inj full).symm
  · simpa using ending.position
  · have empty : x.captured = [] := uncaptured rfl (betweenStart _) before
    have same : d.captured = x.captured := uncaptured rfl start (List.mem_of_head? most)
    have kept : e.captured = d.captured ++ [(x.position,d.position)] :=
      uncaptured rfl there last
    simp [kept,same,empty,start.position,middle.position]

section
variable {measure : List Char} (unit : PercentUnit measure)
include unit

theorem unitBegins : measure.head?.any isDigit = false := by
  rcases unit with rfl | ⟨gap,letters,rfl,blank,name⟩
  · rfl
  · cases gap with
    | cons c gap =>
      cases digit : isDigit c with
      | false => exact digit
      | true =>
        have solid := Text.digitSolid digit
        rw [blank c List.mem_cons_self] at solid
        cases solid
    | nil =>
      rcases name with rfl | name
      · decide
      · obtain ⟨c,others,rfl,first,_⟩ := List.map_eq_cons_iff.mp name
        change isDigit c = false
        rw [← Text.digitCaseless,first]
        decide

theorem unitEnds : measure = [] ∨ measure.getLast? = some '%' ∨
    ∃ c, measure.getLast? = some c ∧ isWord c = true ∧ c ≠ '%' := by
  rcases unit with rfl | ⟨gap,letters,rfl,blank,rfl | name⟩
  · exact .inl rfl
  · exact .inr (.inl (by simp))
  · refine .inr (.inr ?_)
    cases last : letters.getLast? with
    | none =>
      rw [List.getLast?_eq_none_iff.mp last] at name
      cases name
    | some c =>
      have lower : c.toLower = 't' := by
        have ends : (asciiLower letters).getLast? = some 't' := by rw [name]; rfl
        rw [asciiLower,List.getLast?_map,last] at ends
        exact Option.some.inj ends
      refine ⟨c,by simp [last],?_,?_⟩
      · rw [← Text.wordCaseless,lower]
        decide
      · rintro rfl
        revert lower
        decide

end

/-- The run of digits that the number of the phrase is. -/
structure NumberRun (cs front digits number behind : List Char) : Prop where
  split : cs = front ++ number ++ behind
  filled : number ≠ []
  numeric : ∀ d ∈ number, isDigit d = true
  ends : behind.head?.any isDigit = false
  begins : number.take 3 = digits

section
variable {cs front digits measure rest : List Char} (measured : Measured cs front digits measure rest)
include measured

/- More than three digits are cut, and then there is no unit. -/
theorem measuredNumber : ∃ number behind, NumberRun cs front digits number behind ∧
    (number.length ≤ 3 ∨ 3 < number.length ∧ measure = [] ∧ rest.head?.any isDigit = true) := by
  have filled : digits ≠ [] := List.length_pos_iff.mp measured.positive
  cases more : (measure ++ rest).head?.any isDigit with
  | false =>
    refine ⟨digits,measure ++ rest,⟨by simp [measured.split],filled,measured.numeric,more,?_⟩,.inl measured.few⟩
    exact List.take_of_length_le measured.few
  | true =>
    have full : digits.length = 3 := measured.farthest.resolve_right fun ended => by
      rw [ended] at more
      cases more
    have unmeasured : measure = [] := by
      cases same : measure with
      | nil => rfl
      | cons c others =>
        have begins := unitBegins measured.unit
        rw [same] at begins more
        exact absurd (begins.symm.trans more) Bool.false_ne_true
    subst unmeasured
    rw [List.nil_append] at more
    have further : rest.takeWhile isDigit ≠ [] := by
      cases rest with
      | nil => cases more
      | cons d others =>
        have digit : isDigit d = true := more
        rw [List.takeWhile_cons_of_pos digit]
        exact List.cons_ne_nil _ _
    refine ⟨digits ++ rest.takeWhile isDigit,rest.dropWhile isDigit,⟨?_,by simp [filled],?_,?_,?_⟩,.inr ⟨?_,rfl,more⟩⟩
    · simpa using measured.split
    · exact List.forall_mem_append.mpr ⟨measured.numeric,fun d => List.mem_takeWhile_imp⟩
    · have outside := List.head?_dropWhile_not isDigit rest
      cases next : (rest.dropWhile isDigit).head? with
      | none => rfl
      | some d => simpa [next] using outside
    · rw [← full,List.take_left]
    · have positive := List.length_pos_iff.mpr further
      rw [List.length_append,full]
      omega

theorem measuredWhole {number : List Char}
    (cut : number.length ≤ 3 ∨ 3 < number.length ∧ measure = [] ∧ rest.head?.any isDigit = true) :
    Whole (front ++ digits ++ measure) rest ↔
      number.length ≤ 3 ∧ (measure.getLast? = some '%' ∨ rest.head?.any isWord = false) := by
  have short (nonempty : measure ≠ []) : number.length ≤ 3 := cut.resolve_right fun ⟨_,nothing,_⟩ => nonempty nothing
  rw [Whole,not_and,Bool.not_eq_true]
  rcases unitEnds measured.unit with rfl | percent | ⟨c,last,word,other⟩
  · obtain ⟨d,last⟩ : ∃ d, digits.getLast? = some d :=
      ⟨_,List.getLast?_eq_some_getLast (List.length_pos_iff.mp measured.positive)⟩
    have word : isWord d = true := Text.digitWord (measured.numeric d (List.mem_of_getLast? last))
    have within : rest.head?.any isWord = false → number.length ≤ 3 := fun apart =>
      cut.resolve_right fun ⟨_,_,more⟩ => by
        obtain ⟨e,next,digit⟩ := (Option.any_eq_true _ _).mp more
        simp [next,Text.digitWord digit] at apart
    simpa [last,word] using within
  · have filled : measure ≠ [] := fun empty => by simp [empty] at percent
    have sign : isWord '%' = false := by decide
    simp [percent,sign,short filled]
  · have filled : measure ≠ [] := fun empty => by simp [empty] at last
    simp [last,word,other,short filled]

end

theorem levelTaken {f : Fit} {digits : List Char} (keys : f.row.keys = [levelKey])
    (captured : f.hit.captures = [digits])
    (nonempty : digits ≠ []) (numeric : ∀ d ∈ digits, isDigit d = true) :
    f.entities.get? levelKey = some (String.ofList digits) := by
  have solid : Text.strip isBlank digits = digits := Text.stripSolid fun d mem => Text.digitSolid (numeric d mem)
  have single : f.entities = .ofList [(levelKey,String.ofList digits)] := by
    simp [Fit.entities,keys,captured,solid,nonempty]
  rw [single]
  rfl

/-- How a command for the volume is matched: a number follows a blank, the level is the first three digits of it, and
the match ends with these or with a unit behind them. -/
structure VolumeTaken (c : Command) (cs taken rest front number behind measure : List Char) : Prop where
  spoken : cs = front ++ number ++ behind
  blank : front.getLast?.any isBlank = true
  filled : number ≠ []
  numeric : ∀ d ∈ number, isDigit d = true
  ends : behind.head?.any isDigit = false
  unit : PercentUnit measure
  matched : taken = front ++ number.take 3 ++ measure
  level : c.entities.get? levelKey = some (String.ofList (number.take 3))
  whole : c.entities.get? levelKey = some (String.ofList number) ↔ number.length ≤ 3
  apart : Whole taken rest ↔
    number.length ≤ 3 ∧ (measure.getLast? = some '%' ∨ rest.head?.any isWord = false)

section
variable {text : String}

theorem volumeTaken {f : Fit} (won : Winning text f) (set : f.row.intent = .volumeSet) :
    ∃ taken rest front number behind measure, (Text.normalize text).toList = taken ++ rest ∧
      f.hit.length = taken.length ∧ VolumeTaken (f.command text) (Text.normalize text).toList taken rest
        front number behind measure := by
  obtain ⟨pattern,keys⟩ := volumeRow f.row won.listed set
  obtain ⟨front,digits,measure,rest,measured,length,captured⟩ := volumeMatch (pattern ▸ won.hit)
  obtain ⟨number,behind,run,cut⟩ := measuredNumber measured
  have level : (f.command text).entities.get? levelKey = some (String.ofList digits) :=
    levelTaken keys captured (List.length_pos_iff.mp measured.positive) measured.numeric
  have apart := measuredWhole measured cut
  rw [← run.begins] at length level apart
  refine ⟨_,rest,front,number,behind,measure,?_,length,run.split,measured.blank,run.filled,run.numeric,run.ends,
    measured.unit,rfl,level,?_,apart⟩
  · rw [run.begins]
    exact measured.split
  · rw [level,Option.some_inj,String.ofList_inj]
    refine ⟨fun same => ?_,List.take_of_length_le⟩
    rw [← same,List.length_take]
    exact Nat.min_le_left _ _

/- Every other row ends with the text or on a boundary. -/
theorem otherWhole {f : Fit} (won : Winning text f) (other : f.row.intent ≠ .volumeSet) :
    ∃ taken rest, (Text.normalize text).toList = taken ++ rest ∧ f.hit.length = taken.length ∧ Whole taken rest := by
  obtain ⟨taken,rest,split,length,takes⟩ := matchTakes.2 f.hit won.hit
  refine ⟨taken,rest,split,length,?_⟩
  rcases rowEnds f.row won.listed with bounded | whole | set
  · exact boundedWhole bounded takes
  · have all := wholeMatch whole (Text.normalLine text) won.hit
    have nothing : rest = [] := by
      rw [length,split,List.length_append] at all
      exact List.eq_nil_of_length_eq_zero (by omega)
    simp [nothing,Whole]
  · exact absurd set other

/-- The match of a recognised command begins with the text, and it does not end within a word unless the command is
for the volume. Then it does if and only if its number has more than three digits, of which the level is the first
three, or another word character follows and there is no sign for percent. -/
theorem wordsWhole {least : Binary64} {c : Command} (found : matchPattern? least text = some c) :
    let cs := (Text.normalize text).toList
    ∃ f, best? cs = some f ∧ c = f.command text ∧ f.hit.length ≤ cs.length ∧
      (c.intent ≠ .volumeSet → Whole (cs.take f.hit.length) (cs.drop f.hit.length)) ∧
      (c.intent = .volumeSet → ∃ front number behind measure,
        VolumeTaken c cs (cs.take f.hit.length) (cs.drop f.hit.length) front number behind measure) := by
  intro cs
  obtain ⟨f,won,rfl⟩ := patternWinning found
  refine ⟨f,won.best,rfl,matchShort won.hit,fun other => ?_,fun set => ?_⟩
  · obtain ⟨taken,rest,split,length,whole⟩ := otherWhole won other
    rwa [length,show cs = taken ++ rest from split,List.take_left,List.drop_left]
  · obtain ⟨taken,rest,front,number,behind,measure,split,length,volume⟩ := volumeTaken won set
    refine ⟨front,number,behind,measure,?_⟩
    have parts : cs = taken ++ rest := split
    have first : cs.take f.hit.length = taken := by rw [length,parts,List.take_left]
    have second : cs.drop f.hit.length = rest := by rw [length,parts,List.drop_left]
    rw [first,second]
    exact volume

end

/- Both times the match ends behind a word, and something follows. -/
theorem fiftyWhole :
    let cs (text : String) := (Text.normalize text).toList
    (∃ c f, matchPattern? .zero "Mute the sound, please!" = some c ∧ c.intent = .volumeMute ∧
      best? (cs "Mute the sound, please!") = some f ∧ f.hit.length = 14 ∧
      Whole ((cs "Mute the sound, please!").take 14) ((cs "Mute the sound, please!").drop 14)) ∧
    ∃ c f front number behind measure, matchPattern? .zero "Volume 50 percent now" = some c ∧
      c.intent = .volumeSet ∧ best? (cs "Volume 50 percent now") = some f ∧ f.hit.length = 17 ∧
      VolumeTaken c (cs "Volume 50 percent now") ((cs "Volume 50 percent now").take 17)
        ((cs "Volume 50 percent now").drop 17) front number behind measure := by
  intro cs
  constructor
  · have intent : ((matchPattern? .zero "Mute the sound, please!").map (·.intent)) = some .volumeMute := by
      decide +kernel
    have ends : (best? (cs "Mute the sound, please!")).map (·.hit.length) = some 14 := by decide +kernel
    obtain ⟨c,found,mute⟩ := Option.map_eq_some_iff.mp intent
    obtain ⟨f,best,_,_,whole,_⟩ := wordsWhole found
    have length : f.hit.length = 14 := by simpa [cs,best] using ends
    rw [length] at whole
    exact ⟨c,f,found,mute,best,length,whole (by rw [mute]; decide)⟩
  · have intent : ((matchPattern? .zero "Volume 50 percent now").map (·.intent)) = some .volumeSet := by
      decide +kernel
    have ends : (best? (cs "Volume 50 percent now")).map (·.hit.length) = some 17 := by decide +kernel
    obtain ⟨c,found,set⟩ := Option.map_eq_some_iff.mp intent
    obtain ⟨f,best,_,_,_,volume⟩ := wordsWhole found
    have length : f.hit.length = 17 := by simpa [cs,best] using ends
    rw [length] at volume
    obtain ⟨front,number,behind,measure,taken⟩ := volume set
    exact ⟨c,f,front,number,behind,measure,found,set,best,length,taken⟩

/- The match ends between two digits of the number, and the level is a tenth of it. -/
theorem thousandCut :
    let cs := (Text.normalize "volume 1000").toList
    ((best? cs).map fun f => (f.row.intent,cs.take f.hit.length,cs.drop f.hit.length)) =
        some (.volumeSet,"volume 100".toList,"0".toList) ∧
      ¬ Whole "volume 100".toList "0".toList ∧
      ((matchPattern? half "volume 1000").map fun c => (c.intent,c.entities.entries)) =
        some (.volumeSet,[(levelKey,"100")]) := by
  decide +kernel

end VoiceCommand.Parser
