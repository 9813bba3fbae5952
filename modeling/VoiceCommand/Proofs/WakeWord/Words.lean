import VoiceCommand.Proofs.WakeWord.Folding
import VoiceCommand.Proofs.WakeWord.Likeness

/-! The wake phrase is heard wherever its words follow each other, whatever stands between them. The words of the
phrase were folded character by character and those of the text are read in lower case by the rules for whole texts,
so this fails for phrases with a capital sigma at the end of a word. -/
namespace VoiceCommand.WakeWord
open Text (isBlank strip lowerFrom Word runs)

/-- A word of a text as it is compared with the words of the phrase. -/
def spoken (w : WakeWord) (word : List Char) : List Char :=
  if w.caseSensitive then word else lowerFrom [] word

theorem spokenFolds (w : WakeWord) (word : List Char) :
    w.spoken word = w.fold word ↔ w.caseSensitive = true ∨ ¬ SigmaEnds [] word := by
  rw [← lowerFolds]
  cases mode : w.caseSensitive with
  | true =>
    have each : w.foldChar = fun c => [c] := funext fun c => by simp [foldChar,mode]
    simp [spoken,fold,mode,each]
  | false =>
    have each : w.foldChar = Text.lowerChar := funext fun c => by simp [foldChar,mode]
    simp [spoken,fold,mode,each]

theorem spokenRecased (w : WakeWord) (cs : List Char) : Recased cs (w.spoken cs) := by
  cases mode : w.caseSensitive with
  | true =>
    rw [(w.spokenFolds cs).mpr (.inl mode)]
    exact w.foldRecased cs
  | false => simpa [spoken,mode] using lowerRecased [] cs

theorem bareWordsSpoken (w : WakeWord) (cs : List Char) :
    bareWords (w.spoken cs) = (bareWords cs).map w.spoken := by
  cases mode : w.caseSensitive with
  | true =>
    have same : w.spoken = id := funext fun word => by simp [spoken,mode]
    simp [same]
  | false =>
    have same : w.spoken = lowerFrom [] := funext fun word => by simp [spoken,mode]
    rw [same,bareWordsLower]

structure Bare (cs : List Char) : Prop where
  word : Word cs
  bare : strip isMark cs = cs

theorem bareEach {cs word : List Char} (mem : word ∈ bareWords cs) : Bare word ∧ word <:+: cs := by
  obtain ⟨stripped,filled⟩ := List.mem_filter.mp mem
  obtain ⟨run,listed,rfl⟩ := List.mem_map.mp stripped
  have within := Text.stripInfix isMark run
  have solid := (Text.runsWords listed).solid
  refine ⟨⟨⟨by simpa using filled,fun c inside => solid c (within.subset inside)⟩,Text.stripTwice isMark run⟩,?_⟩
  exact within.trans (Text.runsInfix listed)

theorem bareWordsStrip (cs : List Char) : bareWords (strip isBlank cs) = bareWords cs := by
  rw [bareWords,Text.runsStrip,← bareWords]

theorem bareWordsJoined {gap : List Char} {words : List (List Char)} (blank : ∀ c ∈ gap, isBlank c = true)
    (nonempty : gap ≠ []) (bare : ∀ word ∈ words, Bare word) : bareWords (gap.intercalate words) = words := by
  have stripped : words.map (strip isMark) = words :=
    (List.map_congr_left fun word mem => (bare word mem).bare).trans (List.map_id _)
  have filled : words.filter (fun run => !run.isEmpty) = words :=
    List.filter_eq_self.mpr fun word mem => by simpa using (bare word mem).word.nonempty
  rw [bareWords,Text.runsJoined blank nonempty fun word mem => (bare word mem).word,stripped,filled]

theorem bareAlone {word : List Char} (bare : Bare word) : bareWords word = [word] := by
  have joined : bareWords ([' '].intercalate [word]) = [word] :=
    bareWordsJoined Text.spaceBlank (by simp) (by simpa using bare)
  rwa [List.intercalate_singleton] at joined

/- Every word takes up at least one character, so that the spaces at most double the length. -/
theorem bareJoinedShort (cs : List Char) : ([' '].intercalate (bareWords cs)).length ≤ 2 * cs.length := by
  induction cs using Text.byWords with
  | nil => exact Nat.zero_le _
  | blank c cs blank ih =>
    rw [bareWords,Text.runsOfBlank blank,← bareWords,List.length_cons]
    omega
  | word front rest word ended ih =>
    have positive := List.length_pos_of_ne_nil word.nonempty
    have size := (Text.stripInfix isMark front).length_le
    rw [bareWords,Text.runsWord word ended,List.map_cons,List.filter_cons,← bareWords,List.length_append]
    split
    · by_cases last : bareWords rest = []
      · rw [last,List.intercalate_singleton]
        omega
      · rw [Text.joinedCons _ last,List.length_append,List.length_cons]
        omega
    · omega

theorem needleWords (w : WakeWord) : bareWords w.needle = (bareWords w.phrase.toList).map w.fold := by
  rw [show w.needle = w.fold (strip isBlank w.phrase.toList) from rfl,bareWordsFold,bareWordsStrip]

theorem needleFilled {w : WakeWord} (worded : bareWords w.phrase.toList ≠ []) : w.needle ≠ [] := by
  intro empty
  have words := w.needleWords
  rw [empty] at words
  exact worded (List.map_eq_nil_iff.mp words.symm)

section
variable {w : WakeWord} {last : Option Nat} {now : Nat} {text : String}

theorem detectAwake (worded : bareWords w.phrase.toList ≠ []) (awake : w.coolingDown last now = false) :
    (w.detect? last now text).isSome = ((w.exactHit? text).isSome || (w.fuzzyHit? text).isSome) := by
  have filled : w.needle.isEmpty = false := by simpa using needleFilled worded
  rw [detect?,awake,hear?,filled]
  cases w.exactHit? text <;> rfl

theorem fuzzyHeard (worded : bareWords w.phrase.toList ≠ []) (heard : bareWords text.toList ≠ []) :
    (w.fuzzyHit? text).isSome = w.fuzzyThreshold.le
      (likeness ((bareWords w.phrase.toList).map w.fold) ((bareWords text.toList).map w.spoken)) := by
  have read : (if w.caseSensitive then text else Text.lower text).toList = w.spoken text.toList := by
    cases mode : w.caseSensitive <;> simp [spoken,mode,Text.lower]
  have words : (bareWords (w.spoken text.toList)).isEmpty = false := by
    rw [bareWordsSpoken]
    simpa using heard
  have phrase : (bareWords w.needle).isEmpty = false := by
    rw [needleWords]
    simpa using worded
  simp only [fuzzyHit?,read,words,phrase,Bool.or_self,Bool.false_eq_true,if_false]
  rw [needleWords,bareWordsSpoken]
  split <;> simp [*]

end

/- A phrase of one word with no punctuation around it is found inside every word that bares it. -/
theorem loneHeard {w : WakeWord} (lone : bareWords w.phrase.toList = [strip isBlank w.phrase.toList]) {text : String}
    (stands : bareWords w.phrase.toList <:+: bareWords text.toList) : (w.exactHit? text).isSome = true := by
  refine (exactSome (needleFilled (by simp [lone])) text).mpr (w.foldInfix ?_)
  exact (bareEach (stands.subset (by simp [lone]))).2

/-- The words of the phrase, further apart than the phrase is long. -/
def spread (w : WakeWord) : List Char :=
  (List.replicate w.needle.length ' ').intercalate (bareWords w.phrase.toList)

theorem gapBlank (w : WakeWord) : ∀ c ∈ List.replicate w.needle.length ' ', isBlank c = true := by
  intro c mem
  rw [(List.mem_replicate.mp mem).2]
  decide

theorem foldBlank (w : WakeWord) {cs : List Char} (blank : ∀ c ∈ cs, isBlank c = true) : w.fold cs = cs := by
  induction cs with
  | nil => rfl
  | cons c rest ih =>
    have later : rest.flatMap w.foldChar = rest := ih fun d mem => blank d (List.mem_cons_of_mem _ mem)
    simp [fold,w.foldCharPlain (blankPlain (blank c List.mem_cons_self)).1,later]

theorem foldJoined (w : WakeWord) {gap : List Char} (blank : ∀ c ∈ gap, isBlank c = true) (words : List (List Char)) :
    w.fold (gap.intercalate words) = gap.intercalate (words.map w.fold) := by
  induction words with
  | nil => rfl
  | cons word rest ih =>
    cases rest with
    | nil => simp
    | cons next rest =>
      rw [List.intercalate_cons_cons,List.map_cons,List.map_cons,List.intercalate_cons_cons,← List.map_cons,← ih]
      simp only [fold,List.flatMap_append]
      rw [show gap.flatMap w.foldChar = gap from w.foldBlank blank]

section
variable {w : WakeWord} (worded : bareWords w.phrase.toList ≠ [])
include worded

theorem spreadWords : bareWords w.spread = bareWords w.phrase.toList := by
  have positive := List.length_pos_of_ne_nil (needleFilled worded)
  refine bareWordsJoined (gapBlank w) (fun empty => ?_) fun word mem => (bareEach mem).1
  have size := congrArg List.length empty
  simp only [List.length_replicate,List.length_nil] at size
  omega

theorem spreadMissed (apart : bareWords w.phrase.toList ≠ [strip isBlank w.phrase.toList]) :
    ¬ w.needle <:+: w.fold w.spread := by
  intro inside
  have blanks : ∀ c piece, Kept c piece → ∀ d ∈ piece, isBlank d = isBlank c := fun _ _ kept => kept.blank
  have recased : Recased (strip isBlank w.phrase.toList) w.needle := w.foldRecased _
  have first : w.needle.head?.any isBlank = false := by rw [recasedFirst blanks recased,Text.stripFirst]
  have last : w.needle.getLast?.any isBlank = false := by rw [recasedLast blanks recased,Text.stripLast]
  rw [spread,foldJoined w (gapBlank w)] at inside
  obtain ⟨_,listed,holds⟩ := Text.infixJoined (gapBlank w) (needleFilled worded) first last
    (by rw [List.length_replicate]) inside
  obtain ⟨word,mem,rfl⟩ := List.mem_map.mp listed
  rw [← bareWordsStrip] at mem
  obtain ⟨bare,within⟩ := bareEach mem
  have whole : word = strip isBlank w.phrase.toList := foldWhole within holds.length_le
  exact apart (by rw [← bareWordsStrip,← whole,bareAlone bare])

end

theorem joinedShort {f : List Char → List Char} (recased : ∀ cs, Recased cs (f cs))
    (mapped : ∀ cs, bareWords (f cs) = (bareWords cs).map f) (cs : List Char) :
    ([' '].intercalate ((bareWords cs).map f)).length ≤ 4 * cs.length := by
  have joined := bareJoinedShort (f cs)
  have size := recasedShort (recased cs)
  rw [mapped] at joined
  omega

/- Where a word of the phrase is read in another way than it was folded, rounding leaves the likeness below one. -/
theorem spreadUnlike {w : WakeWord} (short : w.phrase.toList.length ≤ 2 ^ 50) {word : List Char}
    (mem : word ∈ bareWords w.phrase.toList) (different : w.spoken word ≠ w.fold word) :
    Binary64.one.le (likeness ((bareWords w.phrase.toList).map w.fold)
      ((bareWords w.phrase.toList).map w.spoken)) = false := by
  have words {f : List Char → List Char} (recased : ∀ cs, Recased cs (f cs)) :
      ∀ v ∈ (bareWords w.phrase.toList).map f, Word v := by
    intro v listed
    obtain ⟨own,inside,rfl⟩ := List.mem_map.mp listed
    exact recasedWord (recased own) (bareEach inside).1.word
  have apart : [' '].intercalate ((bareWords w.phrase.toList).map w.spoken) ≠
      [' '].intercalate ((bareWords w.phrase.toList).map w.fold) := fun same => by
    have lists := congrArg runs same
    rw [Text.runsJoined Text.spaceBlank (by simp) (words w.spokenRecased),
      Text.runsJoined Text.spaceBlank (by simp) (words w.foldRecased)] at lists
    exact different (List.map_inj_left.mp lists word mem)
  have heard := joinedShort w.spokenRecased w.bareWordsSpoken w.phrase.toList
  have sought := joinedShort w.foldRecased w.bareWordsFold w.phrase.toList
  obtain ⟨m,less,same⟩ := similarityLess apart (by omega)
  rw [likenessAlone (by simp),same]
  simp only [Binary64.le,Binary64.one,Binary64.rank,Bool.false_eq_true,if_false,decide_eq_false_iff_not]
  omega

section
variable {w : WakeWord} (worded : bareWords w.phrase.toList ≠ [])
include worded

theorem alikeHeard {text : String} {heard : List (List Char)} (bounded : w.fuzzyThreshold.le .one = true)
    (stands : heard <:+: bareWords text.toList)
    (alike : heard.map w.fold = (bareWords w.phrase.toList).map w.fold)
    (regular : w.caseSensitive = true ∨ ∀ word ∈ heard, ¬ SigmaEnds [] word) :
    (w.fuzzyHit? text).isSome = true := by
  have filled : heard ≠ [] := fun empty => by
    rw [empty,List.map_nil,eq_comm,List.map_eq_nil_iff] at alike
    exact worded alike
  have uttered : bareWords text.toList ≠ [] := fun empty => by
    rw [empty,List.infix_nil] at stands
    exact filled stands
  have read : heard.map w.spoken = (bareWords w.phrase.toList).map w.fold := by
    rw [← alike]
    refine List.map_congr_left fun word mem => (w.spokenFolds word).mpr ?_
    exact regular.imp_right fun plain => plain word mem
  have whole := likenessSame (stands.map w.spoken)
  rw [read] at whole
  rw [fuzzyHeard worded uttered]
  exact Binary64.leTrans bounded whole

/- With the highest threshold the phrase is not heard in its own words. -/
theorem spreadUnheard (strict : w.fuzzyThreshold = .one) (short : w.phrase.toList.length ≤ 2 ^ 50)
    {word : List Char} (mem : word ∈ bareWords w.phrase.toList) (different : w.spoken word ≠ w.fold word)
    (apart : bareWords w.phrase.toList ≠ [strip isBlank w.phrase.toList]) {last : Option Nat} {now : Nat}
    (awake : w.coolingDown last now = false) :
    (w.detect? last now (String.ofList w.spread)).isSome = false := by
  have exact : (w.exactHit? (String.ofList w.spread)).isSome = false := by
    rw [Bool.eq_false_iff,ne_eq,exactSome (needleFilled worded),String.toList_ofList]
    exact spreadMissed worded apart
  have words : bareWords (String.ofList w.spread).toList = bareWords w.phrase.toList := by
    rw [String.toList_ofList,spreadWords worded]
  have fuzzy : (w.fuzzyHit? (String.ofList w.spread)).isSome = false := by
    rw [fuzzyHeard worded (by rw [words]; exact worded),words,strict]
    exact spreadUnlike short mem different
  rw [detectAwake worded awake,exact,fuzzy,Bool.or_false]

end

/-- However the detector is set up for the phrase, it hears it wherever its words follow each other. -/
def HeardByWords (phrase : String) (caseSensitive : Bool) : Prop :=
  ∀ w : WakeWord, w.phrase = phrase → w.caseSensitive = caseSensitive →
    Binary64.zero.le w.fuzzyThreshold = true → w.fuzzyThreshold.le .one = true →
    ∀ last now text, w.coolingDown last now = false →
      bareWords phrase.toList <:+: bareWords text.toList → (w.detect? last now text).isSome = true

theorem heardOnly {w : WakeWord} (worded : bareWords w.phrase.toList ≠ [])
    (short : w.phrase.toList.length ≤ 2 ^ 50) (heard : HeardByWords w.phrase w.caseSensitive) :
    w.caseSensitive = true ∨ (∀ word ∈ bareWords w.phrase.toList, ¬ SigmaEnds [] word) ∨
      bareWords w.phrase.toList = [strip isBlank w.phrase.toList] := by
  by_contra irregular
  obtain ⟨mode,irregular⟩ := not_or.mp irregular
  obtain ⟨ending,apart⟩ := not_or.mp irregular
  obtain ⟨word,listed⟩ := not_forall.mp ending
  obtain ⟨mem,ends⟩ := Classical.not_imp.mp listed
  obtain ⟨v,phrase,same,strict⟩ : ∃ v : WakeWord,
      v.phrase = w.phrase ∧ v.caseSensitive = w.caseSensitive ∧ v.fuzzyThreshold = .one :=
    ⟨{ w with fuzzyThreshold := .one },rfl,rfl,rfl⟩
  rw [← phrase] at worded short mem apart
  have different : v.spoken word ≠ v.fold word := fun agree => by
    rcases (v.spokenFolds word).mp agree with sensitive | plain
    · exact mode (same ▸ sensitive)
    · exact ends plain
  have missed : (v.detect? none 0 (String.ofList v.spread)).isSome = false :=
    spreadUnheard worded strict short mem different apart rfl
  have stands : bareWords w.phrase.toList <:+: bareWords (String.ofList v.spread).toList := by
    simp only [String.toList_ofList,spreadWords worded,phrase,List.infix_refl]
  have found := heard v phrase same (by rw [strict]; decide) (by rw [strict]; decide) none 0 _ rfl stands
  rw [missed] at found
  cases found

/-- The phrase is heard where words follow each other that are the same as its words once they are folded, unless
letter case matters not and one of them ends in a capital sigma. Such a word in the phrase itself makes no difference
if it is all of the phrase; otherwise there are texts with the words of the phrase in which it is not heard. -/
theorem heardByWords (w : WakeWord) (worded : bareWords w.phrase.toList ≠ []) :
    (w.fuzzyThreshold.le .one = true → ∀ last now text heard, w.coolingDown last now = false →
      heard <:+: bareWords text.toList → heard.map w.fold = (bareWords w.phrase.toList).map w.fold →
      (w.caseSensitive = true ∨ ∀ word ∈ heard, ¬ SigmaEnds [] word) →
      (w.detect? last now text).isSome = true) ∧
    (w.phrase.toList.length ≤ 2 ^ 50 → (HeardByWords w.phrase w.caseSensitive ↔
      w.caseSensitive = true ∨ (∀ word ∈ bareWords w.phrase.toList, ¬ SigmaEnds [] word) ∨
        bareWords w.phrase.toList = [strip isBlank w.phrase.toList])) := by
  refine ⟨fun bounded last now text heard awake stands alike regular => ?_,fun short =>
    ⟨heardOnly worded short,fun regular v phrase same _ bounded last now text awake stands => ?_⟩⟩
  · rw [detectAwake worded awake,alikeHeard worded bounded stands alike regular,Bool.or_true]
  · rw [← phrase] at worded regular stands
    rw [← same] at regular
    rw [detectAwake worded awake]
    rcases regular with sensitive | plain | lone
    · rw [alikeHeard worded bounded stands rfl (.inl sensitive),Bool.or_true]
    · rw [alikeHeard worded bounded stands rfl (.inr plain),Bool.or_true]
    · rw [loneHeard lone stands,Bool.true_or]

/- A capital sigma at the beginning of a word does no harm. -/
theorem nameHeard :
    let w : WakeWord := ⟨"Hey Σοφία",false,.one,2000⟩
    let text := "oh HEY... (ΣΟΦΊΑ): mute!"
    let heard := ["HEY".toList,"ΣΟΦΊΑ".toList]
    bareWords w.phrase.toList ≠ [] ∧ w.fuzzyThreshold.le .one = true ∧ w.coolingDown (some 0) 2000 = false ∧
      heard <:+: bareWords text.toList ∧ heard.map w.fold = (bareWords w.phrase.toList).map w.fold ∧
      (∀ word ∈ heard, ¬ SigmaEnds [] word) ∧ (w.detect? (some 0) 2000 text).isSome = true ∧
      w.phrase.toList.length ≤ 2 ^ 50 ∧ HeardByWords w.phrase w.caseSensitive := by
  intro w text heard
  have worded : bareWords w.phrase.toList ≠ [] := by decide +kernel
  have bounded : w.fuzzyThreshold.le .one = true := by decide
  have awake : w.coolingDown (some 0) 2000 = false := by decide
  have stands : heard <:+: bareWords text.toList := by decide +kernel
  have alike : heard.map w.fold = (bareWords w.phrase.toList).map w.fold := by decide +kernel
  have regular : ∀ word ∈ heard, ¬ SigmaEnds [] word := by decide +kernel
  have short : w.phrase.toList.length ≤ 2 ^ 50 := by decide +kernel
  have plain : ∀ word ∈ bareWords w.phrase.toList, ¬ SigmaEnds [] word := by decide +kernel
  obtain ⟨hears,exactly⟩ := heardByWords w worded
  have found := hears bounded (some 0) 2000 text heard awake stands alike (.inr regular)
  exact ⟨worded,bounded,awake,stands,alike,regular,found,short,(exactly short).mpr (.inr (.inl plain))⟩

/- With the threshold of the default settings: the comma leaves only the comparison of words, and in it the sigmas of
the phrase are not the final ones of the text. -/
theorem finalSigmaMissed :
    let w : WakeWord := ⟨"ΦΩΣ ΜΑΣ",false,({} : WakeWordSettings).fuzzyThreshold,2000⟩
    let text := "ΦΩΣ, ΜΑΣ"
    bareWords w.phrase.toList ≠ [] ∧ bareWords w.phrase.toList <:+: bareWords text.toList ∧
      Binary64.zero.le w.fuzzyThreshold = true ∧ w.fuzzyThreshold.le .one = true ∧
      w.coolingDown none 0 = false ∧ w.detect? none 0 text = none ∧
      ¬ HeardByWords w.phrase w.caseSensitive := by
  intro w text
  have words : bareWords w.phrase.toList ≠ [] ∧ bareWords w.phrase.toList <:+: bareWords text.toList := by
    decide +kernel
  have threshold : Binary64.zero.le w.fuzzyThreshold = true ∧ w.fuzzyThreshold.le .one = true := by
    decide +kernel
  have missed : w.detect? none 0 text = none := by decide +kernel
  refine ⟨words.1,words.2,threshold.1,threshold.2,rfl,missed,fun heard => ?_⟩
  have found := heard w rfl rfl threshold.1 threshold.2 none 0 text rfl words.2
  rw [missed] at found
  cases found

end VoiceCommand.WakeWord
