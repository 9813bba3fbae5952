import Mathlib.Data.List.Forall2
import VoiceCommand.Proofs.Text.Caseless
import VoiceCommand.Proofs.Text.Words
import VoiceCommand.Proofs.WakeWord.Cut

/-! Lower case character by character, and lower case by the rules for whole texts. Both go from word to word and
leave blanks and punctuation alone, and they differ in nothing but a capital sigma that ends a word. -/
namespace VoiceCommand.WakeWord
open Text (isBlank strip lowerChar lowerFrom meetsCased isCased isCaseIgnorable Word Ended Wordwise Edgewise)

/-- What may stand for a character: one or two, and as much a blank or a mark as the character is. -/
structure Kept (c : Char) (piece : List Char) : Prop where
  nonempty : piece ≠ []
  short : piece.length ≤ 2
  blank : ∀ d ∈ piece, isBlank d = isBlank c
  mark : ∀ d ∈ piece, isMark d = isMark c

/-- Each character of the first text has been replaced by a piece of the second. -/
def Recased (cs ds : List Char) : Prop := ∃ pieces, List.Forall₂ Kept cs pieces ∧ ds = pieces.flatten

def markPoints : List Nat :=
  List.range' 0x21 15 ++ List.range' 0x3A 7 ++ List.range' 0x5B 6 ++ List.range' 0x7B 4

theorem markPoint {c : Char} (mark : isMark c = true) : c.toNat ∈ markPoints := by
  simp only [isMark,Bool.or_eq_true,Bool.and_eq_true,decide_eq_true_eq] at mark
  simp only [markPoints,List.mem_append,List.mem_range'_1]
  omega

theorem edgePoints : ∀ n ∈ Text.blankPoints ++ markPoints,
    lowerChar (Char.ofNat n) = [Char.ofNat n] ∧ isCased (Char.ofNat n) = false ∧ Char.ofNat n ≠ 'Σ' := by
  decide +kernel

theorem blankPlain {c : Char} (blank : isBlank c = true) : lowerChar c = [c] ∧ isCased c = false ∧ c ≠ 'Σ' := by
  have plain := edgePoints c.toNat (List.mem_append_left _ (Text.blankPoint blank))
  rwa [Char.ofNat_toNat] at plain

theorem markPlain {c : Char} (mark : isMark c = true) : lowerChar c = [c] ∧ isCased c = false ∧ c ≠ 'Σ' := by
  have plain := edgePoints c.toNat (List.mem_append_right _ (markPoint mark))
  rwa [Char.ofNat_toNat] at plain

theorem blankStops {c : Char} (blank : isBlank c = true) : isCaseIgnorable c = false := by
  have plain : ∀ n ∈ Text.blankPoints, isCaseIgnorable (Char.ofNat n) = false := by decide +kernel
  have own := plain c.toNat (Text.blankPoint blank)
  rwa [Char.ofNat_toNat] at own

theorem pointOutside {c : Char} (outside : c.toNat ∉ Text.blankPoints ++ markPoints) :
    isBlank c = false ∧ isMark c = false := by
  rw [List.mem_append,not_or] at outside
  exact ⟨Bool.eq_false_iff.mpr fun blank => outside.1 (Text.blankPoint blank),
    Bool.eq_false_iff.mpr fun mark => outside.2 (markPoint mark)⟩

/-- No blank and no mark lies in the range. -/
def clear (first last : Nat) : Bool :=
  (Text.blankPoints ++ markPoints).all fun n => n.blt first || last.blt n

theorem clearOutside {n first last : Nat} (free : clear first last = true) (low : first ≤ n) (high : n ≤ last) :
    n ∉ Text.blankPoints ++ markPoints := fun mem => by
  have beside := List.all_eq_true.mp free _ mem
  simp only [Bool.or_eq_true,Nat.blt_eq] at beside
  omega

/- Neither what has a lower case of its own nor what it becomes is a blank or a mark. -/
theorem runsClear : ∀ r ∈ Text.lowerRuns, clear r.first r.last = true ∧
    clear (r.first + r.shift).toNat (r.last + r.shift).toNat = true := by
  decide +kernel

/- A number that belongs to no character gives the first one. -/
theorem numberOf (n : Nat) : (Char.ofNat n).toNat = n ∨ (Char.ofNat n).toNat = 0 := by
  by_cases valid : n.isValidChar
  · left
    rw [Char.ofNat,dif_pos valid]
    rfl
  · right
    rw [Char.ofNat,dif_neg valid]
    rfl

theorem runKept {c : Char} {r : Text.CaseRun} (listed : r ∈ Text.lowerRuns) (covers : r.covers c.toNat = true) :
    Kept c [Char.ofNat (c.toNat + r.shift).toNat] := by
  obtain ⟨source,target⟩ := runsClear r listed
  simp only [Text.CaseRun.covers,Bool.and_eq_true,decide_eq_true_eq] at covers
  have here := pointOutside (clearOutside source covers.1.1 covers.1.2)
  have there : isBlank (Char.ofNat (c.toNat + r.shift).toNat) = false ∧
      isMark (Char.ofNat (c.toNat + r.shift).toNat) = false := by
    refine pointOutside ?_
    have first : 0 ∉ Text.blankPoints ++ markPoints := by decide
    rcases numberOf (c.toNat + r.shift).toNat with same | outside
    · rw [same]
      exact clearOutside target (by omega) (by omega)
    · rwa [outside]
  exact ⟨by simp,by simp,by simp [here,there],by simp [here,there]⟩

theorem markCaseless (c : Char) : isMark c.toLower = isMark c := by
  have small : (Text.capitals.all fun c => isMark c.toLower = isMark c) = true := by decide
  rcases Text.capitalOrFixed c with capital | fixed
  · exact of_decide_eq_true (List.all_eq_true.mp small c capital)
  · rw [fixed]

def keeps (c : Char) (piece : List Char) : Bool :=
  !piece.isEmpty && piece.length.ble 2 && piece.all fun d => isBlank d == isBlank c && isMark d == isMark c

theorem keepsKept {c : Char} {piece : List Char} (holds : keeps c piece = true) : Kept c piece := by
  simp only [keeps,Bool.and_eq_true,Bool.not_eq_true',List.isEmpty_eq_false_iff,Nat.ble_eq,List.all_eq_true,
    beq_iff_eq] at holds
  obtain ⟨⟨nonempty,short⟩,each⟩ := holds
  exact ⟨nonempty,short,fun d mem => (each d mem).1,fun d mem => (each d mem).2⟩

theorem keptSelf (c : Char) : Kept c [c] := ⟨by simp,by simp,by simp,by simp⟩

theorem lowerCharKept (c : Char) : Kept c (lowerChar c) := by
  unfold lowerChar
  split
  · exact ⟨by simp,by simp,by simp,by simp [markCaseless]⟩
  · split
    · rename_i dotted
      rw [eq_of_beq dotted]
      exact keepsKept rfl
    · split
      · rename_i r found
        exact runKept (List.mem_of_find?_eq_some found) (by simpa using List.find?_some found)
      · exact keptSelf c

theorem foldCharKept (w : WakeWord) (c : Char) : Kept c (w.foldChar c) := by
  unfold foldChar
  split
  · exact keptSelf c
  · exact lowerCharKept c

theorem recasedCons {c : Char} {cs piece ds : List Char} (kept : Kept c piece) (later : Recased cs ds) :
    Recased (c :: cs) (piece ++ ds) := by
  obtain ⟨pieces,each,rfl⟩ := later
  exact ⟨piece :: pieces,.cons kept each,rfl⟩

theorem foldRecased (w : WakeWord) (cs : List Char) : Recased cs (w.fold cs) := by
  induction cs with
  | nil => exact ⟨[],.nil,rfl⟩
  | cons c rest ih => exact recasedCons (w.foldCharKept c) ih

theorem lowerRecased (before cs : List Char) : Recased cs (lowerFrom before cs) := by
  induction cs generalizing before with
  | nil => exact ⟨[],.nil,rfl⟩
  | cons c rest ih =>
    rw [lowerFrom]
    split
    · rename_i sigma
      rw [sigma]
      split
      · have kept : Kept 'Σ' ['ς'] := keepsKept rfl
        exact recasedCons kept (ih _)
      · have kept : Kept 'Σ' ['σ'] := keepsKept rfl
        exact recasedCons kept (ih _)
    · exact recasedCons (lowerCharKept c) (ih _)

theorem recasedReverse {cs ds : List Char} (recased : Recased cs ds) : Recased cs.reverse ds.reverse := by
  obtain ⟨pieces,each,rfl⟩ := recased
  refine ⟨pieces.reverse.map List.reverse,?_,by simp [List.reverse_flatten]⟩
  rw [List.forall₂_map_right_iff]
  refine (List.forall₂_reverse_iff.mpr each).imp fun c piece kept => ?_
  exact ⟨by simpa using kept.nonempty,by simpa using kept.short,by simpa using kept.blank,by simpa using kept.mark⟩

theorem recasedShort {cs ds : List Char} (recased : Recased cs ds) : ds.length ≤ 2 * cs.length := by
  obtain ⟨pieces,each,rfl⟩ := recased
  induction each with
  | nil => exact Nat.zero_le _
  | cons kept _ ih =>
    have short := kept.short
    simp only [List.flatten_cons,List.length_append,List.length_cons]
    omega

section
variable {kind : Char → Bool} (same : ∀ c piece, Kept c piece → ∀ d ∈ piece, kind d = kind c)
include same

theorem recasedFirst {cs ds : List Char} (recased : Recased cs ds) : ds.head?.any kind = cs.head?.any kind := by
  obtain ⟨pieces,each,rfl⟩ := recased
  cases each with
  | nil => rfl
  | @cons c piece _ _ kept _ =>
    obtain ⟨d,more,rfl⟩ := List.exists_cons_of_ne_nil kept.nonempty
    simpa using same c _ kept d List.mem_cons_self

theorem recasedLast {cs ds : List Char} (recased : Recased cs ds) : ds.getLast?.any kind = cs.getLast?.any kind := by
  rw [← List.head?_reverse,← List.head?_reverse]
  exact recasedFirst same (recasedReverse recased)

end

theorem recasedSolid {cs ds : List Char} (recased : Recased cs ds) (solid : ∀ c ∈ cs, isBlank c = false) :
    ∀ d ∈ ds, isBlank d = false := by
  obtain ⟨pieces,each,rfl⟩ := recased
  induction each with
  | nil => simp
  | @cons c piece cs pieces kept _ ih =>
    intro d mem
    rcases List.mem_append.mp mem with own | later
    · rw [kept.blank d own,solid c List.mem_cons_self]
    · exact ih (fun e inside => solid e (List.mem_cons_of_mem _ inside)) d later

theorem recasedWord {cs ds : List Char} (recased : Recased cs ds) (word : Word cs) : Word ds := by
  refine ⟨?_,recasedSolid recased word.solid⟩
  obtain ⟨pieces,each,rfl⟩ := recased
  cases each with
  | nil => exact absurd rfl word.nonempty
  | cons kept _ => simp [kept.nonempty]

theorem recasedEmpty {cs ds : List Char} (recased : Recased cs ds) : ds.isEmpty = cs.isEmpty := by
  obtain ⟨pieces,each,rfl⟩ := recased
  cases each with
  | nil => rfl
  | cons kept _ => simp [kept.nonempty]

/- A change of texts that recases every one has the fields about what comes to the edges and about words. -/
theorem recasedEdgewise {f : List Char → List Char} (recased : ∀ cs, Recased cs (f cs))
    (front : ∀ c cs, isMark c = true → f (c :: cs) = c :: f cs)
    (back : ∀ c cs, isMark c = true → f (cs ++ [c]) = f cs ++ [c]) : Edgewise isMark f := by
  have marks : ∀ c piece, Kept c piece → ∀ d ∈ piece, isMark d = isMark c := fun _ _ kept => kept.mark
  exact ⟨front,back,fun cs => recasedFirst marks (recased cs),fun cs => recasedLast marks (recased cs)⟩

/-- A change of texts may be done before or after its words are bared. -/
theorem bareWordsMapped {f : List Char → List Char} (recased : ∀ cs, Recased cs (f cs)) (wordwise : Wordwise f)
    (edgewise : Edgewise isMark f) (cs : List Char) : bareWords (f cs) = (bareWords cs).map f := by
  have edges : strip isMark ∘ f = f ∘ strip isMark := funext (Text.edgewiseStrip edgewise)
  have filled : (fun run : List Char => !run.isEmpty) ∘ f = fun run => !run.isEmpty :=
    funext fun run => by rw [Function.comp_apply,recasedEmpty (recased run)]
  rw [bareWords,bareWords,Text.wordwiseRuns wordwise,List.map_map,edges,← List.map_map,List.filter_map,filled]

theorem foldCharPlain (w : WakeWord) {c : Char} (plain : lowerChar c = [c]) : w.foldChar c = [c] := by
  unfold foldChar
  split
  · rfl
  · exact plain

theorem foldWordwise (w : WakeWord) : Wordwise w.fold where
  nil := rfl
  blank c cs blank := by simp [fold,w.foldCharPlain (blankPlain blank).1]
  word front rest _ _ := by simp [fold]
  kept front := recasedWord (w.foldRecased front)

theorem foldEdgewise (w : WakeWord) : Edgewise isMark w.fold :=
  recasedEdgewise w.foldRecased (fun c cs mark => by simp [fold,w.foldCharPlain (markPlain mark).1])
    fun c cs mark => by simp [fold,w.foldCharPlain (markPlain mark).1]

theorem bareWordsFold (w : WakeWord) (cs : List Char) : bareWords (w.fold cs) = (bareWords cs).map w.fold :=
  bareWordsMapped w.foldRecased w.foldWordwise w.foldEdgewise cs

section
variable {before beyond cs ds : List Char} {c : Char}

theorem casedAppend (uncased : meetsCased beyond = false) : meetsCased (cs ++ beyond) = meetsCased cs := by
  unfold meetsCased at uncased ⊢
  rw [List.dropWhile_append]
  split
  · rename_i empty
    rw [uncased,List.isEmpty_iff.mp empty]
    rfl
  · rename_i nonempty
    obtain ⟨d,more,same⟩ := List.exists_cons_of_ne_nil (l := cs.dropWhile isCaseIgnorable) fun empty =>
      nonempty (by rw [empty]; rfl)
    rw [same]
    rfl

theorem blankUncased (blank : isBlank c = true) : meetsCased (c :: cs) = false := by
  simp [meetsCased,blankStops blank,(blankPlain blank).2.1]

theorem markUncased (mark : isMark c = true) : meetsCased [c] = false := by
  unfold meetsCased
  cases stops : isCaseIgnorable c <;> simp [stops,(markPlain mark).2.1]

theorem endedUncased (ended : Ended cs) : meetsCased cs = false := by
  cases cs with
  | nil => rfl
  | cons c cs => exact blankUncased (ended c rfl)

/- The rule of the final sigma does not see through what meets no letter. -/
theorem lowerBehind (uncased : meetsCased beyond = false) :
    lowerFrom (before ++ beyond) cs = lowerFrom before cs := by
  induction cs generalizing before with
  | nil => rfl
  | cons c rest ih =>
    rw [lowerFrom,lowerFrom,casedAppend uncased,← List.cons_append,ih]

theorem lowerAppend (uncased : meetsCased ds = false) :
    lowerFrom before (cs ++ ds) = lowerFrom before cs ++ lowerFrom (cs.reverse ++ before) ds := by
  induction cs generalizing before with
  | nil => rfl
  | cons c rest ih =>
    rw [List.cons_append,lowerFrom,lowerFrom,casedAppend uncased,ih]
    split <;> simp

theorem lowerPlain (plain : lowerChar c = [c]) (other : c ≠ 'Σ') :
    lowerFrom before (c :: cs) = c :: lowerFrom (c :: before) cs := by
  rw [lowerFrom,if_neg other,plain]
  rfl

theorem lowerBlank (blank : isBlank c = true) : lowerFrom before (c :: cs) = c :: lowerFrom [] cs := by
  obtain ⟨plain,_,other⟩ := blankPlain blank
  rw [lowerPlain plain other]
  have stops : lowerFrom ([] ++ c :: before) cs = lowerFrom [] cs := lowerBehind (blankUncased blank)
  exact congrArg (c :: ·) stops

end

theorem lowerWordwise : Wordwise (lowerFrom []) where
  nil := rfl
  blank c cs blank := lowerBlank blank
  word front rest solid ended := by
    rw [lowerAppend (endedUncased ended)]
    cases rest with
    | nil => rfl
    | cons c cs =>
      have blank : isBlank c = true := ended c rfl
      rw [lowerBlank blank,lowerBlank blank]
  kept front := recasedWord (lowerRecased [] front)

theorem lowerEdgewise : Edgewise isMark (lowerFrom []) := by
  refine recasedEdgewise (lowerRecased []) (fun c cs mark => ?_) fun c cs mark => ?_
  · obtain ⟨plain,_,other⟩ := markPlain mark
    rw [lowerPlain plain other]
    have stops : lowerFrom ([] ++ [c]) cs = lowerFrom [] cs := lowerBehind (markUncased mark)
    exact congrArg (c :: ·) stops
  · obtain ⟨plain,_,other⟩ := markPlain mark
    rw [lowerAppend (markUncased mark),lowerPlain plain other]
    rfl

theorem bareWordsLower (cs : List Char) : bareWords (lowerFrom [] cs) = (bareWords cs).map (lowerFrom []) :=
  bareWordsMapped (lowerRecased []) lowerWordwise lowerEdgewise cs

/-- A capital sigma stands in the text where it ends a word, given what comes before the text, nearest first. -/
def SigmaEnds (before cs : List Char) : Prop := ∃ front after, cs = front ++ 'Σ' :: after ∧
  meetsCased (front.reverse ++ before) = true ∧ meetsCased after = false

theorem sigmaEndsCons (before : List Char) (c : Char) (cs : List Char) : SigmaEnds before (c :: cs) ↔
    (c = 'Σ' ∧ meetsCased before = true ∧ meetsCased cs = false) ∨ SigmaEnds (c :: before) cs := by
  constructor
  · rintro ⟨front,after,split,behind,ends⟩
    cases front with
    | nil =>
      cases split
      exact .inl ⟨rfl,behind,ends⟩
    | cons d front =>
      cases split
      exact .inr ⟨front,after,rfl,by simpa using behind,ends⟩
  · rintro (⟨rfl,behind,ends⟩ | ⟨front,after,rfl,behind,ends⟩)
    · exact ⟨[],cs,rfl,behind,ends⟩
    · exact ⟨c :: front,after,rfl,by simpa using behind,ends⟩

/- The two ways part at a final sigma, and nowhere else. -/
theorem lowerFolds (before cs : List Char) :
    lowerFrom before cs = cs.flatMap lowerChar ↔ ¬ SigmaEnds before cs := by
  induction cs generalizing before with
  | nil => simp [lowerFrom,SigmaEnds]
  | cons c rest ih =>
    rw [sigmaEndsCons,not_or,← ih,lowerFrom,List.flatMap_cons]
    by_cases sigma : c = 'Σ'
    · have small : lowerChar c = ['σ'] := by
        rw [sigma]
        rfl
      rw [if_pos sigma,small]
      by_cases ends : meetsCased before = true ∧ meetsCased rest = false
      · simp [sigma,ends]
      · have inner : (meetsCased before && !meetsCased rest) = false := by
          simpa using ends
        simp [inner,ends]
    · simp [sigma]

instance (before cs : List Char) : Decidable (SigmaEnds before cs) :=
  decidable_of_iff (¬ lowerFrom before cs = cs.flatMap lowerChar) (not_iff_comm.mp (lowerFolds before cs).symm)

end VoiceCommand.WakeWord
