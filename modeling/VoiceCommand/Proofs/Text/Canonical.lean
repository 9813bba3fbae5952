import VoiceCommand.Proofs.Text.Words

/-! The normal form of a text is tidy, but it is not always reached in one step. The marks are taken off the edges
once, so those that lie behind a blank stay, and come off when the normal form is formed again. -/
namespace VoiceCommand.Text

/-- Every blank is a space between two characters that are not blank. -/
def Tidy (cs : List Char) : Prop := ∀ front c back, cs = front ++ c :: back → isBlank c = true →
  c = ' ' ∧ front.getLast?.any (fun d => !isBlank d) = true ∧ back.head?.any (fun d => !isBlank d) = true

section
variable {cs : List Char} (tidy : Tidy cs)
include tidy

theorem tidyFirst : cs.head?.any isBlank = false := by
  cases cs with
  | nil => rfl
  | cons c rest =>
    cases blank : isBlank c with
    | false => exact blank
    | true => simpa using (tidy [] c rest rfl blank).2.1

theorem tidyLast : cs.getLast?.any isBlank = false := by
  cases cs using List.reverseRecOn with
  | nil => rfl
  | append_singleton rest c =>
    cases blank : isBlank c with
    | false => simpa using blank
    | true => simpa using (tidy rest c [] rfl blank).2.2

end

theorem tidyBehind {front rest : List Char} (tidy : Tidy (front ++ rest))
    (first : rest.head?.any isBlank = false) : Tidy rest := by
  intro before c after split blank
  obtain ⟨space,solid,next⟩ := tidy (front ++ before) c after (by rw [split,List.append_assoc]) blank
  cases before using List.reverseRecOn with
  | nil => simp [split,blank] at first
  | append_singleton before d => exact ⟨space,by simpa using solid,next⟩

section
variable {cs : List Char} (apart : Spaced cs) (space : ∀ c ∈ cs, isBlank c = true → c = ' ')
  (last : cs.getLast?.any isBlank = false)
include apart space last

theorem tidyOf (first : cs.head?.any isBlank = false) : Tidy cs := by
  intro front c back whole blank
  rw [whole] at apart first last
  refine ⟨space c (by simp [whole]) blank,?_,?_⟩
  · cases front using List.reverseRecOn with
    | nil => simp [blank] at first
    | append_singleton front d =>
      have pair : Spaced [d,c] := apart.infix ⟨front,back,by simp⟩
      simpa [Spaced,blank] using pair
  · cases back with
    | nil => simp [blank] at last
    | cons d back =>
      have pair : Spaced [c,d] := apart.infix ⟨front,back,by simp⟩
      simpa [Spaced,blank] using pair

/- A space in front of the first word is lost, and nothing else. -/
theorem spacedAgain : (if cs.head?.any isBlank then [' '] else []) ++ spaced cs = cs := by
  unfold spaced
  induction cs using byWords with
  | nil => rfl
  | blank c cs blank ih =>
    have tail : Spaced cs := apart.infix (List.suffix_cons c cs).isInfix
    cases cs with
    | nil => simp [blank] at last
    | cons d rest =>
      have next : isBlank d = false := by
        have pair : Spaced [c,d] := apart.infix ⟨[],rest,by simp⟩
        simpa [Spaced,blank] using pair
      have later := ih tail (fun e mem => space e (List.mem_cons_of_mem _ mem)) (by simpa using last)
      rw [runsOfBlank blank,space c List.mem_cons_self blank]
      simpa [next,spaceBlank] using later
  | word w rest solid ended ih =>
    obtain ⟨c,others,begins⟩ := List.exists_cons_of_ne_nil solid.nonempty
    have opens : (w ++ rest).head?.any isBlank = false := by
      simpa [begins] using solid.solid c (by simp [begins])
    rw [opens,runsWord solid ended]
    cases rest with
    | nil =>
      have done : runs [] = [] := rfl
      rw [done,List.intercalate_singleton,List.append_nil]
      rfl
    | cons d rest =>
      have blank : isBlank d = true := ended d rfl
      have end' : (d :: rest).getLast?.any isBlank = false := by
        rwa [List.getLast?_append_of_ne_nil w (by simp)] at last
      have behind : Spaced (d :: rest) := apart.infix (List.suffix_append w _).isInfix
      have later := ih behind (fun e mem => space e (List.mem_append_right w mem)) end'
      rw [List.head?_cons,Option.any_some,blank] at later
      have more : runs (d :: rest) ≠ [] := by
        intro empty
        rw [empty] at later
        rw [← later] at end'
        exact absurd end' (by decide)
      rw [joinedCons w more]
      exact congrArg (w ++ ·) later

theorem spacedTidy (first : cs.head?.any isBlank = false) : spaced cs = cs := by
  have whole := spacedAgain apart space last
  rwa [first] at whole

end

section
variable {p : Char → Bool}

theorem stripOpens {c : Char} (kept : p c = false) (cs : List Char) : strip p (c :: cs) = c :: dropEnd p cs := by
  have stays : (c :: cs).dropWhile p = c :: cs := List.dropWhile_cons_of_neg (by simp [kept])
  have alone : [c].dropWhile p = [c] := List.dropWhile_cons_of_neg (by simp [kept])
  rw [strip,stays,dropEnd,dropEnd,List.reverse_cons,List.dropWhile_append]
  split
  · rename_i gone
    rw [alone,List.isEmpty_iff.mp gone]
    rfl
  · rw [List.reverse_append]
    rfl

theorem stripReverse (p : Char → Bool) (cs : List Char) : strip p cs.reverse = (strip p cs).reverse := by
  obtain ⟨front,back,whole,before,behind⟩ := stripParts p cs
  have turned : cs.reverse = back.reverse ++ (strip p cs).reverse ++ front.reverse := by
    conv_lhs => rw [whole]
    simp
  have done : strip p (strip p cs).reverse = (strip p cs).reverse := by
    refine stripDone ?_ ?_
    · rw [List.head?_reverse,stripLast]
    · rw [List.getLast?_reverse,stripFirst]
  rw [turned,stripAround (by simpa using behind) (by simpa using before),done]

end

/-- The text begins with marks, and goes on with marks behind a space; but not all of the rest are marks. -/
def Apart (cs : List Char) : Prop := ∃ marks m rest, cs = marks ++ ' ' :: m :: rest ∧
  (∀ c ∈ marks, isSentenceMark c = true) ∧ isSentenceMark m = true ∧ ∃ c ∈ m :: rest, isSentenceMark c = false

theorem markSolid {c : Char} (mark : isSentenceMark c = true) : isBlank c = false := by
  simp only [isSentenceMark,Bool.or_eq_true,beq_iff_eq,or_assoc] at mark
  rcases mark with rfl | rfl | rfl | rfl | rfl | rfl | rfl <;> rfl

theorem endPlain {p : Char → Bool} {cs : List Char} (nonempty : cs ≠ []) (ends : cs.getLast?.any p = false) :
    ∃ c ∈ cs, p c = false := by
  refine ⟨cs.getLast nonempty,List.getLast_mem nonempty,?_⟩
  rwa [List.getLast?_eq_some_getLast nonempty] at ends

section
variable {cs : List Char}

theorem markedApart (apart : Spaced cs) (space : ∀ c ∈ cs, isBlank c = true → c = ' ')
    (marked : (strip isBlank (strip isSentenceMark cs)).head?.any isSentenceMark = true) : Apart cs := by
  obtain ⟨front,back,whole,before,_⟩ := stripParts isSentenceMark cs
  have first := stripFirst isSentenceMark cs
  have last := stripLast isSentenceMark cs
  generalize strip isSentenceMark cs = core at *
  obtain ⟨lead,tail,inner,blank,_⟩ := stripParts isBlank core
  generalize strip isBlank core = kept at *
  rw [inner] at first last whole
  obtain ⟨m,rest,rfl⟩ : ∃ m rest, kept = m :: rest := List.exists_cons_of_ne_nil (by rintro rfl; simp at marked)
  have mark : isSentenceMark m = true := by simpa using marked
  have alone : Spaced lead := apart.infix ⟨front,m :: rest ++ tail ++ back,by simp [whole]⟩
  have short := spacedAlone alone blank
  rcases lead with _ | ⟨c,_ | ⟨d,more⟩⟩
  · simp [mark] at first
  · have own : c = ' ' := space c (by simp [whole]) (blank c List.mem_cons_self)
    have ends : (m :: rest ++ tail).getLast?.any isSentenceMark = false := by
      rwa [List.append_assoc,List.getLast?_append_of_ne_nil _ (by simp)] at last
    obtain ⟨d,inside,plain⟩ := endPlain (by simp) ends
    refine ⟨front,m,rest ++ tail ++ back,by simp [whole,own],before,mark,d,?_,plain⟩
    exact (List.prefix_append (m :: rest ++ tail) back).subset inside
  · simp at short

theorem apartMarked (apart : Apart cs) :
    (strip isBlank (strip isSentenceMark cs)).head?.any isSentenceMark = true := by
  obtain ⟨marks,m,rest,rfl,before,mark,c,inside,plain⟩ := apart
  have outer : strip isSentenceMark (marks ++ ' ' :: m :: rest ++ []) = strip isSentenceMark (' ' :: m :: rest) :=
    stripAround before (by simp)
  rw [List.append_nil] at outer
  have front : dropEnd isSentenceMark (m :: rest) <+: m :: rest := dropEndPrefix _ _
  have nonempty : dropEnd isSentenceMark (m :: rest) ≠ [] := fun empty => by
    have all : ∀ d ∈ m :: rest, isSentenceMark d = true := List.rdropWhile_eq_nil_iff.mp empty
    simp [all c inside] at plain
  obtain ⟨d,kept,same⟩ := List.exists_cons_of_ne_nil nonempty
  rw [same] at front
  have opens : d = m := (List.cons_prefix_cons.mp front).1
  have inner : strip isBlank ([' '] ++ m :: kept ++ []) = strip isBlank (m :: kept) :=
    stripAround spaceBlank (by simp)
  rw [List.append_nil,stripOpens (markSolid mark)] at inner
  rw [outer,stripOpens (by decide),same,opens]
  change (strip isBlank ([' '] ++ m :: kept)).head?.any isSentenceMark = true
  rw [inner]
  exact mark

end

theorem spacedParts (cs : List Char) :
    Spaced (spaced cs) ∧ ∀ c ∈ spaced cs, isBlank c = true → c = ' ' := by
  refine ⟨joinedSpaced fun _ mem => runsWords mem,fun c mem blank => ?_⟩
  rcases joinedMem mem with space | ⟨w,listed,inside⟩
  · exact space
  · simp [(runsWords listed).solid c inside] at blank

section
variable (s : String)

theorem normalParts : Spaced (normalize s).toList ∧
    (∀ c ∈ (normalize s).toList, isBlank c = true → c = ' ') ∧
    (normalize s).toList.getLast?.any isBlank = false ∧ (normalize s).toList.head?.any isBlank = false := by
  obtain ⟨apart,space⟩ := spacedParts s.toList
  have inside := (stripInfix isBlank (strip isSentenceMark (spaced s.toList))).trans (stripInfix _ _)
  have within : Spaced (strip isBlank (strip isSentenceMark (spaced s.toList))) := apart.infix inside
  rw [normalize,String.toList_ofList]
  exact ⟨within,fun c mem => space c (inside.subset mem),stripLast _ _,stripFirst _ _⟩

theorem normalTidy : Tidy (normalize s).toList := by
  obtain ⟨apart,space,last,first⟩ := normalParts s
  exact tidyOf apart space last first

theorem normalFixed : normalize (normalize s) = normalize s ↔
    (normalize s).toList.head?.any isSentenceMark = false ∧
      (normalize s).toList.getLast?.any isSentenceMark = false := by
  obtain ⟨apart,space,last,first⟩ := normalParts s
  have again : (normalize (normalize s)).toList = strip isBlank (strip isSentenceMark (normalize s).toList) := by
    rw [normalize,String.toList_ofList,spacedTidy apart space last first]
  constructor
  · intro fixed
    rw [fixed] at again
    have inner : (normalize s).toList <:+: strip isSentenceMark (normalize s).toList := by
      conv_lhs => rw [again]
      exact stripInfix _ _
    have same : strip isSentenceMark (normalize s).toList = (normalize s).toList :=
      (stripInfix _ _).eq_of_length_le inner.length_le
    have opens := stripFirst isSentenceMark (normalize s).toList
    have ends := stripLast isSentenceMark (normalize s).toList
    rw [same] at opens ends
    exact ⟨opens,ends⟩
  · rintro ⟨opens,ends⟩
    rw [stripDone opens ends,stripDone first last] at again
    exact String.toList_inj.mp again

/-- The normal form has no blanks but single spaces between its words. It begins with a mark if and only if the text
begins with marks that a space separates from further ones, and likewise at the end; and only if neither is so is it
its own normal form. -/
theorem normalCanonical : Tidy (normalize s).toList ∧
    ((normalize s).toList.head?.any isSentenceMark = true ↔ Apart (spaced s.toList)) ∧
    ((normalize s).toList.getLast?.any isSentenceMark = true ↔ Apart (spaced s.toList).reverse) ∧
    (normalize (normalize s) = normalize s ↔
      ¬ Apart (spaced s.toList) ∧ ¬ Apart (spaced s.toList).reverse) := by
  obtain ⟨apart,space⟩ := spacedParts s.toList
  have shape : (normalize s).toList = strip isBlank (strip isSentenceMark (spaced s.toList)) := String.toList_ofList
  have opens : (normalize s).toList.head?.any isSentenceMark = true ↔ Apart (spaced s.toList) := by
    rw [shape]
    exact ⟨markedApart apart space,apartMarked⟩
  have ends : (normalize s).toList.getLast?.any isSentenceMark = true ↔ Apart (spaced s.toList).reverse := by
    have turned : Spaced (spaced s.toList).reverse :=
      List.isChain_reverse.mpr (apart.imp fun _ _ => Or.symm)
    rw [shape,← List.head?_reverse,← stripReverse,← stripReverse]
    exact ⟨markedApart turned fun c mem => space c (List.mem_reverse.mp mem),apartMarked⟩
  refine ⟨normalTidy s,opens,ends,?_⟩
  rw [normalFixed,← opens,← ends,Bool.not_eq_true,Bool.not_eq_true]

end

/- Of the two marks in front the second is left. -/
theorem markLeft : normalize "! ! mute" = "! mute" ∧
    (normalize "! ! mute").toList.head?.any isSentenceMark = true ∧
    normalize (normalize "! ! mute") = "mute" ∧
    normalize (normalize "! ! mute") ≠ normalize "! ! mute" := by
  decide +kernel

end VoiceCommand.Text
