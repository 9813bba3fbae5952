import VoiceCommand.Proofs.Text.Case

/-! Texts read word by word. What is done to the blanks and the words of a text one after the other is done to its
list of words; and what leaves the characters at the edges of a word as they are may be done before or after these
are removed. -/
namespace VoiceCommand.Text

/-- Nothing follows, or a blank. -/
def Ended (rest : List Char) : Prop := ∀ c ∈ rest.head?, isBlank c = true

theorem runsWord {word rest : List Char} (solid : Word word) (ended : Ended rest) :
    runs (word ++ rest) = word :: runs rest := by
  induction word with
  | nil => exact absurd rfl solid.nonempty
  | cons c others ih =>
    have first : isBlank c = false := solid.solid c List.mem_cons_self
    cases others with
    | nil =>
      cases rest with
      | nil => rw [List.append_nil,runsLast first]; rfl
      | cons d rest =>
        have blank : isBlank d = true := ended d rfl
        rw [List.singleton_append,runsBeforeBlank first blank]
    | cons d others =>
      have later : Word (d :: others) :=
        ⟨List.cons_ne_nil d others,fun e mem => solid.solid e (List.mem_cons_of_mem _ mem)⟩
      obtain ⟨run,behind,tail,joined⟩ := runsWithin first (later.solid d List.mem_cons_self) (others ++ rest)
      obtain ⟨same,left⟩ := List.cons.inj (tail.symm.trans (ih later))
      rw [List.cons_append,List.cons_append,joined,same,left]

/- Induction from word to word. -/
theorem byWords {motive : List Char → Prop} (nil : motive [])
    (blank : ∀ c cs, isBlank c = true → motive cs → motive (c :: cs))
    (word : ∀ w rest, Word w → Ended rest → motive rest → motive (w ++ rest)) (cs : List Char) : motive cs := by
  induction size : cs.length using Nat.strongRecOn generalizing cs with
  | ind n ih =>
    cases cs with
    | nil => exact nil
    | cons c cs =>
      cases first : isBlank c with
      | true =>
        have shorter : cs.length < n := by rw [← size]; exact Nat.lt_succ_self _
        exact blank c cs first (ih cs.length shorter cs rfl)
      | false =>
        let w := (c :: cs).takeWhile fun d => !isBlank d
        let rest := (c :: cs).dropWhile fun d => !isBlank d
        have begins : w = c :: cs.takeWhile fun d => !isBlank d := List.takeWhile_cons_of_pos (by simp [first])
        have solid : Word w := by
          refine ⟨by simp [begins],fun d mem => ?_⟩
          simpa using List.mem_takeWhile_imp mem
        have ended : Ended rest := fun d here => by
          have outside := List.head?_dropWhile_not (fun d => !isBlank d) (c :: cs)
          change rest.head? = some d at here
          rw [show ((c :: cs).dropWhile fun d => !isBlank d).head? = some d from here] at outside
          simpa using outside
        have whole : w ++ rest = c :: cs := List.takeWhile_append_dropWhile
        have shorter : rest.length < n := by
          have sizes := congrArg List.length whole
          rw [begins,List.length_append,size] at sizes
          simp only [List.length_cons] at sizes
          omega
        rw [← whole]
        exact word w rest solid ended (ih rest.length shorter rest rfl)

/-- A change of texts that changes them word by word. -/
structure Wordwise (f : List Char → List Char) : Prop where
  nil : f [] = []
  blank : ∀ c cs, isBlank c = true → f (c :: cs) = c :: f cs
  word : ∀ w rest, Word w → Ended rest → f (w ++ rest) = f w ++ f rest
  kept : ∀ w, Word w → Word (f w)

theorem wordwiseRuns {f : List Char → List Char} (wordwise : Wordwise f) (cs : List Char) :
    runs (f cs) = (runs cs).map f := by
  induction cs using byWords with
  | nil =>
    rw [wordwise.nil]
    rfl
  | blank c cs blank ih => rw [wordwise.blank c cs blank,runsOfBlank blank,runsOfBlank blank,ih]
  | word w rest solid ended ih =>
    have left : Ended (f rest) := by
      cases rest with
      | nil => simp [Ended,wordwise.nil]
      | cons c cs =>
        have blank : isBlank c = true := ended c rfl
        rw [wordwise.blank c cs blank]
        simpa [Ended] using blank
    rw [wordwise.word w rest solid ended,runsWord (wordwise.kept w solid) left,runsWord solid ended,
      List.map_cons,ih]

/- What begins and ends with other characters and is no longer than the blanks between two parts of a text lies in
one of these parts. -/
theorem infixBeside {needle front gap back : List Char} (nonempty : needle ≠ [])
    (first : needle.head?.any isBlank = false) (last : needle.getLast?.any isBlank = false)
    (blank : ∀ c ∈ gap, isBlank c = true) (short : needle.length ≤ gap.length)
    (inside : needle <:+: front ++ (gap ++ back)) : needle <:+: front ∨ needle <:+: back := by
  obtain ⟨before,after,whole⟩ := inside
  rw [List.append_assoc] at whole
  rcases List.append_eq_append_iff.mp whole with ⟨own,rfl,place⟩ | ⟨beyond,rfl,place⟩
  · rcases List.append_eq_append_iff.mp place with ⟨rest,rfl,_⟩ | ⟨across,rfl,tail⟩
    · exact .inl ⟨before,rest,by simp⟩
    · cases across using List.reverseRecOn with
      | nil => exact .inl ⟨before,[],by simp⟩
      | append_singleton across c =>
        have within : across ++ [c] <+: gap := by
          have begins : across ++ [c] <+: gap ++ back := ⟨after,tail.symm⟩
          refine List.prefix_of_prefix_length_le begins (List.prefix_append gap back) ?_
          simp only [List.length_append] at short ⊢
          omega
        have spans := blank c (within.subset (by simp))
        simp [spans] at last
  · rcases List.append_eq_append_iff.mp place with ⟨rest,_,rfl⟩ | ⟨across,rfl,tail⟩
    · exact .inr ⟨rest,after,by simp⟩
    · cases across with
      | nil => exact .inr ⟨[],after,by simpa using tail⟩
      | cons c across =>
        obtain ⟨d,others,rfl⟩ := List.exists_cons_of_ne_nil nonempty
        obtain ⟨same,_⟩ := List.cons.inj tail
        have spans := blank c (by simp)
        simp [same,spans] at first

theorem spaceBlank : ∀ c ∈ [' '], isBlank c = true := by
  intro c mem
  rw [List.mem_singleton.mp mem]
  decide

section
variable {gap : List Char} {words : List (List Char)} (blank : ∀ c ∈ gap, isBlank c = true)
include blank

theorem runsJoined (nonempty : gap ≠ []) (solid : ∀ word ∈ words, Word word) :
    runs (gap.intercalate words) = words := by
  induction words with
  | nil => rfl
  | cons word rest ih =>
    have first := solid word List.mem_cons_self
    cases rest with
    | nil =>
      have alone : runs (word ++ []) = word :: runs [] := runsWord first (by simp [Ended])
      rw [List.intercalate_singleton,← List.append_nil word,alone,List.append_nil]
      rfl
    | cons next rest =>
      have ended : Ended (gap ++ gap.intercalate (next :: rest)) := by
        obtain ⟨c,more,rfl⟩ := List.exists_cons_of_ne_nil nonempty
        simp [Ended,blank c List.mem_cons_self]
      rw [List.intercalate_cons_cons,List.append_assoc,runsWord first ended,← runsAfterBlanks,
        List.dropWhile_append_of_pos blank,runsAfterBlanks,ih fun w mem => solid w (List.mem_cons_of_mem _ mem)]

theorem infixJoined {needle : List Char} (filled : needle ≠ []) (first : needle.head?.any isBlank = false)
    (last : needle.getLast?.any isBlank = false) (short : needle.length ≤ gap.length)
    (inside : needle <:+: gap.intercalate words) : ∃ word ∈ words, needle <:+: word := by
  induction words with
  | nil => exact absurd (List.infix_nil.mp inside) filled
  | cons word rest ih =>
    cases rest with
    | nil => exact ⟨word,List.mem_cons_self,by rwa [List.intercalate_singleton] at inside⟩
    | cons next rest =>
      rw [List.intercalate_cons_cons,List.append_assoc] at inside
      rcases infixBeside filled first last blank short inside with here | later
      · exact ⟨word,List.mem_cons_self,here⟩
      · obtain ⟨found,mem,holds⟩ := ih later
        exact ⟨found,List.mem_cons_of_mem _ mem,holds⟩

end

theorem runsInfix {cs run : List Char} (mem : run ∈ runs cs) : run <:+: cs := by
  induction cs using byWords with
  | nil => cases mem
  | blank c cs blank ih =>
    rw [runsOfBlank blank] at mem
    exact (ih mem).trans (List.suffix_cons c cs).isInfix
  | word w rest solid ended ih =>
    rw [runsWord solid ended] at mem
    rcases List.mem_cons.mp mem with rfl | mem
    · exact (List.prefix_append _ _).isInfix
    · exact (ih mem).trans (List.suffix_append _ _).isInfix

section
variable {p : Char → Bool} {front core back cs : List Char}

theorem stripParts (p : Char → Bool) (cs : List Char) : ∃ front back, cs = front ++ strip p cs ++ back ∧
    (∀ c ∈ front, p c = true) ∧ ∀ c ∈ back, p c = true := by
  refine ⟨cs.takeWhile p,(cs.dropWhile p).rtakeWhile p,?_,fun c => List.mem_takeWhile_imp,
    fun c => List.mem_rtakeWhile_imp⟩
  have inner : strip p cs ++ (cs.dropWhile p).rtakeWhile p = cs.dropWhile p :=
    List.rdropWhile_append_rtakeWhile
  rw [List.append_assoc,inner,List.takeWhile_append_dropWhile]

theorem stripAround (before : ∀ c ∈ front, p c = true) (behind : ∀ c ∈ back, p c = true) :
    strip p (front ++ core ++ back) = strip p core := by
  have trailing (ds : List Char) : dropEnd p (ds ++ back) = dropEnd p ds := by
    rw [dropEnd,List.reverse_append,List.dropWhile_append_of_pos (by simpa using behind),dropEnd]
  rw [strip,List.append_assoc,List.dropWhile_append_of_pos before,List.dropWhile_append,strip]
  split
  · rename_i gone
    rw [List.dropWhile_eq_nil_iff.mpr behind,List.isEmpty_iff.mp gone]
  · exact trailing _

theorem stripTwice (p : Char → Bool) (cs : List Char) : strip p (strip p cs) = strip p cs :=
  stripDone (stripFirst p cs) (stripLast p cs)

/-- A change of texts under which the characters of this kind at the edges stay, and no others come to the edges. -/
structure Edgewise (p : Char → Bool) (f : List Char → List Char) : Prop where
  front : ∀ c cs, p c = true → f (c :: cs) = c :: f cs
  back : ∀ c cs, p c = true → f (cs ++ [c]) = f cs ++ [c]
  first : ∀ cs, (f cs).head?.any p = cs.head?.any p
  last : ∀ cs, (f cs).getLast?.any p = cs.getLast?.any p

section
variable {f : List Char → List Char} (edgewise : Edgewise p f)
include edgewise

theorem edgewiseFront (before : ∀ c ∈ front, p c = true) : f (front ++ cs) = front ++ f cs := by
  induction front with
  | nil => rfl
  | cons c others ih =>
    rw [List.cons_append,edgewise.front c _ (before c List.mem_cons_self),
      ih fun d mem => before d (List.mem_cons_of_mem _ mem),List.cons_append]

theorem edgewiseBack (behind : ∀ c ∈ back, p c = true) : f (cs ++ back) = f cs ++ back := by
  induction back generalizing cs with
  | nil => simp
  | cons c others ih =>
    rw [List.append_cons,ih fun d mem => behind d (List.mem_cons_of_mem _ mem),
      edgewise.back c _ (behind c List.mem_cons_self),← List.append_cons]

theorem edgewiseStrip (cs : List Char) : strip p (f cs) = f (strip p cs) := by
  obtain ⟨front,back,whole,before,behind⟩ := stripParts p cs
  have changed : f cs = front ++ f (strip p cs) ++ back := by
    rw [whole,edgewiseBack edgewise behind,edgewiseFront edgewise before,← whole]
  rw [changed,stripAround before behind]
  exact stripDone (by rw [edgewise.first,stripFirst]) (by rw [edgewise.last,stripLast])

end

end

end VoiceCommand.Text
