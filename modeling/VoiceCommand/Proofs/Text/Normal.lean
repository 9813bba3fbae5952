import Mathlib.Data.List.Chain
import Mathlib.Data.List.DropRight
import VoiceCommand.Text.Normal
import VoiceCommand.Text.Word

/-! Blanks and the normal form of a text. No two blanks stand next to each other in it, and the blanks around
a text do not matter to it. -/
namespace VoiceCommand.Text

def blankPoints : List Nat :=
  [9,10,11,12,13,0x20,0x85,0xA0,0x1680,0x2000,0x2001,0x2002,0x2003,0x2004,0x2005,0x2006,0x2007,0x2008,
    0x2009,0x200A,0x2028,0x2029,0x202F,0x205F,0x3000]

theorem blankPoint {c : Char} (blank : isBlank c = true) : c.toNat ∈ blankPoints := by
  simp only [isBlank,Bool.or_eq_true,Bool.and_eq_true,decide_eq_true_eq,beq_iff_eq] at blank
  simp only [blankPoints,List.mem_cons,List.not_mem_nil,or_false]
  omega

theorem digitSolid {c : Char} (digit : isDigit c = true) : isBlank c = false := by
  cases blank : isBlank c with
  | false => rfl
  | true =>
    have apart : ∀ n ∈ blankPoints, inRanges n digitRanges = false ∧ ¬ (48 ≤ n ∧ n ≤ 57) := by decide +kernel
    obtain ⟨beyond,ascii⟩ := apart c.toNat (blankPoint blank)
    unfold isDigit at digit
    split at digit
    · simp only [Char.isDigit,Bool.and_eq_true,decide_eq_true_eq,ge_iff_le,UInt32.le_iff_toNat_le] at digit
      exact absurd digit ascii
    · simp [beyond] at digit

theorem dropEndPrefix (p : Char → Bool) (cs : List Char) : dropEnd p cs <+: cs := cs.rdropWhile_prefix p

theorem stripInfix (p : Char → Bool) (cs : List Char) : strip p cs <:+: cs :=
  (dropEndPrefix p _).isInfix.trans (List.dropWhile_suffix p).isInfix

theorem stripFirst (p : Char → Bool) (cs : List Char) : (strip p cs).head?.any p = false := by
  obtain ⟨cut,rest⟩ := dropEndPrefix p (cs.dropWhile p)
  have first := List.head?_dropWhile_not p cs
  change (dropEnd p (cs.dropWhile p)).head?.any p = false
  cases same : dropEnd p (cs.dropWhile p) with
  | nil => rfl
  | cons c kept =>
    rw [← rest,same] at first
    exact first

theorem stripLast (p : Char → Bool) (cs : List Char) : (strip p cs).getLast?.any p = false := by
  cases last : (strip p cs).getLast? with
  | none => rfl
  | some c =>
    have nonempty : strip p cs ≠ [] := fun empty => by simp [empty] at last
    have kept := List.rdropWhile_last_not p (cs.dropWhile p) nonempty
    have same : (strip p cs).getLast nonempty = c :=
      Option.some.inj ((List.getLast?_eq_some_getLast nonempty).symm.trans last)
    change ¬ p ((strip p cs).getLast nonempty) = true at kept
    rw [same] at kept
    simpa using kept

theorem stripKeeps {p : Char → Bool} {cs : List Char} {c : Char} (mem : c ∈ cs) (kept : p c = false) :
    strip p cs ≠ [] := by
  intro empty
  have gone : ∀ d ∈ cs.dropWhile p, p d = true := List.rdropWhile_eq_nil_iff.mp empty
  rw [← cs.takeWhile_append_dropWhile (p := p)] at mem
  rcases List.mem_append.mp mem with mem | mem
  · simp [List.mem_takeWhile_imp mem] at kept
  · simp [gone c mem] at kept

section
variable {c d : Char} {cs : List Char}

theorem runsCons (c : Char) (cs : List Char) : runs (c :: cs) =
    if isBlank c then runs cs
    else match cs, runs cs with
      | d :: _, r :: rs => if isBlank d then [c] :: r :: rs else (c :: r) :: rs
      | _, rs => [c] :: rs := rfl

theorem runsLast (solid : isBlank c = false) : runs [c] = [[c]] := by
  rw [runsCons,if_neg (by simp [solid])]
  rfl

theorem runsOfBlank (blank : isBlank c = true) (cs : List Char) : runs (c :: cs) = runs cs := by
  rw [runsCons,if_pos blank]

theorem runsBeforeBlank (solid : isBlank c = false) (blank : isBlank d = true) (cs : List Char) :
    runs (c :: d :: cs) = [c] :: runs (d :: cs) := by
  rw [runsCons,if_neg (by simp [solid])]
  cases runs (d :: cs) <;> simp [blank]

theorem runsWithin (solid : isBlank c = false) (next : isBlank d = false) (cs : List Char) :
    ∃ run others, runs (d :: cs) = run :: others ∧ runs (c :: d :: cs) = (c :: run) :: others := by
  have nonempty : runs (d :: cs) ≠ [] := by
    rw [runsCons,if_neg (by simp [next])]
    split
    · split <;> simp
    · simp
  obtain ⟨run,others,same⟩ := List.exists_cons_of_ne_nil nonempty
  refine ⟨run,others,same,?_⟩
  rw [runsCons,if_neg (by simp [solid]),same]
  simp [next]

theorem runsOfBlanks (blank : ∀ c ∈ cs, isBlank c = true) : runs cs = [] := by
  induction cs with
  | nil => rfl
  | cons c rest ih =>
    rw [runsOfBlank (blank c List.mem_cons_self)]
    exact ih fun d mem => blank d (List.mem_cons_of_mem _ mem)

theorem runsBeforeBlanks (cs : List Char) {blanks : List Char} (blank : ∀ c ∈ blanks, isBlank c = true) :
    runs (cs ++ blanks) = runs cs := by
  induction cs with
  | nil => exact runsOfBlanks blank
  | cons c rest ih =>
    rw [List.cons_append,runsCons,ih,runsCons]
    cases rest with
    | nil => cases blanks <;> rfl
    | cons d rest => cases runs (d :: rest) <;> rfl

theorem runsAfterBlanks (cs : List Char) : runs (cs.dropWhile isBlank) = runs cs := by
  induction cs with
  | nil => rfl
  | cons c rest ih =>
    rw [List.dropWhile_cons]
    split
    · rename_i blank
      rw [ih,runsOfBlank blank]
    · rfl

end

theorem runsStrip (cs : List Char) : runs (strip isBlank cs) = runs cs := by
  have whole : strip isBlank cs ++ (cs.dropWhile isBlank).rtakeWhile isBlank = cs.dropWhile isBlank :=
    List.rdropWhile_append_rtakeWhile
  rw [← runsAfterBlanks cs,← whole]
  exact (runsBeforeBlanks _ fun c mem => List.mem_rtakeWhile_imp mem).symm

theorem normalizeTrim (s : String) : normalize (trim s) = normalize s := by
  simp only [normalize,spaced,trim,String.toList_ofList,runsStrip]

structure Word (cs : List Char) : Prop where
  nonempty : cs ≠ []
  solid : ∀ c ∈ cs, isBlank c = false

/- Along the text: a character that is not blank begins a run of its own or joins the one behind it. -/
theorem runsWords {cs run : List Char} (mem : run ∈ runs cs) : Word run := by
  induction cs generalizing run with
  | nil => cases mem
  | cons c rest ih =>
    cases blank : isBlank c with
    | true =>
      rw [runsOfBlank blank] at mem
      exact ih mem
    | false =>
      have alone : Word [c] := ⟨by simp,by simpa using blank⟩
      cases rest with
      | nil =>
        have own : run = [c] := by simpa [runsLast blank] using mem
        exact own ▸ alone
      | cons d rest =>
        cases next : isBlank d with
        | true =>
          rw [runsBeforeBlank blank next] at mem
          rcases List.mem_cons.mp mem with rfl | mem
          · exact alone
          · exact ih mem
        | false =>
          obtain ⟨first,others,behind,joined⟩ := runsWithin blank next rest
          rw [joined] at mem
          rcases List.mem_cons.mp mem with rfl | mem
          · have word := ih (by rw [behind]; exact List.mem_cons_self)
            exact ⟨by simp,List.forall_mem_cons.mpr ⟨blank,word.solid⟩⟩
          · exact ih (by rw [behind]; exact List.mem_cons_of_mem _ mem)

/-- Every blank stands alone. -/
def Spaced (cs : List Char) : Prop := cs.IsChain fun c d => isBlank c = false ∨ isBlank d = false

theorem spacedAlone {blanks : List Char} (spaced : Spaced blanks) (blank : ∀ c ∈ blanks, isBlank c = true) :
    blanks.length ≤ 1 := by
  cases blanks with
  | nil => simp
  | cons b rest =>
    cases rest with
    | nil => simp
    | cons c rest =>
      unfold Spaced at spaced
      rw [List.isChain_cons_cons,blank b (by simp),blank c (by simp)] at spaced
      simp at spaced

theorem wordSpaced {cs : List Char} (word : Word cs) : Spaced cs :=
  (List.pairwise_of_forall_mem_list fun c mem _ _ => .inl (word.solid c mem)).isChain

theorem joinedCons (word : List Char) {words : List (List Char)} (nonempty : words ≠ []) :
    [' '].intercalate (word :: words) = word ++ ' ' :: [' '].intercalate words := by
  obtain ⟨v,rest,rfl⟩ := List.exists_cons_of_ne_nil nonempty
  simp [List.intercalate]

theorem joinedSpaced {words : List (List Char)} (all : ∀ w ∈ words, Word w) :
    Spaced ([' '].intercalate words) := by
  induction words with
  | nil => exact .nil
  | cons w rest ih =>
    have first := all w List.mem_cons_self
    have later := ih fun v mem => all v (List.mem_cons_of_mem _ mem)
    cases rest with
    | nil => simpa [List.intercalate] using wordSpaced first
    | cons v rest =>
      have next := all v (by simp)
      obtain ⟨c,cs,begins⟩ := List.exists_cons_of_ne_nil next.nonempty
      have opens : ∀ d ∈ ([' '].intercalate (v :: rest)).head?, isBlank d = false := by
        intro d here
        have same : d = c := by cases rest <;> simpa [List.intercalate,begins] using here.symm
        exact next.solid d (by simp [begins,same])
      rw [joinedCons w (by simp)]
      refine (wordSpaced first).append (List.isChain_cons.mpr ⟨fun d here => .inr (opens d here),later⟩) ?_
      intro d last _ _
      exact .inl (first.solid d (List.mem_of_getLast? last))

theorem normalSpaced (s : String) : Spaced (normalize s).toList := by
  have joined : Spaced (spaced s.toList) := joinedSpaced fun _ mem => runsWords mem
  rw [normalize,String.toList_ofList]
  exact joined.infix ((stripInfix _ _).trans (stripInfix _ _))

theorem joinedMem {words : List (List Char)} {c : Char} (mem : c ∈ [' '].intercalate words) :
    c = ' ' ∨ ∃ w ∈ words, c ∈ w := by
  induction words with
  | nil => simp [List.intercalate] at mem
  | cons w rest ih =>
    by_cases last : rest = []
    · subst last
      exact .inr ⟨w,by simp,by simpa [List.intercalate] using mem⟩
    · rw [joinedCons w last] at mem
      rcases List.mem_append.mp mem with inside | later
      · exact .inr ⟨w,List.mem_cons_self,inside⟩
      · rcases List.mem_cons.mp later with rfl | later
        · exact .inl rfl
        · rcases ih later with space | ⟨v,listed,inside⟩
          · exact .inl space
          · exact .inr ⟨v,List.mem_cons_of_mem _ listed,inside⟩

theorem normalLine (s : String) : '\n' ∉ (normalize s).toList := by
  intro mem
  rw [normalize,String.toList_ofList] at mem
  have inside := ((stripInfix _ _).trans (stripInfix _ _)).subset mem
  rcases joinedMem inside with space | ⟨w,listed,within⟩
  · exact absurd space (by decide)
  · exact absurd ((runsWords listed).solid _ within) (by decide)

theorem spacedShorter (cs : List Char) :
    (spaced cs).length + (if cs.head?.any isBlank then 1 else 0) ≤ cs.length := by
  induction cs with
  | nil => rfl
  | cons c rest ih =>
    cases blank : isBlank c with
    | true =>
      rw [spaced,runsOfBlank blank]
      simp only [spaced] at ih
      simp [blank]
      omega
    | false =>
      cases rest with
      | nil => simp [spaced,runsLast blank,List.intercalate,blank]
      | cons d rest =>
        simp only [spaced] at ih ⊢
        cases next : isBlank d with
        | true =>
          rw [runsBeforeBlank blank next]
          by_cases last : runs (d :: rest) = []
          · simp [last,List.intercalate,blank]
          · rw [joinedCons [c] last]
            simp [next,blank] at ih ⊢
            omega
        | false =>
          obtain ⟨run,others,behind,joined⟩ := runsWithin blank next rest
          rw [behind] at ih
          rw [joined]
          have longer : ([' '].intercalate ((c :: run) :: others)).length =
              ([' '].intercalate (run :: others)).length + 1 := by
            cases others <;> simp [List.intercalate]
          simp [next,blank] at ih ⊢
          omega

theorem normalShorter (s : String) : (normalize s).toList.length ≤ s.toList.length := by
  rw [normalize,String.toList_ofList]
  have cut := ((stripInfix isBlank _).trans (stripInfix isSentenceMark (spaced s.toList))).length_le
  have spread := spacedShorter s.toList
  omega

end VoiceCommand.Text
