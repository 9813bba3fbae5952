import Mathlib.Data.List.Induction
import VoiceCommand.Text.Replace

/-! Laws of replacing. A text is left as it is if the part to be replaced does not occur in it or is put in again, and
only then; and what stands around it has no say in it if it has neither the first nor the last character of the
part. -/
namespace VoiceCommand.Text

section
variable {needle : List Char} (new : List Char)

theorem replaceSkip (skip : Nat) (cs : List Char) :
    replaceFrom needle new skip cs = replaceFrom needle new 0 (cs.drop skip) := by
  induction skip generalizing cs with
  | zero => rfl
  | succ skip ih =>
    cases cs with
    | nil => rfl
    | cons c rest => exact ih rest

theorem replaceKept {c : Char} {cs : List Char} (absent : ¬ needle <+: c :: cs) :
    replaceFrom needle new 0 (c :: cs) = c :: replaceFrom needle new 0 cs := by
  rw [replaceFrom,if_neg fun here => absent (List.isPrefixOf_iff_prefix.mp here)]

theorem replaceFound (nonempty : needle ≠ []) (rest : List Char) :
    replaceFrom needle new 0 (needle ++ rest) = new ++ replaceFrom needle new 0 rest := by
  obtain ⟨c,more,rfl⟩ := List.exists_cons_of_ne_nil nonempty
  have here : (c :: more).isPrefixOf (c :: (more ++ rest)) = true :=
    List.isPrefixOf_iff_prefix.mpr (List.prefix_append (c :: more) rest)
  rw [List.cons_append,replaceFrom,if_pos here,replaceSkip]
  simp

end

/-- A text is read from the left, and each occurrence of the part as a whole. -/
theorem byOccurrence {needle : List Char} (nonempty : needle ≠ []) {motive : List Char → Prop} (nil : motive [])
    (found : ∀ rest, motive rest → motive (needle ++ rest))
    (kept : ∀ c cs, ¬ needle <+: c :: cs → motive cs → motive (c :: cs)) (cs : List Char) : motive cs := by
  obtain ⟨size,less⟩ : ∃ size, cs.length ≤ size := ⟨_,Nat.le_refl _⟩
  induction size generalizing cs with
  | zero => exact List.length_eq_zero_iff.mp (Nat.le_zero.mp less) ▸ nil
  | succ size ih =>
    cases cs with
    | nil => exact nil
    | cons c cs =>
      by_cases here : needle <+: c :: cs
      · obtain ⟨rest,whole⟩ := here
        have pos := List.length_pos_iff.mpr nonempty
        have count := congrArg List.length whole
        simp only [List.length_append,List.length_cons] at count less
        exact whole ▸ found rest (ih rest (by omega))
      · exact kept c cs here (ih cs (by simpa using less))

section
variable {needle new : List Char} (nonempty : needle ≠ [])
include nonempty

theorem replaceSelf (cs : List Char) : replaceFrom needle needle 0 cs = cs := by
  induction cs using byOccurrence nonempty with
  | nil => rfl
  | found rest ih => rw [replaceFound needle nonempty,ih]
  | kept c cs absent ih => rw [replaceKept needle absent,ih]

theorem replaceShrinks (less : new.length ≤ needle.length) (cs : List Char) :
    (replaceFrom needle new 0 cs).length ≤ cs.length := by
  induction cs using byOccurrence nonempty with
  | nil => exact Nat.le_refl _
  | found rest ih =>
    rw [replaceFound new nonempty,List.length_append,List.length_append]
    omega
  | kept c cs absent ih => simpa [replaceKept new absent] using ih

theorem replaceGrows (more : needle.length ≤ new.length) (cs : List Char) :
    cs.length ≤ (replaceFrom needle new 0 cs).length := by
  induction cs using byOccurrence nonempty with
  | nil => exact Nat.le_refl _
  | found rest ih =>
    rw [replaceFound new nonempty,List.length_append,List.length_append]
    omega
  | kept c cs absent ih => simpa [replaceKept new absent] using ih

/- What is put in and what follows it are both at most as long as before, or both at least. -/
theorem replaceFixed (cs : List Char) :
    replaceFrom needle new 0 cs = cs ↔ (needle <:+: cs → new = needle) := by
  constructor
  · intro fixed
    induction cs using byOccurrence nonempty with
    | nil => exact fun here => absurd (List.infix_nil.mp here) nonempty
    | found rest ih =>
      intro _
      rw [replaceFound new nonempty] at fixed
      have count := congrArg List.length fixed
      simp only [List.length_append] at count
      refine (List.append_inj fixed ?_).1
      rcases Nat.le_total new.length needle.length with less | more
      · have later := replaceShrinks nonempty less rest
        omega
      · have later := replaceGrows nonempty more rest
        omega
    | kept c cs absent ih =>
      intro here
      rw [replaceKept new absent] at fixed
      exact ih (List.cons.inj fixed).2 ((List.infix_cons_iff.mp here).resolve_left absent)
  · intro same
    by_cases here : needle <:+: cs
    · rw [same here,replaceSelf nonempty]
    · clear same
      induction cs with
      | nil => rfl
      | cons c cs ih =>
        rw [List.infix_cons_iff,not_or] at here
        rw [replaceKept new here.1,ih here.2]

end

theorem replaceBehind {needle front : List Char} (new : List Char) {c : Char} (opens : needle.head? = some c)
    (lacks : c ∉ front) (cs : List Char) :
    replaceFrom needle new 0 (front ++ cs) = front ++ replaceFrom needle new 0 cs := by
  induction front with
  | nil => rfl
  | cons d front ih =>
    have other : ¬ needle <+: d :: (front ++ cs) := by
      rintro ⟨rest,whole⟩
      cases needle with
      | nil => cases opens
      | cons e more =>
        cases Option.some.inj opens
        exact lacks ((List.cons.inj whole).1 ▸ List.mem_cons_self)
    rw [List.cons_append,replaceKept new other,ih fun mem => lacks (List.mem_cons_of_mem _ mem)]
    rfl

/- A part that reaches into the text behind would end there. -/
theorem replaceBefore {needle back : List Char} (new : List Char) {c : Char} (ends : needle.getLast? = some c)
    (lacks : c ∉ back) (cs : List Char) :
    replaceFrom needle new 0 (cs ++ back) = replaceFrom needle new 0 cs ++ back := by
  have nonempty : needle ≠ [] := by
    rintro rfl
    cases ends
  have last : c ∈ needle := List.mem_of_getLast? ends
  have within {cs : List Char} (here : needle <+: cs ++ back) : needle <+: cs := by
    obtain ⟨rest,whole⟩ := here
    rcases List.append_eq_append_iff.mp whole with ⟨middle,inside,_⟩ | ⟨middle,longer,tail⟩
    · exact ⟨middle,inside.symm⟩
    · cases middle using List.reverseRecOn with
      | nil => exact ⟨[],by rw [longer,List.append_nil,List.append_nil]⟩
      | append_singleton middle d =>
        rw [longer,← List.append_assoc,List.getLast?_concat] at ends
        exact absurd (by simp [tail,Option.some.inj ends]) lacks
  induction cs using byOccurrence nonempty with
  | nil =>
    refine (replaceFixed nonempty back).mpr fun here => absurd (here.subset last) lacks
  | found rest ih => rw [List.append_assoc,replaceFound new nonempty,replaceFound new nonempty,ih,List.append_assoc]
  | kept d cs absent ih =>
    have apart : ¬ needle <+: d :: cs ++ back := fun here => absent (within here)
    rw [List.cons_append] at apart ⊢
    rw [replaceKept new apart,replaceKept new absent,ih,List.cons_append]

end VoiceCommand.Text
