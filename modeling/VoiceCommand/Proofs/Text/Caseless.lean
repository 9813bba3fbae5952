import VoiceCommand.Proofs.Text.Case
import VoiceCommand.Text.Replace

/-! Texts up to the case of ASCII letters. Everything that is asked of a character but its lower case has one answer
for both cases of a letter, so what takes texts apart may be done before or after the letters are made small. -/
namespace VoiceCommand.Text

def capitals : List Char := (List.range' 65 26).map Char.ofNat

theorem capitalOrFixed (c : Char) : c ∈ capitals ∨ c.toLower = c := by
  by_cases capital : 65 ≤ c.toNat ∧ c.toNat ≤ 90
  · refine .inl (List.mem_map.mpr ⟨c.toNat,?_,Char.ofNat_toNat c⟩)
    rw [List.mem_range'_1]
    omega
  · exact .inr (Char.toNat_inj.mp (by rw [lowerNumber,if_neg capital]))

/-- What is asked of a character but its case. -/
structure Traits where
  small : Char
  lower : List Char
  blank : Bool
  mark : Bool
  word : Bool
  digit : Bool
  cased : Bool
  ignorable : Bool
  newline : Bool
  sigma : Bool
  longS : Bool
  kelvin : Bool
  deriving DecidableEq

def traits (c : Char) : Traits :=
  ⟨c.toLower,lowerChar c,isBlank c,isSentenceMark c,isWord c,isDigit c,isCased c,isCaseIgnorable c,c == '\n',c == 'Σ',
    c == 'ſ',c == '\u212a'⟩

/- What has to be looked at are the capitals, one by one. -/
theorem traitsCaseless (c : Char) : traits c.toLower = traits c := by
  have small : (capitals.all fun c => traits c.toLower = traits c) = true := by decide +kernel
  rcases capitalOrFixed c with capital | fixed
  · exact of_decide_eq_true (List.all_eq_true.mp small c capital)
  · rw [fixed]

@[simp] theorem lowerTwice (c : Char) : c.toLower.toLower = c.toLower := congrArg Traits.small (traitsCaseless c)

@[simp] theorem blankCaseless (c : Char) : isBlank c.toLower = isBlank c := congrArg Traits.blank (traitsCaseless c)

@[simp] theorem markCaseless (c : Char) : isSentenceMark c.toLower = isSentenceMark c :=
  congrArg Traits.mark (traitsCaseless c)

@[simp] theorem wordCaseless (c : Char) : isWord c.toLower = isWord c := congrArg Traits.word (traitsCaseless c)

@[simp] theorem digitCaseless (c : Char) : isDigit c.toLower = isDigit c := congrArg Traits.digit (traitsCaseless c)

theorem newlineCaseless (c : Char) : (c.toLower == '\n') = (c == '\n') := congrArg Traits.newline (traitsCaseless c)

theorem lowerCharCaseless (c : Char) : lowerChar c.toLower = lowerChar c := congrArg Traits.lower (traitsCaseless c)

theorem casedCaseless (c : Char) : isCased c.toLower = isCased c := congrArg Traits.cased (traitsCaseless c)

theorem ignorableCaseless (c : Char) : isCaseIgnorable c.toLower = isCaseIgnorable c :=
  congrArg Traits.ignorable (traitsCaseless c)

theorem sigmaCaseless (c : Char) : c.toLower = 'Σ' ↔ c = 'Σ' :=
  beq_eq_beq.mp (congrArg Traits.sigma (traitsCaseless c))

section
variable {p : Char → Bool} (same : ∀ c, p c.toLower = p c)
include same

theorem dropWhileCaseless (cs : List Char) : (asciiLower cs).dropWhile p = asciiLower (cs.dropWhile p) := by
  rw [asciiLower,List.dropWhile_map,show p ∘ Char.toLower = p from funext same,asciiLower]

theorem stripCaseless (cs : List Char) : strip p (asciiLower cs) = asciiLower (strip p cs) := by
  have reversed (ds : List Char) : (asciiLower ds).reverse = asciiLower ds.reverse := List.map_reverse.symm
  simp only [strip,dropEnd,dropWhileCaseless same,reversed]

end

theorem runsCaseless (cs : List Char) : runs (asciiLower cs) = (runs cs).map asciiLower := by
  induction cs with
  | nil => rfl
  | cons c rest ih =>
    rw [asciiLower,List.map_cons,runsCons,runsCons,blankCaseless]
    change runs (rest.map Char.toLower) = _ at ih
    rw [ih]
    cases rest with
    | nil => split <;> rfl
    | cons d rest =>
      cases runs (d :: rest) with
      | nil => split <;> rfl
      | cons run others =>
        simp only [List.map_cons,blankCaseless]
        split
        · rfl
        · split <;> rfl

theorem spacedCaseless (cs : List Char) : spaced (asciiLower cs) = asciiLower (spaced cs) := by
  rw [spaced,runsCaseless,spaced]
  induction runs cs with
  | nil => rfl
  | cons run others ih =>
    cases others with
    | nil => simp [List.intercalate]
    | cons next others =>
      rw [List.map_cons,joinedCons _ (by simp),joinedCons _ (by simp),ih]
      simp [asciiLower]

theorem meetsCasedCaseless (cs : List Char) : meetsCased (asciiLower cs) = meetsCased cs := by
  rw [meetsCased,dropWhileCaseless ignorableCaseless,asciiLower,List.head?_map,Option.any_map,meetsCased]
  exact congrArg (Option.any · _) (funext casedCaseless)

/- The rule of the final sigma looks at what has a case, not at which case it has. -/
theorem lowerFromCaseless (before cs : List Char) :
    lowerFrom (asciiLower before) (asciiLower cs) = lowerFrom before cs := by
  induction cs generalizing before with
  | nil => rfl
  | cons c rest ih =>
    have later := ih (c :: before)
    simp only [asciiLower,List.map_cons] at later ⊢
    simp only [lowerFrom,later,sigmaCaseless,lowerCharCaseless]
    rw [← asciiLower,← asciiLower,meetsCasedCaseless,meetsCasedCaseless]

/-- The text with its ASCII letters made small. -/
def lowered (s : String) : String := String.ofList (asciiLower s.toList)

@[simp] theorem loweredChars (s : String) : (lowered s).toList = asciiLower s.toList := String.toList_ofList

theorem loweredOfList (cs : List Char) : lowered (String.ofList cs) = String.ofList (asciiLower cs) := by
  rw [lowered,String.toList_ofList]

theorem sameLowered {a b : String} : sameName a b = true ↔ lowered a = lowered b := by
  rw [sameName,beq_iff_eq,lowered,lowered,String.ofList_inj]

theorem loweredTwice (s : String) : lowered (lowered s) = lowered s := sameLowered.mp (by simp [sameName,asciiLower])

theorem trimCaseless (s : String) : trim (lowered s) = lowered (trim s) := by
  rw [trim,trim,loweredOfList,loweredChars,stripCaseless blankCaseless]

theorem normalizeCaseless (s : String) : normalize (lowered s) = lowered (normalize s) := by
  rw [normalize,normalize,loweredOfList,loweredChars,spacedCaseless,stripCaseless markCaseless,
    stripCaseless blankCaseless]

theorem lowerCaseless (s : String) : lower (lowered s) = lower s := by
  rw [lower,loweredChars,lower]
  exact congrArg String.ofList (lowerFromCaseless [] s.toList)

/- The text that is put in is not searched, so it may be made small afterwards. -/
theorem replaceFromCaseless (needle new : List Char) (skip : Nat) (cs : List Char) :
    asciiLower (replaceFrom needle (asciiLower new) skip cs) = asciiLower (replaceFrom needle new skip cs) := by
  induction cs generalizing skip with
  | nil => cases skip <;> rfl
  | cons c rest ih =>
    cases skip with
    | succ skip => exact ih skip
    | zero =>
      simp only [asciiLower] at ih ⊢
      simp only [replaceFrom]
      split
      · simp [ih]
      · simp [ih]

theorem replaceCaseless (s needle new : String) :
    lowered (replace s needle (lowered new)) = lowered (replace s needle new) := by
  simp only [replace,loweredOfList,loweredChars,replaceFromCaseless]

theorem emptyCaseless (cs : List Char) : (asciiLower cs).isEmpty = cs.isEmpty := by
  cases cs <;> rfl

theorem loweredEmpty (s : String) : (lowered s).isEmpty = s.isEmpty := by
  rw [Bool.eq_iff_iff,String.isEmpty_iff,String.isEmpty_iff,← String.toList_eq_nil_iff,
    ← String.toList_eq_nil_iff,loweredChars,asciiLower,List.map_eq_nil_iff]

end VoiceCommand.Text
