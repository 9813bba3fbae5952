import VoiceCommand.Proofs.Text.Normal
import VoiceCommand.Text.Case

/-! Names of which only the letters matter. Trimming is done once and for all, and over ASCII the lower case of a
whole text is that of its characters. -/
namespace VoiceCommand.Text

theorem stripDone {p : Char → Bool} {cs : List Char} (first : cs.head?.any p = false)
    (last : cs.getLast?.any p = false) : strip p cs = cs := by
  cases cs with
  | nil => rfl
  | cons c rest =>
    have kept : (c :: rest).dropWhile p = c :: rest := by
      have stays : p c = false := by simpa using first
      simp [stays]
    rw [strip,kept]
    refine List.rdropWhile_eq_self_iff.mpr fun nonempty => ?_
    rw [List.getLast?_eq_some_getLast nonempty] at last
    simpa using last

theorem trimTrim (s : String) : trim (trim s) = trim s := by
  have done := stripDone (stripFirst isBlank s.toList) (stripLast isBlank s.toList)
  simp only [trim,String.toList_ofList,done]

theorem stripSolid {p : Char → Bool} {cs : List Char} (solid : ∀ c ∈ cs, p c = false) : strip p cs = cs := by
  refine stripDone ?_ ?_
  · cases first : cs.head? with
    | none => rfl
    | some c => exact solid c (List.mem_of_head? first)
  · cases last : cs.getLast? with
    | none => rfl
    | some c => exact solid c (List.mem_of_getLast? last)

theorem trimNotBlank {s : String} (solid : allBlank s = false) : trim s ≠ "" := by
  obtain ⟨c,mem,kept⟩ := List.all_eq_false.mp solid
  intro empty
  refine stripKeeps (p := isBlank) mem (by simpa using kept) ?_
  simpa [trim] using congrArg String.toList empty

def isAscii (c : Char) : Bool := c.toNat < 128

theorem lowerNumber (c : Char) :
    c.toLower.toNat = if 65 ≤ c.toNat ∧ c.toNat ≤ 90 then c.toNat + 32 else c.toNat := by
  unfold Char.toLower
  split
  · rename_i capital
    simp only [ge_iff_le,UInt32.le_iff_toNat_le] at capital
    change 65 ≤ c.toNat ∧ c.toNat ≤ 90 at capital
    have moved : (c.val + ('a'.val - 'A'.val)).toNat = (c.toNat + 32) % 2 ^ 32 := UInt32.toNat_add _ _
    rw [if_pos capital]
    refine moved.trans ?_
    omega
  · rename_i other
    simp only [ge_iff_le,UInt32.le_iff_toNat_le] at other
    change ¬ (65 ≤ c.toNat ∧ c.toNat ≤ 90) at other
    rw [if_neg other]

theorem lowerAscii (c : Char) : isAscii c.toLower = isAscii c := by
  simp only [isAscii,lowerNumber,decide_eq_decide]
  split <;> omega

theorem asciiLowerAscii (cs : List Char) : (asciiLower cs).all isAscii = cs.all isAscii := by
  simp [asciiLower,Function.comp_def,lowerAscii]

/- Case rules beyond the single character are about sigma alone. -/
theorem lowerFromAscii {cs : List Char} (ascii : cs.all isAscii = true) (before : List Char) :
    lowerFrom before cs = asciiLower cs := by
  induction cs generalizing before with
  | nil => rfl
  | cons c rest ih =>
    obtain ⟨small,later⟩ := Bool.and_eq_true_iff.mp (List.all_cons ▸ ascii)
    have number : c.toNat < 128 := by simpa [isAscii] using small
    have other : c ≠ 'Σ' := by
      rintro rfl
      exact absurd number (by decide)
    rw [lowerFrom,if_neg other,lowerChar,if_pos number,ih later]
    rfl

end VoiceCommand.Text
