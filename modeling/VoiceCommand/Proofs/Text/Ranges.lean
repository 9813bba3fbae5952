import Mathlib.Data.List.Chain
import Mathlib.Data.List.TakeWhile
import VoiceCommand.Text.Word

/-! Characters by ranges of code points. Every decimal digit is a word character. -/
namespace VoiceCommand.Text

theorem rangeFound {n : Nat} {ranges : List (Nat × Nat)} (found : inRanges n ranges = true) :
    ∃ r ∈ ranges, r.1 ≤ n ∧ n ≤ r.2 := by
  induction ranges with
  | nil => cases found
  | cons r rest ih =>
    obtain ⟨first,last⟩ := r
    rw [inRanges] at found
    split at found
    · cases found
    · rcases Bool.or_eq_true_iff.mp found with here | later
      · exact ⟨_,List.mem_cons_self,by simpa using ‹¬ n < first›,by simpa using here⟩
      · obtain ⟨r,mem,within⟩ := ih later
        exact ⟨r,List.mem_cons_of_mem _ mem,within⟩

theorem rangeFinds {n : Nat} {ranges : List (Nat × Nat)} (ascending : ranges.Pairwise fun r s => r.1 ≤ s.1)
    {r : Nat × Nat} (mem : r ∈ ranges) (within : r.1 ≤ n ∧ n ≤ r.2) : inRanges n ranges = true := by
  induction ranges with
  | nil => cases mem
  | cons s rest ih =>
    obtain ⟨first,last⟩ := s
    obtain ⟨below,later⟩ := List.pairwise_cons.mp ascending
    rw [inRanges]
    rcases List.mem_cons.mp mem with rfl | mem
    · rw [if_neg (Nat.not_lt.mpr within.1)]
      simp [within.2]
    · have start : first ≤ n := Nat.le_trans (below r mem) within.1
      rw [if_neg (Nat.not_lt.mpr start),ih later mem,Bool.or_true]

def insideRange (w r : Nat × Nat) : Bool := w.1.ble r.1 && r.2.ble w.2

/- In ascending order, so that each range is compared with few others. -/
theorem rangesCovered {covers ranges : List (Nat × Nat)}
    (covered : covers.foldl (fun left w => left.dropWhile (insideRange w)) ranges = []) {r : Nat × Nat}
    (mem : r ∈ ranges) : ∃ w ∈ covers, insideRange w r = true := by
  induction covers generalizing ranges with
  | nil => simp [show ranges = [] from covered] at mem
  | cons w covers ih =>
    rw [← ranges.takeWhile_append_dropWhile (p := insideRange w)] at mem
    rcases List.mem_append.mp mem with here | later
    · exact ⟨w,List.mem_cons_self,List.mem_takeWhile_imp here⟩
    · obtain ⟨v,listed,inside⟩ := ih covered later
      exact ⟨v,List.mem_cons_of_mem _ listed,inside⟩

theorem digitWord {c : Char} (digit : isDigit c = true) : isWord c = true := by
  unfold isDigit at digit
  unfold isWord
  split at digit
  · rename_i ascii
    rw [if_pos ascii]
    simp [Char.isAlphanum,digit]
  · rename_i beyond
    let follows (r s : Nat × Nat) : Prop := r.1 ≤ s.1
    have ascending : wordRanges.Pairwise follows := by
      have steps : wordRanges.IsChain fun r s => r.1 ≤ s.1 := by decide +kernel
      have : Trans follows follows follows := ⟨Nat.le_trans⟩
      exact List.isChain_iff_pairwise.mp steps
    have covered : wordRanges.foldl (fun left w => left.dropWhile (insideRange w)) digitRanges.tail = [] := by
      decide +kernel
    obtain ⟨r,listed,within⟩ := rangeFound digit
    rw [if_neg beyond]
    rcases List.mem_cons.mp (show r ∈ (48,57) :: digitRanges.tail from listed) with rfl | other
    · exact absurd (Nat.lt_of_le_of_lt within.2 (by decide)) beyond
    · obtain ⟨w,covers,inside⟩ := rangesCovered covered other
      obtain ⟨low,high⟩ := Bool.and_eq_true_iff.mp inside
      exact rangeFinds ascending covers
        ⟨Nat.le_trans (Nat.le_of_ble_eq_true low) within.1,Nat.le_trans within.2 (Nat.le_of_ble_eq_true high)⟩

end VoiceCommand.Text
