import VoiceCommand.Proofs.Document.Reread

/-! Numbers from zero to one in documents. No step of the reader leaves the range of the numbers for them, so each is
read as a number again. -/
namespace VoiceCommand

/-- A number from zero to one, a zero of either sign. -/
def Binary64.IsPortion (x : Binary64) : Prop := ∃ negative m, x = .number negative m ∧ m ≤ 0x3FF0000000000000

theorem Binary64.IsPortion.finite {x : Binary64} (portion : x.IsPortion) : x.IsFinite := by
  obtain ⟨negative,m,rfl,atMost⟩ := portion
  exact ⟨negative,m,rfl,Nat.lt_of_le_of_lt atMost (by decide)⟩

namespace Document.Json
open Binary64 (nearest units unit infinity)

theorem divided {e : Int} (negative : e < 0) (fuel m : Nat) : ∃ n, scaled? e fuel m = some n := by
  induction fuel generalizing e m with
  | zero =>
    unfold scaled?
    split
    · rw [if_neg (by omega)]
      exact ⟨_,rfl⟩
    · split
      · exact ⟨_,rfl⟩
      · rw [if_neg (by omega)]
        exact ⟨_,rfl⟩
  | succ fuel ih =>
    unfold scaled?
    split
    · simp only
      rw [if_neg (by omega)]
      exact ⟨_,rfl⟩
    · rename_i far
      split
      · exact ⟨_,rfl⟩
      · rw [if_neg (by omega)]
        refine ih ?_ _
        unfold maxPower at far ⊢
        omega

theorem zeroScaled (e : Int) (fuel : Nat) : ∃ n, scaled? e fuel 0 = some n := by
  have product (k : Nat) : nearest (units 0 * k) unit ≠ infinity := by
    have nothing : nearest 0 unit ≠ infinity := by decide +kernel
    rwa [show units 0 = 0 from rfl,Nat.zero_mul]
  unfold scaled?
  split
  · simp only
    split
    · rw [if_neg (product _)]
      exact ⟨_,rfl⟩
    · exact ⟨_,rfl⟩
  · rw [if_pos rfl]
    exact ⟨0,rfl⟩

/- Scaling by the zeroth power rounds once more, and leaves the range of the significands at most a little. -/
theorem unscaled {m : Nat} (small : m ≤ nearest (twoTo 64 * unit) 1) (fuel : Nat) :
    ∃ n, scaled? 0 fuel m = some n := by
  have bound : nearest (units (nearest (twoTo 64 * unit) 1) * units (powerOfTen 0)) unit < infinity := by
    decide +kernel
  have product : nearest (units m * units (powerOfTen 0)) unit ≠ infinity := by
    refine Nat.ne_of_lt (Nat.lt_of_le_of_lt ?_ bound)
    refine Binary64.nearestMono Decimal.unitPositive Decimal.unitPositive ?_
    exact Nat.mul_le_mul_right _ (Nat.mul_le_mul_right _ (Binary64.unitsMono small))
  unfold scaled?
  simp only [Int.natAbs_zero,Nat.zero_le,if_true,Int.le_refl,if_neg product]
  exact ⟨_,rfl⟩

theorem realFound (negative : Bool) {significand : Nat} {e : Int} (small : significand < twoTo 64)
    (scale : significand = 0 ∨ e ≤ 0) : ∃ y, real? negative significand e = some y := by
  have found : ∃ n, scaled? e 4 (nearest (significand * unit) 1) = some n := by
    rcases scale with rfl | least
    · have zero : nearest (0 * unit) 1 = 0 := by decide +kernel
      rw [zero]
      exact zeroScaled e 4
    · rcases Int.lt_or_eq_of_le least with less | rfl
      · exact divided less 4 _
      · refine unscaled (Binary64.nearestMono Nat.one_pos Nat.one_pos ?_) 4
        exact Nat.mul_le_mul_right 1 (Nat.mul_le_mul_right unit (Nat.le_of_lt small))
  obtain ⟨n,same⟩ := found
  exact ⟨.number negative n,by rw [real?,same]; rfl⟩

/- The digits that fit are the number cut off behind them. -/
theorem leadingFit (ds : List Char) {n : Nat} (small : n < word) :
    (leadingDigits n ds).1 * 10 ^ (leadingDigits n ds).2 ≤ Nat.ofDigitChars 10 ds n ∧
      (leadingDigits n ds).2 ≤ ds.length ∧ (leadingDigits n ds).1 < word := by
  induction ds generalizing n with
  | nil => simp [leadingDigits,small]
  | cons c cs ih =>
    unfold leadingDigits
    split
    · rename_i fits
      obtain ⟨low,few,less⟩ := ih fits
      rw [Nat.ofDigitChars_cons,Nat.mul_comm 10 n]
      exact ⟨low,Nat.le_succ_of_le few,less⟩
    · rw [Nat.ofDigitChars_eq_ofDigitChars_zero,Nat.mul_comm _ n]
      exact ⟨Nat.le_add_right _ _,Nat.le_refl _,small⟩

theorem leadingAll (ds : List Char) {n : Nat} (small : Nat.ofDigitChars 10 ds n < word) :
    leadingDigits n ds = (Nat.ofDigitChars 10 ds n,0) := by
  induction ds generalizing n with
  | nil => rfl
  | cons c cs ih =>
    have step : Nat.ofDigitChars 10 (c :: cs) n = Nat.ofDigitChars 10 cs (n * 10 + digitValue c) := by
      rw [Nat.ofDigitChars_cons,Nat.mul_comm 10 n]
      rfl
    rw [step] at small ⊢
    have fits : n * 10 + digitValue c < word := by
      rw [Nat.ofDigitChars_eq_ofDigitChars_zero] at small
      have := Nat.le_mul_of_pos_left (n * 10 + digitValue c) (Nat.pow_pos (by decide : 0 < 10) : 0 < 10 ^ cs.length)
      omega
    rw [leadingDigits,if_pos fits,ih small]

section
variable {p : Parts}

/- Whatever part of the digits is read, the number is at least what it stands for. -/
theorem exactReach {n k : Nat} (low : n * 10 ^ k ≤ Nat.ofDigitChars 10 (p.whole ++ p.fraction) 0) :
    n * 10 ^ (p.exponent - p.fraction.length + k) ≤ p.exact := by
  have low' : (n * 10 ^ k : ℚ) ≤ (Nat.ofDigitChars 10 (p.whole ++ p.fraction) 0 : Nat) := by exact_mod_cast low
  have power : (10 : ℚ) ^ (p.exponent - p.fraction.length + k) = 10 ^ k * 10 ^ (p.exponent - p.fraction.length) := by
    rw [zpow_add₀ (by norm_num),zpow_natCast,mul_comm]
  rw [power,← mul_assoc,Parts.exact]
  exact mul_le_mul_of_nonneg_right low' (by positivity)

/- Without an exponent the whole part is at most the number itself, and with one it is a single character. -/
theorem wholeSmall (single : p.exponent = 0 ∨ p.whole.length = 1) (small : p.exact < 10) :
    Nat.ofDigitChars 10 p.whole 0 < word := by
  rcases single with absent | single
  · have low : Nat.ofDigitChars 10 p.whole 0 * 10 ^ p.fraction.length ≤
        Nat.ofDigitChars 10 (p.whole ++ p.fraction) 0 := by
      rw [Nat.ofDigitChars_append]
      generalize Nat.ofDigitChars 10 p.whole 0 = n
      rw [Nat.ofDigitChars_eq_ofDigitChars_zero,Nat.mul_comm n]
      exact Nat.le_add_right _ _
    have reach := exactReach low
    rw [absent,sub_add_cancel,zpow_zero,mul_one] at reach
    have few : (Nat.ofDigitChars 10 p.whole 0 : ℚ) < (10 : Nat) := by
      push_cast
      linarith
    exact Nat.lt_trans (Nat.cast_lt.mp few) (by decide)
  · obtain ⟨c,eq⟩ := List.length_eq_one_iff.mp single
    have few : c.toNat < 2 ^ 32 := c.val.toNat_lt
    have bound : 2 ^ 32 < word := by decide
    rw [eq]
    simp only [Nat.ofDigitChars_cons,Nat.ofDigitChars_nil]
    omega

theorem portionValue (isReal : p.isReal = true) (single : p.exponent = 0 ∨ p.whole.length = 1)
    (small : p.exact < 10) (negative : Bool) : ∃ y, p.value negative = .real y := by
  have whole := leadingAll p.whole (wholeSmall single small)
  obtain ⟨low,few,less⟩ := leadingFit p.fraction (wholeSmall single small)
  rw [← Nat.ofDigitChars_append] at low
  unfold Parts.value
  simp only [whole,isReal]
  generalize leadingDigits (Nat.ofDigitChars 10 p.whole 0) p.fraction = read at low few less
  have scale : read.1 = 0 ∨ p.exponent - (p.fraction.length - read.2 : Nat) ≤ 0 := by
    rcases Nat.eq_zero_or_pos read.1 with zero | positive
    · exact .inl zero
    · refine .inr (Int.not_lt.mp fun above => ?_)
      have reach := exactReach low
      have one : (1 : ℚ) ≤ read.1 := by exact_mod_cast positive
      have ten : (10 : ℚ) ≤ 10 ^ (p.exponent - p.fraction.length + read.2) := by
        refine le_of_eq_of_le (zpow_one 10).symm (zpow_le_zpow_right₀ (by norm_num) ?_)
        omega
      have more := le_mul_of_one_le_left (le_trans (by norm_num) ten) one
      linarith
  obtain ⟨y,found⟩ := realFound negative less scale
  exact ⟨y,by simp [found]⟩

end

theorem portionReread {x : Binary64} (portion : x.IsPortion) : ∃ y, Value.rereal x = .real y := by
  obtain ⟨negative,m,rfl,atMost⟩ := portion
  have small : m < infinity := Nat.lt_of_le_of_lt atMost (by decide)
  obtain ⟨p,written⟩ := magnitudeWritten small
  obtain ⟨nearest,_⟩ := Decimal.shortestNearest m
  rw [rerealWritten small written]
  refine portionValue written.isReal written.single ?_ negative
  rw [written.exact]
  have most : units (m + 1) ≤ 9 * unit :=
    Nat.le_trans (Binary64.unitsMono (Nat.succ_le_succ atMost)) (by decide +kernel)
  have positive : (0 : ℚ) < unit := by exact_mod_cast Decimal.unitPositive
  have reach := Decimal.valueReach nearest most
  push_cast at reach
  have nine : (Decimal.shortest m).value ≤ 9 := le_of_mul_le_mul_left (by linarith) positive
  linarith

end Document.Json

end VoiceCommand
