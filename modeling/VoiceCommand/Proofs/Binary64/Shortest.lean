import Mathlib.Algebra.Order.Field.Power
import Mathlib.Algebra.Order.Ring.Unbundled.Rat
import Mathlib.Data.Rat.Cast.Order
import Mathlib.Tactic.Linarith
import Mathlib.Tactic.NormNum
import Mathlib.Tactic.Positivity
import Mathlib.Tactic.Ring
import VoiceCommand.Binary64.Decimal
import VoiceCommand.Proofs.Binary64.Rounding

/-! The decimal that is written for a number. It lies among the fractions that are nearest to this number, and a
fraction is nearest to one number at most, so that the decimal tells which number it stands for. -/
namespace VoiceCommand

def Decimal.value (d : Decimal) : ℚ := d.digits * 10 ^ d.exponent

namespace Binary64

theorem unitsNext (m : Nat) : units (m + 1) = units m + 2 ^ (m / 2 ^ 52 - 1) := by
  rcases Nat.lt_or_ge (m + 1) (2 ^ 52) with small | large
  · have first : m / 2 ^ 52 - 1 = 0 := by omega
    rw [unitsSmall small,unitsSmall (by omega),first]
    rfl
  · rcases Nat.lt_or_ge m (2 ^ 52) with last | large'
    · obtain rfl : m = 2 ^ 52 - 1 := by omega
      decide
    · rw [unitsLarge large,unitsLarge large']
      by_cases carry : (m + 1) % 2 ^ 52 = 0
      · have quotient : (m + 1) / 2 ^ 52 - 1 = m / 2 ^ 52 - 1 + 1 := by omega
        have full : m % 2 ^ 52 = 2 ^ 52 - 1 := by omega
        rw [carry,quotient,full,Nat.pow_succ 2 (m / 2 ^ 52 - 1)]
        omega
      · have quotient : (m + 1) / 2 ^ 52 = m / 2 ^ 52 := by omega
        have place : (m + 1) % 2 ^ 52 = m % 2 ^ 52 + 1 := by omega
        rw [quotient,place,← Nat.add_assoc,Nat.succ_mul]

theorem unitsLess {m n : Nat} (less : m < n) : units m < units n := by
  have next : units m < units (m + 1) := by
    rw [unitsNext]
    exact Nat.lt_add_of_pos_right (Nat.two_pow_pos _)
  exact Nat.lt_of_lt_of_le next (unitsMono less)

theorem unitsBound (m : Nat) : units m < 2 ^ 53 * 2 ^ (m / 2 ^ 52 - 1) := by
  rcases Nat.lt_or_ge m (2 ^ 52) with small | large
  · rw [unitsSmall small]
    exact Nat.lt_of_lt_of_le (by omega) (Nat.le_mul_of_pos_right (2 ^ 53) (Nat.two_pow_pos _))
  · rw [unitsLarge large]
    exact Nat.mul_lt_mul_of_pos_right (by omega) (Nat.two_pow_pos _)

/- The neighbours of a number are more than sixteen digits apart. At a power of two the lower one is only half as far
away as the upper one, but there the number is the least of its range. -/
theorem neighboursApart (m : Nat) :
    2 * units (m + 1) + 10 ^ 16 * units m < 10 ^ 16 * units (m + 2) := by
  have lower := unitsNext m
  have upper : units (m + 2) = units (m + 1) + 2 ^ ((m + 1) / 2 ^ 52 - 1) := unitsNext (m + 1)
  have positive : 0 < 2 ^ ((m + 1) / 2 ^ 52 - 1) := Nat.two_pow_pos _
  have positive' : 0 < 2 ^ (m / 2 ^ 52 - 1) := Nat.two_pow_pos _
  by_cases same : (m + 1) / 2 ^ 52 - 1 = m / 2 ^ 52 - 1
  · have bound := unitsBound (m + 1)
    rw [same] at upper bound
    omega
  · have first : units (m + 1) = 2 ^ 52 * 2 ^ ((m + 1) / 2 ^ 52 - 1) := by
      rw [unitsLarge (by omega),show (m + 1) % 2 ^ 52 = 0 by omega,Nat.add_zero]
    omega

/-- A fraction that is nearest to the number of rank `m`, or a tie that goes to it. -/
structure Nearest (m : Nat) (x : ℚ) : Prop where
  low : (units (m - 1) + units m : Nat) < 2 * unit * x ∨ m % 2 = 0 ∧ (units (m - 1) + units m : Nat) = 2 * unit * x
  high : 2 * unit * x < (units m + units (m + 1) : Nat) ∨ m % 2 = 0 ∧ 2 * unit * x = (units m + units (m + 1) : Nat)

theorem zeroNearest : Nearest 0 0 := by
  have start : units (0 - 1) + units 0 = 0 := by decide
  have next : units 0 + units (0 + 1) = 1 := by decide
  refine ⟨.inr ⟨rfl,?_⟩,.inl ?_⟩
  · rw [start,mul_zero,Nat.cast_zero]
  · rw [next,mul_zero,Nat.cast_one]
    exact one_pos

theorem Nearest.notLess {m n : Nat} {x : ℚ} (left : Nearest m x) (right : Nearest n x) : ¬ m < n := by
  intro less
  have lower : units m ≤ units (n - 1) := unitsMono (by omega)
  have upper : units (m + 1) ≤ units n := unitsMono less
  have order : ((units m + units (m + 1) : Nat) : ℚ) ≤ (units (n - 1) + units n : Nat) := by
    exact_mod_cast Nat.add_le_add lower upper
  rcases left.high with below | ⟨even,atEnd⟩
  · rcases right.low with above | ⟨_,atStart⟩ <;> linarith
  · rcases right.low with above | ⟨even',atStart⟩
    · linarith
    · have same : units m + units (m + 1) = units (n - 1) + units n := by
        exact_mod_cast atEnd.symm.trans atStart.symm
      have adjacent : ¬ m < n - 1 := fun apart => by
        have := unitsLess apart
        omega
      omega

theorem Nearest.unique {m n : Nat} {x : ℚ} (left : Nearest m x) (right : Nearest n x) : m = n :=
  Nat.le_antisymm (Nat.not_lt.mp (right.notLess left)) (Nat.not_lt.mp (left.notLess right))

end Binary64

namespace Decimal
open Binary64 (units unit Nearest)

theorem valueNonneg (d : Decimal) : 0 ≤ d.value := by
  unfold value
  positivity

theorem tenScaled (e : ℤ) : ((tenTo e.toNat : Nat) : ℚ) = 10 ^ e * (tenTo (-e).toNat : Nat) := by
  unfold tenTo
  cases e with
  | ofNat n => simp
  | negSucc n =>
    have up : (-Int.negSucc n).toNat = n + 1 := rfl
    rw [up,zpow_negSucc]
    simp

theorem tenPositive (n : Nat) : 0 < tenTo n := Nat.pow_pos (by decide)

theorem twoPositive (n : Nat) : 0 < twoTo n := Nat.pow_pos (by decide)

theorem unitPositive : 0 < unit := twoPositive 1074

section
variable {m : Nat} {place : ℤ}

/- A multiple of a place, in the scale in which the grid of the place is searched. -/
theorem gridScaled (place : ℤ) (k : Nat) : ((k * (tenTo place.toNat * (2 * unit)) : Nat) : ℚ) =
    2 * unit * (⟨k,place⟩ : Decimal).value * (tenTo (-place).toNat : Nat) := by
  push_cast
  rw [tenScaled,value]
  ring

/- It is nearest to the number if it lies in between on this grid. -/
theorem gridNearest {k : Nat}
    (low : (units (m - 1) + units m) * tenTo (-place).toNat < k * (tenTo place.toNat * (2 * unit)) ∨
      m % 2 = 0 ∧ (units (m - 1) + units m) * tenTo (-place).toNat = k * (tenTo place.toNat * (2 * unit)))
    (high : k * (tenTo place.toNat * (2 * unit)) < (units m + units (m + 1)) * tenTo (-place).toNat ∨
      m % 2 = 0 ∧ k * (tenTo place.toNat * (2 * unit)) = (units m + units (m + 1)) * tenTo (-place).toNat) :
    Nearest m (⟨k,place⟩ : Decimal).value := by
  have positive : (0 : ℚ) < (tenTo (-place).toNat : Nat) := by exact_mod_cast tenPositive _
  have scaled := gridScaled place k
  constructor
  · refine low.imp (fun less => ?_) (And.imp_right fun same => ?_)
    · refine lt_of_mul_lt_mul_right ?_ positive.le
      rw [← scaled]
      exact_mod_cast less
    · refine mul_right_cancel₀ positive.ne' ?_
      rw [← scaled]
      exact_mod_cast same
  · refine high.imp (fun less => ?_) (And.imp_right fun same => ?_)
    · refine lt_of_mul_lt_mul_right ?_ positive.le
      rw [← scaled]
      exact_mod_cast less
    · refine mul_right_cancel₀ positive.ne' ?_
      rw [← scaled]
      exact_mod_cast same

theorem onGridNearest {d : Decimal} (found : onGrid? m place = some d) :
    d.exponent = place ∧ Nearest m d.value := by
  unfold onGrid? at found
  extract_lets up step value low high floor closed lowFits highFits at found
  have stepPositive : 0 < step := Nat.mul_pos (tenPositive _) (Nat.mul_pos (by decide) unitPositive)
  have upPositive : 0 < up := tenPositive _
  have before : floor * step ≤ value := Nat.div_mul_le_self value step
  have behind : value < (floor + 1) * step := Nat.lt_mul_of_div_lt (Nat.lt_succ_self floor) stepPositive
  have order : low ≤ value ∧ value < high := by
    have lower : units (m - 1) ≤ units m := Binary64.unitsMono (Nat.sub_le m 1)
    have upper : units m < units (m + 1) := Binary64.unitsLess (Nat.lt_succ_self m)
    exact ⟨Nat.mul_le_mul_right up (by omega),Nat.mul_lt_mul_of_pos_right (by omega) upPositive⟩
  have atFloor (fits : lowFits = true) : Nearest m (⟨floor,place⟩ : Decimal).value :=
    gridNearest (by simpa [lowFits,closed] using fits) (.inl (Nat.lt_of_le_of_lt before order.2))
  have atNext (fits : highFits = true) : Nearest m (⟨floor + 1,place⟩ : Decimal).value :=
    gridNearest (.inl (Nat.lt_of_le_of_lt order.1 behind)) (by simpa [highFits,closed] using fits)
  split at found
  · rename_i both
    have fits := Bool.and_eq_true_iff.mp both
    rw [← Option.some.inj found]
    refine ⟨rfl,?_⟩
    have rounded : Binary64.halfEven value step = floor ∨ Binary64.halfEven value step = floor + 1 := by
      have := Binary64.halfEvenLow value step
      have := Binary64.halfEvenHigh value step
      omega
    rcases rounded with same | same <;> rw [same]
    · exact atFloor fits.1
    · exact atNext fits.2
  · split at found
    · rename_i fits
      rw [← Option.some.inj found]
      exact ⟨rfl,atFloor fits⟩
    · split at found
      · rename_i fits
        rw [← Option.some.inj found]
        exact ⟨rfl,atNext fits⟩
      · cases found

/- A grid that is finer than the distance between the neighbours of the number meets it. -/
theorem onGridFound (fine : units (m - 1) * tenTo (-place).toNat + tenTo place.toNat * (2 * unit) <
    units (m + 1) * tenTo (-place).toNat) : (onGrid? m place).isSome = true := by
  cases found : onGrid? m place with
  | some d => rfl
  | none =>
    exfalso
    unfold onGrid? at found
    extract_lets up step value low high floor closed lowFits highFits at found
    split at found
    · cases found
    · split at found
      · cases found
      · rename_i notLow
        split at found
        · cases found
        · rename_i notHigh
          have below : floor * step ≤ low := by
            by_contra above
            simp [lowFits,Nat.not_le.mp above] at notLow
          have above : high ≤ (floor + 1) * step := by
            by_contra below
            simp [highFits,Nat.not_le.mp below] at notHigh
          have first : low = units (m - 1) * up + units m * up := Nat.add_mul _ _ _
          have last : high = units m * up + units (m + 1) * up := Nat.add_mul _ _ _
          rw [Nat.succ_mul] at above
          change units (m - 1) * up + step < units (m + 1) * up at fine
          omega

/- The last place but sixteen of a number is fine enough. -/
theorem shortGrid {top : ℤ} (positive : 0 < m) (low : 10 ^ top * unit ≤ (units m : ℚ)) :
    (onGrid? m (top - 16)).isSome = true := by
  have apart : 2 * units m + 10 ^ 16 * units (m - 1) < 10 ^ 16 * units (m + 1) := by
    simpa [Nat.sub_add_cancel positive,show m - 1 + 2 = m + 1 by omega] using Binary64.neighboursApart (m - 1)
  have apart' : (2 * units m + 10 ^ 16 * units (m - 1) : ℚ) < 10 ^ 16 * units (m + 1) := by exact_mod_cast apart
  have up : (0 : ℚ) < (tenTo (-(top - 16)).toNat : Nat) := by exact_mod_cast tenPositive _
  have split : (10 : ℚ) ^ top = 10 ^ (top - 16) * 10 ^ 16 := by
    rw [← zpow_natCast,← zpow_add₀ (by norm_num)]
    congr 1
    omega
  apply onGridFound
  have scaled : ((units (m - 1) * tenTo (-(top - 16)).toNat + tenTo (top - 16).toNat * (2 * unit) : Nat) : ℚ) <
      (units (m + 1) * tenTo (-(top - 16)).toNat : Nat) := by
    push_cast
    rw [tenScaled (top - 16)]
    calc (units (m - 1) * (tenTo (-(top - 16)).toNat : Nat) +
          10 ^ (top - 16) * (tenTo (-(top - 16)).toNat : Nat) * (2 * unit) : ℚ)
        = (units (m - 1) + 10 ^ (top - 16) * (2 * unit)) * (tenTo (-(top - 16)).toNat : Nat) := by ring
      _ < units (m + 1) * (tenTo (-(top - 16)).toNat : Nat) := by
        refine mul_lt_mul_of_pos_right ?_ up
        rw [split] at low
        linarith
  exact_mod_cast scaled

end

/- The search starts below every number and never passes one. -/
theorem leadingLow {value : Nat} {e : ℤ} (fuel : Nat) (low : 10 ^ e * unit ≤ (value : ℚ)) :
    10 ^ leading value fuel e * unit ≤ (value : ℚ) ∧ e ≤ leading value fuel e ∧ leading value fuel e ≤ e + fuel := by
  induction fuel generalizing e with
  | zero => exact ⟨low,by simp [leading],by simp [leading]⟩
  | succ fuel ih =>
    unfold leading
    split
    · exact ⟨low,Int.le_refl e,by omega⟩
    · rename_i notBelow
      have positive : (0 : ℚ) < (tenTo (-(e + 1)).toNat : Nat) := by exact_mod_cast tenPositive _
      have above : ((tenTo (e + 1).toNat * unit : Nat) : ℚ) ≤ (value * tenTo (-(e + 1)).toNat : Nat) := by
        exact_mod_cast Nat.not_lt.mp notBelow
      have next : 10 ^ (e + 1) * unit ≤ (value : ℚ) := by
        refine le_of_mul_le_mul_right ?_ positive
        push_cast at above
        rw [tenScaled (e + 1)] at above
        linarith
      obtain ⟨reached,low,high⟩ := ih next
      exact ⟨reached,by omega,by push_cast; omega⟩

theorem dropZerosValue (fuel : Nat) (d : Decimal) : (dropZeros fuel d).value = d.value ∧
    d.exponent ≤ (dropZeros fuel d).exponent ∧ (dropZeros fuel d).exponent ≤ d.exponent + fuel := by
  induction fuel generalizing d with
  | zero => simp [dropZeros]
  | succ fuel ih =>
    unfold dropZeros
    split
    · rename_i round
      obtain ⟨same,low,high⟩ := ih ⟨d.digits / 10,d.exponent + 1⟩
      refine ⟨?_,by simp only at low; omega,by simp only at high; push_cast; omega⟩
      have whole : (d.digits : ℚ) = 10 * (d.digits / 10 : Nat) := by
        have : d.digits = 10 * (d.digits / 10) := by omega
        exact_mod_cast this
      rw [same,value,value,whole,zpow_add₀ (by norm_num)]
      ring
    · exact ⟨rfl,Int.le_refl _,by push_cast; omega⟩

theorem shortestNearest (m : Nat) : Nearest m (shortest m).value ∧
    (-341 : ℤ) ≤ (shortest m).exponent ∧ (shortest m).exponent ≤ 335 := by
  unfold shortest
  split
  · rename_i zero
    subst zero
    have zero : (⟨0,0⟩ : Decimal).value = 0 := zero_mul _
    exact ⟨zero.symm ▸ Binary64.zeroNearest,by decide,by decide⟩
  · rename_i nonzero
    have start : (10 : ℚ) ^ (-325 : ℤ) * unit ≤ (units m : ℚ) := by
      have below : unit ≤ 10 ^ 325 := by decide +kernel
      have one : 1 ≤ units m := Nat.lt_of_le_of_lt (Nat.zero_le _) (Binary64.unitsLess (Nat.pos_of_ne_zero nonzero))
      have below' : (unit : ℚ) ≤ 10 ^ 325 := by exact_mod_cast below
      have one' : (1 : ℚ) ≤ units m := by exact_mod_cast one
      calc (10 : ℚ) ^ (-325 : ℤ) * unit ≤ 10 ^ (-325 : ℤ) * 10 ^ 325 :=
          mul_le_mul_of_nonneg_left below' (by positivity)
        _ = 1 := by
          rw [← zpow_natCast,← zpow_add₀ (by norm_num)]
          rfl
        _ ≤ units m := one'
    obtain ⟨low,least,greatest⟩ := leadingLow 640 start
    generalize leading (units m) 640 (-325) = top at low least greatest
    have last : ∃ count ∈ List.range 17, (onGrid? m (top - (count : Nat))).isSome = true :=
      ⟨16,by decide,shortGrid (Nat.pos_of_ne_zero nonzero) low⟩
    obtain ⟨d,found⟩ := Option.isSome_iff_exists.mp (List.findSome?_isSome_iff.mpr last)
    obtain ⟨count,mem,onGrid⟩ := List.exists_of_findSome?_eq_some found
    obtain ⟨place,nearest⟩ := onGridNearest onGrid
    obtain ⟨same,longer,atMost⟩ := dropZerosValue 20 d
    have few := List.mem_range.mp mem
    simp only [found,Option.getD_some]
    exact ⟨same ▸ nearest,by omega,by omega⟩

theorem shortestInj {m n : Nat} (same : (shortest m).value = (shortest n).value) : m = n :=
  (shortestNearest m).1.unique (same ▸ (shortestNearest n).1)

theorem shortestNonzero {m : Nat} (positive : 0 < m) : (shortest m).digits ≠ 0 := by
  intro zero
  have one := Binary64.unitsLess positive
  have low := (shortestNearest m).1.low
  simp only [value,zero,Nat.cast_zero,zero_mul,mul_zero] at low
  norm_cast at low
  omega

theorem valueReach {m greatest : Nat} {d : Decimal} (nearest : Nearest m d.value)
    (most : units (m + 1) ≤ greatest) : unit * d.value ≤ greatest := by
  have below := Binary64.unitsLess (Nat.lt_add_one m)
  have most' : ((units m + units (m + 1) : Nat) : ℚ) ≤ 2 * greatest := by
    exact_mod_cast (by omega : units m + units (m + 1) ≤ 2 * greatest)
  rcases nearest.high with less | ⟨_,same⟩ <;> linarith

theorem digitsReach {m greatest : Nat} {d : Decimal} (nearest : Nearest m d.value) (least : -341 ≤ d.exponent)
    (most : units (m + 1) ≤ greatest) : d.digits ≤ greatest * 10 ^ 341 := by
  have reach := valueReach nearest most
  have one : (1 : ℚ) ≤ unit := by exact_mod_cast unitPositive
  have scale : (1 : ℚ) ≤ 10 ^ d.exponent * 10 ^ 341 := by
    rw [← zpow_natCast,← zpow_add₀ (by norm_num)]
    exact one_le_zpow₀ (by norm_num) (by push_cast; omega)
  have small : (d.digits : ℚ) ≤ greatest * 10 ^ 341 := by
    calc (d.digits : ℚ) ≤ d.digits * (10 ^ d.exponent * 10 ^ 341) := le_mul_of_one_le_right (Nat.cast_nonneg _) scale
      _ = d.value * 10 ^ 341 := by rw [value,mul_assoc]
      _ ≤ unit * d.value * 10 ^ 341 :=
        mul_le_mul_of_nonneg_right (le_mul_of_one_le_left (valueNonneg d) one) (by positivity)
      _ ≤ greatest * 10 ^ 341 := mul_le_mul_of_nonneg_right reach (by positivity)
  exact_mod_cast small

theorem shortestDigits {m : Nat} (finite : m < Binary64.infinity) : (shortest m).digits < 10 ^ 1000 := by
  obtain ⟨nearest,least,_⟩ := shortestNearest m
  refine Nat.lt_of_le_of_lt (digitsReach nearest least (Binary64.unitsMono finite)) ?_
  decide +kernel

end Decimal

end VoiceCommand
