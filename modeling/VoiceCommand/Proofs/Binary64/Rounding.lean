import Mathlib.Algebra.Group.Nat.Defs
import VoiceCommand.Binary64.Basic

/-! Order among the numbers. A greater quotient is never rounded to a smaller number, so bounds on quotients carry
over to the numbers that stand for them. A confidence is always a number, and one within its range stays as it is. -/
namespace VoiceCommand.Binary64

theorem halfEvenBelow {n d : Nat} (below : 2 * (n % d) < d) : halfEven n d = n / d := if_pos below

theorem halfEvenAbove {n d : Nat} (above : d < 2 * (n % d)) : halfEven n d = n / d + 1 := by
  rw [halfEven,if_neg (by omega),if_pos above]

theorem halfEvenTie {n d : Nat} (tie : d = 2 * (n % d)) : halfEven n d = n / d + n / d % 2 := by
  rw [halfEven,if_neg (by omega),if_neg (by omega)]

theorem halfEvenLow (n d : Nat) : n / d ≤ halfEven n d := by
  unfold halfEven
  split
  · exact Nat.le_refl _
  · split <;> omega

theorem halfEvenHigh (n d : Nat) : halfEven n d ≤ n / d + 1 := by
  unfold halfEven
  split
  · omega
  · split <;> omega

section
variable {n d n' d' : Nat}

theorem quotientMono (pos : 0 < d) (pos' : 0 < d') (le : n * d' ≤ n' * d) : n / d ≤ n' / d' := by
  refine (Nat.le_div_iff_mul_le pos').mpr (Nat.le_of_mul_le_mul_right ?_ pos)
  calc n / d * d' * d = n / d * d * d' := Nat.mul_right_comm _ _ _
    _ ≤ n * d' := Nat.mul_le_mul_right d' (Nat.div_mul_le_self n d)
    _ ≤ n' * d := le

theorem remainderMono (le : n * d' ≤ n' * d) (same : n / d = n' / d') : n % d * d' ≤ n' % d' * d := by
  have split : n * d' = n / d * (d * d') + n % d * d' := by
    conv => lhs; rw [← Nat.div_add_mod n d]
    rw [Nat.add_mul]
    ac_rfl
  have split' : n' * d = n / d * (d * d') + n' % d' * d := by
    conv => lhs; rw [← Nat.div_add_mod n' d',← same]
    rw [Nat.add_mul]
    ac_rfl
  omega

/- Between neighbours the order of the remainders decides, and a tie goes the same way on both sides. -/
theorem halfEvenMono (pos : 0 < d) (pos' : 0 < d') (le : n * d' ≤ n' * d) : halfEven n d ≤ halfEven n' d' := by
  rcases Nat.lt_or_eq_of_le (quotientMono pos pos' le) with less | same
  · exact Nat.le_trans (halfEvenHigh n d) (Nat.le_trans less (halfEvenLow n' d'))
  · have rest := Nat.mul_le_mul_left 2 (remainderMono le same)
    rw [← Nat.mul_assoc,← Nat.mul_assoc] at rest
    have above (half : d ≤ 2 * (n % d)) : d' ≤ 2 * (n' % d') := by
      refine Nat.le_of_mul_le_mul_right ?_ pos
      calc d' * d = d * d' := Nat.mul_comm _ _
        _ ≤ 2 * (n % d) * d' := Nat.mul_le_mul_right d' half
        _ ≤ 2 * (n' % d') * d := rest
    have beyond (half : d < 2 * (n % d)) : d' < 2 * (n' % d') := by
      refine Nat.lt_of_mul_lt_mul_right (a := d) ?_
      calc d' * d = d * d' := Nat.mul_comm _ _
        _ < 2 * (n % d) * d' := Nat.mul_lt_mul_of_pos_right half pos'
        _ ≤ 2 * (n' % d') * d := rest
    rcases Nat.lt_trichotomy d (2 * (n % d)) with more | tie | less
    · exact Nat.le_of_eq (by rw [halfEvenAbove more,halfEvenAbove (beyond more),same])
    · rw [halfEvenTie tie]
      rcases Nat.lt_or_eq_of_le (above (Nat.le_of_eq tie)) with more' | tie'
      · rw [halfEvenAbove more',← same]
        omega
      · exact Nat.le_of_eq (by rw [halfEvenTie tie',same])
    · rw [halfEvenBelow less,same]
      exact halfEvenLow n' d'

/-- The exponent of a quotient, counted from that of the numbers whose last place is one unit. -/
def shift (n d : Nat) : Nat := (n / d).log2 - 52

theorem nearestShift (n d : Nat) : nearest n d =
    min infinity (shift n d * 2 ^ 52 + halfEven n (d * 2 ^ shift n d)) := rfl

theorem logMono {a b : Nat} (le : a ≤ b) : a.log2 ≤ b.log2 := by
  by_cases zero : a = 0
  · simp [zero]
  · exact (Nat.le_log2 (by omega)).mpr (Nat.le_trans (Nat.log2_self_le zero) le)

theorem shiftMono (pos : 0 < d) (pos' : 0 < d') (le : n * d' ≤ n' * d) : shift n d ≤ shift n' d' := by
  have logs := logMono (quotientMono pos pos' le)
  unfold shift
  omega

theorem scaledHigh (n d : Nat) : n / (d * 2 ^ shift n d) < 2 ^ 53 := by
  rw [← Nat.div_div_eq_div_mul]
  refine (Nat.div_lt_iff_lt_mul (Nat.two_pow_pos _)).mpr ?_
  have bound : n / d < 2 ^ ((n / d).log2 + 1) := Nat.lt_log2_self
  refine Nat.lt_of_lt_of_le bound ?_
  rw [← Nat.pow_add]
  exact Nat.pow_le_pow_right (by decide) (by unfold shift; omega)

theorem scaledLow (high : 0 < shift n d) : 2 ^ 52 ≤ n / (d * 2 ^ shift n d) := by
  rw [← Nat.div_div_eq_div_mul]
  refine (Nat.le_div_iff_mul_le (Nat.two_pow_pos _)).mpr ?_
  have positive : n / d ≠ 0 := fun zero => by simp [shift,zero] at high
  have size : 52 + shift n d = (n / d).log2 := by
    unfold shift at high ⊢
    omega
  rw [← Nat.pow_add,size]
  exact Nat.log2_self_le positive

/- Where the exponents differ, the lesser quotient rounds at most to the power of two that ends its range, and the
greater one at least to the power of two that begins its own. -/
theorem nearestMono (pos : 0 < d) (pos' : 0 < d') (le : n * d' ≤ n' * d) : nearest n d ≤ nearest n' d' := by
  rw [nearestShift,nearestShift]
  refine Nat.le_min.mpr ⟨Nat.min_le_left _ _,Nat.le_trans (Nat.min_le_right _ _) ?_⟩
  rcases Nat.lt_or_eq_of_le (shiftMono pos pos' le) with less | same
  · have high := halfEvenHigh n (d * 2 ^ shift n d)
    have bound := scaledHigh n d
    have low := halfEvenLow n' (d' * 2 ^ shift n' d')
    have start : 2 ^ 52 ≤ n' / (d' * 2 ^ shift n' d') := scaledLow (Nat.lt_of_le_of_lt (Nat.zero_le _) less)
    have step := Nat.mul_le_mul_right (2 ^ 52) (Nat.succ_le_of_lt less)
    rw [Nat.succ_mul] at step
    omega
  · rw [← same]
    refine Nat.add_le_add_left (halfEvenMono (Nat.mul_pos pos (Nat.two_pow_pos _))
      (Nat.mul_pos pos' (Nat.two_pow_pos _)) ?_) _
    rw [← Nat.mul_assoc,← Nat.mul_assoc]
    exact Nat.mul_le_mul_right _ le

end

theorem unitsSmall {m : Nat} (small : m < 2 ^ 52) : units m = m := if_pos small

theorem unitsLarge {m : Nat} (large : 2 ^ 52 ≤ m) :
    units m = (2 ^ 52 + m % 2 ^ 52) * 2 ^ (m / 2 ^ 52 - 1) := if_neg (Nat.not_lt.mpr large)

theorem unitsMono {m m' : Nat} (le : m ≤ m') : units m ≤ units m' := by
  rcases Nat.lt_or_ge m' (2 ^ 52) with small' | large'
  · rw [unitsSmall small',unitsSmall (Nat.lt_of_le_of_lt le small')]
    exact le
  · rw [unitsLarge large']
    rcases Nat.lt_or_ge m (2 ^ 52) with small | large
    · rw [unitsSmall small]
      calc m ≤ 2 ^ 52 * 1 := by omega
        _ ≤ (2 ^ 52 + m' % 2 ^ 52) * 2 ^ (m' / 2 ^ 52 - 1) :=
          Nat.mul_le_mul (Nat.le_add_right _ _) (Nat.two_pow_pos _)
    · rw [unitsLarge large]
      rcases Nat.lt_or_eq_of_le (Nat.div_le_div_right (c := 2 ^ 52) le) with less | same
      · have grown : m / 2 ^ 52 - 1 + 1 ≤ m' / 2 ^ 52 - 1 := by omega
        calc (2 ^ 52 + m % 2 ^ 52) * 2 ^ (m / 2 ^ 52 - 1) ≤ 2 ^ 53 * 2 ^ (m / 2 ^ 52 - 1) :=
              Nat.mul_le_mul_right _ (by omega)
          _ = 2 ^ 52 * 2 ^ (m / 2 ^ 52 - 1 + 1) := by rw [Nat.pow_succ 2 (m / 2 ^ 52 - 1)]; omega
          _ ≤ (2 ^ 52 + m' % 2 ^ 52) * 2 ^ (m' / 2 ^ 52 - 1) :=
            Nat.mul_le_mul (Nat.le_add_right _ _) (Nat.pow_le_pow_right (by decide) grown)
      · rw [← same]
        exact Nat.mul_le_mul_right _ (by omega)

theorem confidenceNumber (x : Binary64) : ∃ s m, x.confidence = .number s m := by
  cases x with
  | nan => exact ⟨false,0,rfl⟩
  | number s m =>
    simp only [confidence,clamp]
    split
    · exact ⟨_,_,rfl⟩
    · split <;> exact ⟨_,_,rfl⟩

theorem confidenceReaches {least x : Binary64} (notLess : x.confidence.lt least.confidence = false) :
    least.confidence.le x.confidence = true := by
  obtain ⟨s,m,high⟩ := confidenceNumber x
  obtain ⟨t,n,low⟩ := confidenceNumber least
  simp only [high,low,lt,le,decide_eq_false_iff_not,decide_eq_true_eq] at notLess ⊢
  omega

theorem confidenceInside {x : Binary64} (low : zero.le x = true) (high : x.le one = true) :
    x.confidence = x := by
  cases x with
  | nan => simp [le,zero] at low
  | number s m =>
    have above : (number s m).lt zero = false := by
      simp only [le,lt,zero,decide_eq_true_eq,decide_eq_false_iff_not] at low ⊢
      omega
    have below : one.lt (number s m) = false := by
      simp only [le,lt,one,decide_eq_true_eq,decide_eq_false_iff_not] at high ⊢
      omega
    simp [confidence,clamp,above,below]

end VoiceCommand.Binary64
