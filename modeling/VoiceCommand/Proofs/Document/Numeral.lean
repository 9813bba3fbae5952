import VoiceCommand.Document.Json.Writer
import VoiceCommand.Proofs.Binary64.Shortest

/-! Numbers as they are written. The reader takes the characters of a number and no others, and what it takes stands for
the decimal that was written. -/
namespace VoiceCommand.Document.Json
open Decimal (shortest digitText plain)

/-- What follows a value of a list or table: nothing, the next value, or the end of the line. -/
def Ends (rest : List Char) : Prop := ∀ c ∈ rest.head?, c = ',' ∨ c = '\n'

def Stops (rest : List Char) : Prop := ∀ c ∈ rest.head?, c.isDigit = false

def Numeric (ds : List Char) : Prop := ∀ c ∈ ds, c.isDigit = true

/-- The fraction that a number stands for. -/
def Parts.exact (p : Parts) : ℚ :=
  Nat.ofDigitChars 10 (p.whole ++ p.fraction) 0 * 10 ^ (p.exponent - p.fraction.length)

section
variable {ds rest : List Char}

theorem Ends.stops (ends : Ends rest) : Stops rest := by
  intro c mem
  rcases ends c mem with rfl | rfl <;> rfl

theorem digitsTaken (numeric : Numeric ds) (stops : Stops rest) : (ds ++ rest).takeWhile Char.isDigit = ds := by
  rw [List.takeWhile_append_of_pos numeric]
  cases rest with
  | nil => simp
  | cons c rest => simp [stops c rfl]

theorem digitsNumeric (n : Nat) : Numeric (Nat.toDigits 10 n) :=
  fun _ => Nat.isDigit_of_mem_toDigits (by decide) (by decide)

theorem digitsLength {n k : Nat} (positive : 0 < k) (small : n < 10 ^ k) : (Nat.toDigits 10 n).length ≤ k :=
  (Nat.length_toDigits_le_iff (by decide) positive).mpr small

theorem digitsLead {n : Nat} (positive : n ≠ 0) : (Nat.toDigits 10 n).head? ≠ some '0' := by
  induction n using Nat.strong_induction_on with
  | _ n ih =>
    rw [Nat.toDigits_eq_if (by decide)]
    split
    · rename_i small
      have all : ∀ d < 10, d ≠ 0 → d.digitChar ≠ '0' := by decide
      simpa using all n small positive
    · rename_i large
      rw [List.head?_append_of_ne_nil _ Nat.toDigits_ne_nil]
      exact ih (n / 10) (by omega) (by omega)

/- Each step of the reader keeps the least of the number so far and its limit. -/
theorem exponentClamped (ds : List Char) (n : Nat) :
    ds.foldl (fun n c => min (n * 10 + digitValue c) 100000000000) (min n 100000000000) =
      min (Nat.ofDigitChars 10 ds n) 100000000000 := by
  induction ds generalizing n with
  | nil => rfl
  | cons c cs ih =>
    have step : min (min n 100000000000 * 10 + digitValue c) 100000000000 =
        min (10 * n + (c.toNat - 48)) 100000000000 := by
      unfold digitValue
      omega
    rw [List.foldl_cons,step,ih]
    rfl

theorem exponentKept {n : Nat} (small : n < 100000000000) : exponentValue (Nat.toDigits 10 n) = n := by
  unfold exponentValue
  have clamped := exponentClamped (Nat.toDigits 10 n) 0
  rw [Nat.ofDigitChars_ten_toDigits,Nat.min_eq_left (Nat.zero_le _)] at clamped
  rw [clamped]
  omega

theorem exponentAbsent (p : Parts) (ends : Ends rest) : exponent p rest = .ok (p,rest) := by
  cases rest with
  | nil => rfl
  | cons c cs => rcases ends c rfl with rfl | rfl <;> rfl

theorem wholeRead {k : Nat} (stops : Stops rest) :
    (Nat.toDigits 10 k ++ rest).takeWhile Char.isDigit = Nat.toDigits 10 k ∧
      (Nat.toDigits 10 k).isEmpty = false ∧
      (Nat.toDigits 10 k ++ rest).drop (Nat.toDigits 10 k).length = rest :=
  ⟨digitsTaken (digitsNumeric k) stops,by simp [Nat.toDigits_ne_nil],by simp⟩

theorem digitFirst {k : Nat} {c : Char} {cs : List Char} (begins : Nat.toDigits 10 k ++ rest = c :: cs) :
    c.isDigit = true := by
  refine digitsNumeric k c (List.mem_of_head? ?_)
  rw [← List.head?_append_of_ne_nil _ Nat.toDigits_ne_nil,begins]
  rfl

theorem exponentRead (p : Parts) {n : Int} (small : n.natAbs < 100000000000) (ends : Ends rest) :
    exponent p ('e' :: ((toString n).toList ++ rest)) = .ok ({ p with exponent := n, isReal := true },rest) := by
  cases n with
  | ofNat k =>
    have text : (toString (Int.ofNat k)).toList = Nat.toDigits 10 k := Nat.toList_repr
    obtain ⟨taken,filled,left⟩ := wholeRead (k := k) ends.stops
    have kept := exponentKept (n := k) small
    rw [text]
    unfold exponent
    simp only [true_or,if_true]
    split
    · rename_i sign
      exact absurd (digitFirst sign) (by decide)
    · rename_i sign
      exact absurd (digitFirst sign) (by decide)
    · simp only [taken,filled,left,kept]
      simp
  | negSucc k =>
    have text : (toString (Int.negSucc k)).toList = '-' :: Nat.toDigits 10 (k + 1) := by
      change ("-" ++ (k + 1).repr).toList = _
      simp
    obtain ⟨taken,filled,left⟩ := wholeRead (k := k + 1) ends.stops
    have kept := exponentKept (n := k + 1) small
    rw [text]
    unfold exponent
    simp only [List.cons_append,true_or,if_true,taken,filled,left,kept]
    simp [Int.negSucc_eq]

theorem fractionRead (p : Parts) {tail : List Char} (numeric : Numeric ds) (filled : ds ≠ []) (stops : Stops tail) :
    fraction p ('.' :: (ds ++ tail)) = exponent { p with fraction := ds, isReal := true } tail := by
  simp [fraction,digitsTaken numeric stops,filled]

theorem partsRead {tail : List Char} (numeric : Numeric ds) (filled : ds ≠ [])
    (proper : ds.length = 1 ∨ ds.head? ≠ some '0') (stops : Stops tail) :
    parts (ds ++ tail) = fraction ⟨ds,[],0,false⟩ tail := by
  have proper' : ¬ (1 < ds.length ∧ ds.head? = some '0') := by
    rintro ⟨long,zero⟩
    rcases proper with single | other
    · omega
    · exact other zero
  simp [parts,digitsTaken numeric stops,filled,proper']

theorem pointRead {behind : List Char} (numeric : Numeric ds) (filled : ds ≠ [])
    (proper : ds.length = 1 ∨ ds.head? ≠ some '0') (numeric' : Numeric behind) (filled' : behind ≠ [])
    (ends : Ends rest) : parts (ds ++ '.' :: (behind ++ rest)) = .ok (⟨ds,behind,0,true⟩,rest) := by
  rw [partsRead numeric filled proper (by simp [Stops]),fractionRead _ numeric' filled' ends.stops]
  exact exponentAbsent _ ends

/-- A decimal that can be written with a limited number of places. -/
structure Printable (d : Decimal) : Prop where
  zero : d.digits = 0 → d.exponent = 0
  least : -341 ≤ d.exponent
  greatest : d.exponent ≤ 335
  length : (digitText d.digits).length ≤ 1000

theorem shortestPrintable {m : Nat} (finite : m < Binary64.infinity) : Printable (shortest m) := by
  obtain ⟨_,least,greatest⟩ := Decimal.shortestNearest m
  refine ⟨fun zero => ?_,least,greatest,?_⟩
  · rcases Nat.eq_zero_or_pos m with rfl | positive
    · rfl
    · exact absurd zero (Decimal.shortestNonzero positive)
  · exact digitsLength (by decide) (Decimal.shortestDigits finite)

end

/-- The parts that the reader takes from the text of a decimal, whatever follows it. -/
structure Written (d : Decimal) (text : List Char) (p : Parts) : Prop where
  read : ∀ rest, Ends rest → parts (text ++ rest) = .ok (p,rest)
  exact : p.exact = d.value
  isReal : p.isReal = true
  single : p.exponent = 0 ∨ p.whole.length = 1

section
variable {d : Decimal}

theorem digitsProper (nonzero : d.digits ≠ 0) (more : List Char) :
    (digitText d.digits ++ more).head? ≠ some '0' := by
  unfold digitText
  rw [List.head?_append_of_ne_nil _ Nat.toDigits_ne_nil]
  exact digitsLead nonzero

theorem exactOf {p : Parts} (digits : Nat.ofDigitChars 10 (p.whole ++ p.fraction) 0 = d.digits)
    (place : p.exponent - p.fraction.length = d.exponent) : p.exact = d.value := by
  simp only [Parts.exact,digits,place,Decimal.value]

theorem wholeWritten (printable : Printable d) (whole : 0 ≤ d.exponent) :
    ∃ p, Written d (d.plain ++ ['.','0']) p := by
  have text : d.plain = digitText d.digits ++ List.replicate d.exponent.toNat '0' := if_pos whole
  have numeric : Numeric d.plain := by
    rw [text]
    refine List.forall_mem_append.mpr ⟨digitsNumeric _,fun c mem => ?_⟩
    rw [List.eq_of_mem_replicate mem]
    rfl
  have proper : d.plain.length = 1 ∨ d.plain.head? ≠ some '0' := by
    rw [text]
    by_cases zero : d.digits = 0
    · rw [zero,printable.zero zero]
      exact .inl rfl
    · exact .inr (digitsProper zero _)
  have single : Numeric ['0'] := by simp [Numeric]
  refine ⟨⟨d.plain,['0'],0,true⟩,fun rest ends => ?_,?_,rfl,.inl rfl⟩
  · rw [List.append_assoc]
    exact pointRead numeric (by simp [text,digitText,Nat.toDigits_ne_nil]) proper single (by simp) ends
  · have digits : Nat.ofDigitChars 10 (d.plain ++ ['0']) 0 = 10 * (10 ^ d.exponent.toNat * d.digits) := by
      rw [text,Nat.ofDigitChars_append,Nat.ofDigitChars_append,Nat.ofDigitChars_replicate_zero,digitText,
        Nat.ofDigitChars_ten_toDigits]
      rfl
    have power : (10 : ℚ) ^ d.exponent = 10 ^ d.exponent.toNat := by
      rw [← zpow_natCast,Int.toNat_of_nonneg whole]
    simp only [Parts.exact,digits,Decimal.value,power,List.length_singleton]
    push_cast
    ring

theorem pointWritten (printable : Printable d) (broken : d.exponent < 0) : ∃ p, Written d d.plain p := by
  have nonzero : d.digits ≠ 0 := fun zero => by
    have := printable.zero zero
    omega
  have numeric := digitsNumeric d.digits
  have positive : 0 < (digitText d.digits).length := Nat.length_toDigits_pos
  have places : ((-d.exponent).toNat : Int) = -d.exponent := Int.toNat_of_nonneg (by omega)
  unfold plain
  extract_lets ds count
  rw [if_neg (by omega)]
  split
  · rename_i inside
    have whole : Numeric (ds.take (ds.length - count)) := fun c mem => numeric c (List.mem_of_mem_take mem)
    have behind : Numeric (ds.drop (ds.length - count)) := fun c mem => numeric c (List.mem_of_mem_drop mem)
    have proper : (ds.take (ds.length - count)).head? ≠ some '0' := by
      rw [List.head?_take,if_neg (by omega)]
      exact digitsLead nonzero
    have filled : ds.take (ds.length - count) ≠ [] ∧ ds.drop (ds.length - count) ≠ [] := by
      constructor
      · exact List.ne_nil_of_length_pos (by rw [List.length_take]; omega)
      · exact List.ne_nil_of_length_pos (by rw [List.length_drop]; omega)
    refine ⟨⟨ds.take (ds.length - count),ds.drop (ds.length - count),0,true⟩,fun rest ends => ?_,?_,rfl,.inl rfl⟩
    · rw [List.append_assoc]
      exact pointRead whole filled.1 (.inr proper) behind filled.2 ends
    · have length : (ds.drop (ds.length - count)).length = count := by
        rw [List.length_drop]
        omega
      refine exactOf ?_ (by simp only [length]; omega)
      simp only [List.take_append_drop]
      exact Nat.ofDigitChars_ten_toDigits
  · rename_i outside
    have behind : Numeric (List.replicate (count - ds.length) '0' ++ ds) := by
      refine List.forall_mem_append.mpr ⟨fun c mem => ?_,numeric⟩
      rw [List.eq_of_mem_replicate mem]
      rfl
    refine ⟨⟨['0'],List.replicate (count - ds.length) '0' ++ ds,0,true⟩,fun rest ends => ?_,?_,rfl,.inl rfl⟩
    · have zero : Numeric ['0'] := by simp [Numeric]
      exact pointRead zero (by simp) (.inl rfl) behind
        (by simp [ds,digitText,Nat.toDigits_ne_nil]) ends
    · have length : (List.replicate (count - ds.length) '0' ++ ds).length = count := by
        rw [List.length_append,List.length_replicate]
        omega
      have digits : Nat.ofDigitChars 10 (['0'] ++ (List.replicate (count - ds.length) '0' ++ ds)) 0 = d.digits := by
        rw [Nat.ofDigitChars_append,Nat.ofDigitChars_append]
        exact (congrArg (Nat.ofDigitChars 10 ds) Nat.ofDigitChars_replicate_zero).trans Nat.ofDigitChars_ten_toDigits
      exact exactOf digits (by simp only [length]; omega)

theorem scaledWritten (printable : Printable d) :
    let ds := digitText d.digits
    ∃ p, Written d (ds.take 1 ++ (if ds.length = 1 then [] else '.' :: ds.drop 1) ++
      'e' :: (toString (ds.length + d.exponent - 1)).toList) p := by
  intro ds
  have positive : 0 < ds.length := Nat.length_toDigits_pos
  have small : (ds.length + d.exponent - 1).natAbs < 100000000000 := by
    have length : ds.length ≤ 1000 := printable.length
    have least := printable.least
    have greatest := printable.greatest
    omega
  have numeric := digitsNumeric d.digits
  have lead : Numeric (ds.take 1) := fun c mem => numeric c (List.mem_of_mem_take mem)
  have behind : Numeric (ds.drop 1) := fun c mem => numeric c (List.mem_of_mem_drop mem)
  have single : (ds.take 1).length = 1 := by
    rw [List.length_take]
    omega
  have exact : (⟨ds.take 1,ds.drop 1,ds.length + d.exponent - 1,true⟩ : Parts).exact = d.value := by
    refine exactOf ?_ (by simp only [List.length_drop]; omega)
    simp only [List.take_append_drop]
    exact Nat.ofDigitChars_ten_toDigits
  refine ⟨_,fun rest ends => ?_,exact,rfl,.inr single⟩
  rw [List.append_assoc,List.append_assoc,List.cons_append]
  split
  · rename_i alone
    have whole : ds.drop 1 = [] := List.drop_eq_nil_of_le (by omega)
    rw [partsRead lead (List.ne_nil_of_length_pos (by omega)) (.inl single) (by simp [Stops]),whole]
    exact exponentRead _ small ends
  · rw [List.cons_append,partsRead lead (List.ne_nil_of_length_pos (by omega)) (.inl single) (by simp [Stops]),
      fractionRead _ behind (List.ne_nil_of_length_pos (by rw [List.length_drop]; omega)) (by simp [Stops])]
    exact exponentRead _ small ends

end

theorem magnitudeWritten {m : Nat} (finite : m < Binary64.infinity) :
    ∃ p, Written (shortest m) (magnitudeText m) p := by
  have printable := shortestPrintable finite
  unfold magnitudeText
  dsimp only
  generalize shortest m = d at printable ⊢
  split
  · rename_i whole
    exact wholeWritten printable whole.1
  · rename_i notWhole
    split
    · exact pointWritten printable (by omega)
    · exact scaledWritten printable

end VoiceCommand.Document.Json
