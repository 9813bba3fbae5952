import VoiceCommand.Proofs.Binary64.Rounding
import VoiceCommand.Proofs.Text.Distance
import VoiceCommand.WakeWord

/-! How alike texts are. Equal texts have the similarity one, and no others that are short enough for rounding to keep
the difference. The words of a text are as like the phrase as that run of them which is most like it. -/
namespace VoiceCommand
open Text (distance)

namespace Binary64

theorem nearestZero (d : Nat) : nearest 0 d = 0 := by
  simp [nearest,halfEven]

theorem leTrans {x y z : Binary64} (first : x.le y = true) (second : y.le z = true) : x.le z = true := by
  cases y with
  | number s m =>
    cases x with
    | number => cases z with
      | number =>
        simp only [le,decide_eq_true_eq] at first second ⊢
        omega
      | nan => cases second
    | nan => cases first
  | nan => cases second

theorem maxNumbers (m n : Nat) :
    max (.number false m) (.number false n) = .number false (Max.max m n) := by
  simp only [max,lt,rank,Bool.false_eq_true,if_false,decide_eq_true_eq,Int.ofNat_lt]
  split
  · rw [Nat.max_eq_right (by omega)]
  · rw [Nat.max_eq_left (by omega)]

theorem maxGreatest {xs : List Binary64} (numbers : ∀ x ∈ xs, ∃ m, x = .number false m) (start : Nat) :
    ∃ most, xs.foldl max (.number false start) = .number false most ∧ start ≤ most ∧
      ∀ m, .number false m ∈ xs → m ≤ most := by
  induction xs generalizing start with
  | nil => exact ⟨start,rfl,Nat.le_refl _,by simp⟩
  | cons x rest ih =>
    obtain ⟨first,rfl⟩ := numbers x List.mem_cons_self
    obtain ⟨most,folded,above,reached⟩ := ih (fun y mem => numbers y (List.mem_cons_of_mem _ mem))
      (Max.max start first)
    rw [List.foldl_cons,maxNumbers]
    refine ⟨most,folded,Nat.le_trans (Nat.le_max_left _ _) above,fun m mem => ?_⟩
    rcases List.mem_cons.mp mem with same | mem
    · cases same
      exact Nat.le_trans (Nat.le_max_right _ _) above
    · exact reached m mem

end Binary64

theorem similarityNumber (a b : List Char) : ∃ m, similarity a b = .number false m := by
  unfold similarity
  simp only
  split <;> exact ⟨_,rfl⟩

theorem similaritySame (a : List Char) : similarity a a = .one := by
  have whole : Binary64.nearest Binary64.unit 1 = 0x3FF0000000000000 := by decide +kernel
  unfold similarity
  simp only [(Text.distanceZero a a).mpr rfl,Binary64.ofRatio,Binary64.complement,Nat.zero_mul,Binary64.nearestZero]
  split
  · rfl
  · rw [show Binary64.units 0 = 0 from rfl,Nat.sub_zero,whole]
    rfl

/- A difference of one part in 2 ^ 52 is not lost in rounding. -/
theorem similarityLess {a b : List Char} (different : a ≠ b) (short : max a.length b.length ≤ 2 ^ 52) :
    ∃ m < 0x3FF0000000000000, similarity a b = .number false m := by
  have least : Binary64.nearest Binary64.unit (2 ^ 52) = 0x3CB0000000000000 := by decide +kernel
  have kept : Binary64.nearest (Binary64.unit - Binary64.units 0x3CB0000000000000) 1 < 0x3FF0000000000000 := by
    decide +kernel
  have apart : distance a b ≠ 0 := fun equal => different ((Text.distanceZero a b).mp equal)
  have filled : max a.length b.length ≠ 0 := fun zero => by
    have empty : a.length = 0 ∧ b.length = 0 := by omega
    exact different (by rw [List.length_eq_zero_iff.mp empty.1,List.length_eq_zero_iff.mp empty.2])
  have share : 0x3CB0000000000000 ≤ Binary64.nearest (distance a b * Binary64.unit) (max a.length b.length) := by
    rw [← least]
    refine Binary64.nearestMono (by decide) (by omega) ?_
    calc Binary64.unit * max a.length b.length ≤ Binary64.unit * 2 ^ 52 := Nat.mul_le_mul_left _ short
      _ ≤ distance a b * Binary64.unit * 2 ^ 52 :=
        Nat.mul_le_mul_right _ (Nat.le_mul_of_pos_left _ (Nat.pos_of_ne_zero apart))
  refine ⟨_,Nat.lt_of_le_of_lt ?_ kept,by simp only [similarity,if_neg filled]; rfl⟩
  refine Binary64.nearestMono (by decide) (by decide) (Nat.mul_le_mul_right _ ?_)
  exact Nat.sub_le_sub_left (Binary64.unitsMono share) _

namespace WakeWord

section
variable {phrase words : List (List Char)}

theorem windowInside {run : List (List Char)} (inside : run <:+: words) : run ∈ windows run.length words := by
  obtain ⟨before,after,rfl⟩ := inside
  refine List.mem_map.mpr ⟨before.length,List.mem_range.mpr (by simp; omega),?_⟩
  simp

theorem likenessSame (inside : phrase <:+: words) : Binary64.one.le (likeness phrase words) = true := by
  have size : min phrase.length words.length = phrase.length := Nat.min_eq_left inside.length_le
  have numbers : ∀ x ∈ (windows phrase.length words).map fun ws =>
      similarity ([' '].intercalate ws) ([' '].intercalate phrase), ∃ m, x = .number false m := by
    intro x mem
    obtain ⟨ws,_,rfl⟩ := List.mem_map.mp mem
    exact similarityNumber _ _
  obtain ⟨most,folded,_,reached⟩ := Binary64.maxGreatest numbers 0
  have whole : Binary64.one ∈ (windows phrase.length words).map fun ws =>
      similarity ([' '].intercalate ws) ([' '].intercalate phrase) :=
    List.mem_map.mpr ⟨phrase,windowInside inside,similaritySame _⟩
  have above := reached 0x3FF0000000000000 whole
  rw [likeness]
  simp only [size]
  rw [show Binary64.zero = .number false 0 from rfl,folded]
  simp only [Binary64.le,Binary64.one,Binary64.rank,Bool.false_eq_true,if_false,decide_eq_true_eq]
  omega

/- As many words as the phrase has are one window. -/
theorem likenessAlone (size : words.length = phrase.length) :
    likeness phrase words = similarity ([' '].intercalate words) ([' '].intercalate phrase) := by
  obtain ⟨m,same⟩ := similarityNumber ([' '].intercalate words) ([' '].intercalate phrase)
  have one : words.length + 1 - words.length = 1 := by omega
  rw [likeness]
  simp only [← size,Nat.min_self,windows,one,List.range_one,List.map_cons,List.map_nil,List.drop_zero,
    List.take_length,List.foldl_cons,List.foldl_nil,same]
  rw [show Binary64.zero = .number false 0 from rfl,Binary64.maxNumbers,Nat.zero_max]

end

end WakeWord

end VoiceCommand
