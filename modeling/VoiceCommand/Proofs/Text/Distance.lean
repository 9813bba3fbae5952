import VoiceCommand.Text.Distance

/-! When nothing has to be edited. An entry of a row is zero where the part of the source that was read and the part
of the target in front of the entry are the same text. -/
namespace VoiceCommand.Text

/-- A row tells for which parts of the target there is nothing to edit. -/
structure TellsSame (source target : List Char) (row : List Nat) : Prop where
  size : row.length = target.length + 1
  zero : ∀ k ≤ target.length, row[k]? = some 0 ↔ source = target.take k

theorem rowLength (x : Char) (target : List Char) (old : List Nat) (left : Nat)
    (size : old.length = target.length + 1) : (rowFrom x target old left).length = target.length := by
  induction target generalizing old left with
  | nil => rfl
  | cons y ys ih =>
    match old,size with
    | diagonal :: above :: rest,size => simpa [rowFrom] using ih (above :: rest) _ (by simpa using size)

/- Of the three ways to an entry only the one that keeps a character costs nothing. -/
theorem rowZero (x : Char) (target : List Char) (old : List Nat) (left k : Nat)
    (size : old.length = target.length + 1) :
    (rowFrom x target old left)[k]? = some 0 ↔ old[k]? = some 0 ∧ target[k]? = some x := by
  induction target generalizing old left k with
  | nil => simp [rowFrom]
  | cons y ys ih =>
    match old,size with
    | diagonal :: above :: rest,size =>
      cases k with
      | zero =>
        simp only [rowFrom,List.getElem?_cons_zero,Option.some.injEq]
        split <;> rename_i same
        · simp only [same,and_true]
          omega
        · simp only [Ne.symm same,and_false,iff_false]
          omega
      | succ k => simpa [rowFrom] using ih (above :: rest) _ k (by simpa using size)

theorem firstRow (target : List Char) : TellsSame [] target (List.range (target.length + 1)) := by
  refine ⟨List.length_range,fun k within => ?_⟩
  rw [List.getElem?_range (by omega),Option.some.injEq,eq_comm (a := []),List.take_eq_nil_iff]
  constructor
  · exact .inl
  · rintro (empty | empty)
    · exact empty
    · rw [empty] at within
      exact Nat.le_zero.mp within

theorem nextTells {source target : List Char} {row : List Nat} (tells : TellsSame source target row) (x : Char) :
    TellsSame (source ++ [x]) target (nextRow target row x) := by
  refine ⟨by simp [nextRow,rowLength x target row _ tells.size],fun k within => ?_⟩
  cases k with
  | zero => simp [nextRow]
  | succ k =>
    rw [nextRow,List.getElem?_cons_succ,rowZero x target row _ k tells.size,tells.zero k (by omega),
      List.take_add_one]
    have here : target[k]? = some target[k] := List.getElem?_eq_getElem within
    rw [here,Option.toList_some,Option.some.injEq]
    constructor
    · rintro ⟨rfl,rfl⟩
      rfl
    · intro same
      obtain ⟨front,last⟩ := List.append_inj' same rfl
      exact ⟨front,(List.singleton_inj.mp last).symm⟩

theorem rowsTell {target read : List Char} {row : List Nat} (tells : TellsSame read target row)
    (source : List Char) : TellsSame (read ++ source) target (source.foldl (nextRow target) row) := by
  induction source generalizing read row with
  | nil => simpa using tells
  | cons x xs ih => simpa using ih (nextTells tells x)

theorem distanceZero (a b : List Char) : distance a b = 0 ↔ a = b := by
  have tells := rowsTell (firstRow b) a
  have last := tells.zero b.length (Nat.le_refl _)
  rw [List.take_length,List.nil_append] at last
  rw [← last,distance,List.getLastD_eq_getLast?,List.getLast?_eq_getElem?,tells.size,Nat.add_sub_cancel]
  have inside : b.length < (a.foldl (nextRow b) (List.range (b.length + 1))).length := by
    rw [tells.size]
    exact Nat.lt_succ_self _
  simp [List.getElem?_eq_getElem inside]

end VoiceCommand.Text
