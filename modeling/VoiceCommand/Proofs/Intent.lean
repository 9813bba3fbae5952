import VoiceCommand.Intent
import VoiceCommand.Proofs.Text.Case

/-! The names of the intents. A text names at most one of them, and it names the same one when it is trimmed or put
in lower case. -/
namespace VoiceCommand.Intent
open Text (asciiLower isAscii isBlank sameName)

theorem nameLetters (i : Intent) :
    (asciiLower i.name.toList).all (fun c => isAscii c && !isBlank c) = true := by
  have all : ∀ i ∈ all, (asciiLower i.name.toList).all (fun c => isAscii c && !isBlank c) = true := by
    decide +kernel
  exact all i (mem_all i)

theorem nameLowered (i : Intent) : asciiLower (asciiLower i.name.toList) = asciiLower i.name.toList := by
  have all : ∀ i ∈ all, asciiLower (asciiLower i.name.toList) = asciiLower i.name.toList := by decide +kernel
  exact all i (mem_all i)

theorem nameOwn {i j : Intent} (same : asciiLower i.name.toList = asciiLower j.name.toList) : i = j := by
  have all : ∀ i ∈ all, ∀ j ∈ all, asciiLower i.name.toList = asciiLower j.name.toList → i = j := by
    decide +kernel
  exact all i (mem_all i) j (mem_all j) same

theorem ofNameOwn (i : Intent) : ofName? i.name = some i := by
  have all : ∀ i ∈ all, ofName? i.name = some i := by decide +kernel
  exact all i (mem_all i)

theorem parseNamed {s : String} {i : Intent} :
    parse? s = some i ↔ sameName i.name (Text.trim s) = true := by
  constructor
  · intro found
    have named := List.find?_some found
    exact named
  · intro named
    cases found : parse? s with
    | none => exact absurd named (by simpa using List.find?_eq_none.mp found i (mem_all i))
    | some j =>
      have other := List.find?_some found
      simp only [sameName,beq_iff_eq] at named other
      rw [nameOwn (other.trans named.symm)]

theorem parseTrim (s : String) : parse? (Text.trim s) = parse? s := by
  simp only [parse?,Text.trimTrim]

/- The folding of the names is ASCII, that of a text is Unicode; they agree on what names an intent. -/
theorem parseLower {s : String} {i : Intent} (named : sameName i.name s = true) :
    parse? (Text.lower s) = some i := by
  simp only [sameName,beq_iff_eq] at named
  have letters := nameLetters i
  rw [named] at letters
  have ascii : s.toList.all isAscii = true := by
    rw [← Text.asciiLowerAscii]
    exact List.all_eq_true.mpr fun c mem => (Bool.and_eq_true_iff.mp (List.all_eq_true.mp letters c mem)).1
  have solid : ∀ c ∈ asciiLower s.toList, isBlank c = false := fun c mem => by
    simpa using (Bool.and_eq_true_iff.mp (List.all_eq_true.mp letters c mem)).2
  have lowered : (Text.lower s).toList = asciiLower s.toList := by
    rw [Text.lower,String.toList_ofList,Text.lowerFromAscii ascii]
  have trimmed : (Text.trim (Text.lower s)).toList = asciiLower s.toList := by
    rw [Text.trim,String.toList_ofList,lowered,Text.stripSolid solid]
  refine parseNamed.mpr ?_
  rw [sameName,trimmed,← named,nameLowered,beq_self_eq_true]

end VoiceCommand.Intent
