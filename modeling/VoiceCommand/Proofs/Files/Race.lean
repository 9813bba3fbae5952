import VoiceCommand.Files.Race

/-! What two programs have done with one file, read off their deeds: who has looked into it, who has replaced it, and
whether one of them replaced it before the other looked. -/
namespace VoiceCommand

def Side.other : Side → Side
  | .left => .right
  | .right => .left

@[simp] theorem Side.otherTwice (s : Side) : s.other.other = s := by cases s <;> rfl

theorem Side.otherNot (s : Side) : s.other ≠ s := by cases s <;> decide

theorem Side.isOther {s t : Side} (different : t ≠ s) : t = s.other := by
  cases s <;> cases t <;> first | rfl | exact absurd rfl different

namespace Deed

/-- Tells what is in the file: its text, or that there is none. -/
def looksInto (path : String) : Deed → Bool
  | ⟨_,.read p,_⟩ => p == path
  | ⟨_,.present p,there⟩ => p == path && !there
  | _ => false

def replaces (path : String) : Deed → Bool
  | ⟨_,.rename _ target,done⟩ => target == path && done
  | _ => false

end Deed

namespace Race

def looked (path : String) (log : List Deed) (s : Side) : Bool :=
  log.any fun deed => deed.side == s && deed.looksInto path

def replaced (path : String) (log : List Deed) (s : Side) : Bool :=
  log.any fun deed => deed.side == s && deed.replaces path

/-- This side has replaced the file, and the other one had not looked into it before. -/
def heeded (path : String) (log : List Deed) (s : Side) : Bool :=
  (log.find? fun deed => if deed.side = s then deed.replaces path else deed.looksInto path).any (·.side == s)

section
variable {path : String} {log : List Deed} {deed : Deed} {s : Side}

theorem lookedMore (path : String) (log : List Deed) (deed : Deed) (s : Side) : looked path (log ++ [deed]) s =
    (looked path log s || (deed.side == s && deed.looksInto path)) := by
  simp [looked]

theorem replacedMore (path : String) (log : List Deed) (deed : Deed) (s : Side) : replaced path (log ++ [deed]) s =
    (replaced path log s || (deed.side == s && deed.replaces path)) := by
  simp [replaced]

theorem heededMore (path : String) (log : List Deed) (deed : Deed) (s : Side) : heeded path (log ++ [deed]) s =
    match log.find? fun deed => if deed.side = s then deed.replaces path else deed.looksInto path with
    | some first => first.side == s
    | none => deed.side == s && deed.replaces path := by
  unfold heeded
  rw [List.find?_append]
  cases log.find? fun deed => if deed.side = s then deed.replaces path else deed.looksInto path with
  | some first => rfl
  | none =>
    by_cases own : deed.side = s
    · cases done : deed.replaces path <;> simp [own,done]
    · cases done : deed.looksInto path <;> simp [own,done]

theorem heededKept (quiet : deed.side ≠ s ∨ deed.replaces path = false) :
    heeded path (log ++ [deed]) s = heeded path log s := by
  rw [heededMore,heeded]
  cases log.find? fun deed => if deed.side = s then deed.replaces path else deed.looksInto path with
  | some first => rfl
  | none =>
    rcases quiet with foreign | quiet
    · simp [foreign]
    · simp [quiet]

/- Once the other side has looked, nothing that comes later counts. -/
theorem heededSettled (known : looked path log s.other = true) :
    heeded path (log ++ [deed]) s = heeded path log s := by
  rw [heededMore,heeded]
  cases found : log.find? fun deed => if deed.side = s then deed.replaces path else deed.looksInto path with
  | some first => rfl
  | none =>
    obtain ⟨look,mem,both⟩ := List.any_eq_true.mp known
    obtain ⟨side,looks⟩ := Bool.and_eq_true_iff.mp both
    have foreign : look.side ≠ s := by
      rw [beq_iff_eq.mp side]
      exact s.otherNot
    exact absurd (List.find?_eq_none.mp found look mem) (by simp [foreign,looks])

theorem heededOther (known : looked path log s = true) :
    heeded path (log ++ [deed]) s.other = heeded path log s.other :=
  heededSettled (by rwa [Side.otherTwice])

theorem heededReplaced (heed : heeded path log s = true) : replaced path log s = true := by
  unfold heeded at heed
  cases found : log.find? fun deed => if deed.side = s then deed.replaces path else deed.looksInto path with
  | none => simp [found] at heed
  | some first =>
    have own : first.side = s := by simpa [found] using heed
    have counts := List.find?_some found
    exact List.any_eq_true.mpr ⟨first,List.mem_of_find?_eq_some found,by simpa [own] using counts⟩

theorem unreplacedUnheeded (unreplaced : replaced path log s = false) : heeded path log s = false := by
  cases heed : heeded path log s with
  | false => rfl
  | true => exact (heededReplaced heed).symm.trans unreplaced

theorem heededUnlooked (unlooked : looked path log s.other = false) : heeded path log s = replaced path log s := by
  cases done : replaced path log s with
  | false => exact unreplacedUnheeded done
  | true =>
    obtain ⟨deed,mem,both⟩ := List.any_eq_true.mp done
    obtain ⟨side,replaces⟩ := Bool.and_eq_true_iff.mp both
    unfold heeded
    cases found : log.find? fun deed => if deed.side = s then deed.replaces path else deed.looksInto path with
    | none => exact absurd (List.find?_eq_none.mp found deed mem) (by simp [beq_iff_eq.mp side,replaces])
    | some first =>
      by_cases own : first.side = s
      · simp [own]
      · have counts := List.find?_some found
        rw [if_neg own] at counts
        have looks := List.any_eq_false.mp unlooked first (List.mem_of_find?_eq_some found)
        exact absurd (by simp [Side.isOther own,counts]) looks

end

section
variable {r : Race α} {s : Side}

theorem turnDone {a : α} (ended : r.program s = .done a) : r.turn s = r := by
  unfold turn
  rw [ended]

theorem turnBlocked {op : FileOp} {next : op.Reply → Program α} (program : r.program s = .step op next)
    (blocked : r.disk.blocks op = true) : r.turn s = r := by
  unfold turn
  rw [program]
  simp only [blocked,if_true]

theorem turnStep {op : FileOp} {next : op.Reply → Program α} (program : r.program s = .step op next)
    (free : r.disk.blocks op = false) : r.turn s =
      ⟨fun t => if t = s then next (r.disk.perform op).1 else r.program t,(r.disk.perform op).2,
        r.log ++ [⟨s,op,(r.disk.perform op).1⟩]⟩ := by
  unfold turn
  rw [program]
  simp only [free,Bool.false_eq_true,if_false]

end

end Race

end VoiceCommand
