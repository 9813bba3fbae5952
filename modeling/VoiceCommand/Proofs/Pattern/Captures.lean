import VoiceCommand.Pattern.Basic
import VoiceCommand.Proofs.Text.Normal

/-! What a match captures. A pattern can be read off for the number of its captures and for whether each of
them holds more than blanks in a text where blanks stand alone. -/
namespace VoiceCommand.Pattern
open Text (Spaced isBlank)

def captures : Pattern → Nat
  | seq p q | alt p q => p.captures + q.captures
  | group p | optional p => p.captures
  | capture p => p.captures + 1
  | empty | char _ | oneOf _ | many _ _ _ | boundary | start => 0

/-- Every match ends behind a blank that it has taken. -/
def endsBlank : Pattern → Bool
  | many .blank least _ => least != 0
  | seq _ q => q.endsBlank
  | group p => p.endsBlank
  | _ => false

/-- Every match captures as many texts as the pattern asks for, and none of blanks alone, provided that
blanks stand alone; `behind` tells that the match begins behind a blank. -/
def solid (behind : Bool) : Pattern → Bool
  | seq p q => p.solid behind && q.solid p.endsBlank
  | group p => p.solid behind
  | capture (many .digit least _) => least != 0
  | capture (many .any least _) => behind && least != 0
  | p => p.captures == 0

structure At (cs front : List Char) (place : Place) : Prop where
  split : cs = front ++ place.rest
  position : place.position = front.length

theorem atStart (cs : List Char) : At cs [] (.ofText cs) := ⟨rfl,rfl⟩

section
variable {cs front : List Char} {place e : Place}

theorem atStep (here : At cs front place) {c : Char} {rest : List Char} (next : place.rest = c :: rest) :
    At cs (front ++ [c]) (place.step c rest) :=
  ⟨by simp [here.split,next,Place.step],by simp [Place.step,here.position]⟩

theorem singleTakes {accepts : Char → Bool} (here : At cs front place) (mem : e ∈ single accepts place) :
    ∃ c, At cs (front ++ [c]) e ∧ e.before = some c ∧ e.captured = place.captured ∧ accepts c = true := by
  unfold single at mem
  split at mem
  · rename_i c rest next
    split at mem
    · rename_i accepted
      rw [List.mem_singleton.mp mem]
      exact ⟨c,atStep here next,rfl,rfl,accepted⟩
    · cases mem
  · cases mem

/-- The place lies behind as many characters as may be taken, all of which were accepted, and nothing was captured. -/
structure Reached (accepts : Char → Bool) (least : Nat) (most : Option Nat) (place : Place) (taken : List Char)
    (e : Place) : Prop where
  before : e.before = taken.getLast?.or place.before
  captured : e.captured = place.captured
  enough : least ≤ taken.length
  within : ∀ bound ∈ most, taken.length ≤ bound
  accepted : ∀ c ∈ taken, accepts c = true

section
variable {accepts : Char → Bool} {least : Nat} {most : Option Nat}

theorem reachedStill (place : Place) : Reached accepts 0 most place [] place :=
  ⟨rfl,rfl,Nat.le_refl _,by simp,by simp⟩

theorem reachedStep {c : Char} {rest taken : List Char} (room : most ≠ some 0) (accepted : accepts c = true)
    (later : Reached accepts (least - 1) (most.map (· - 1)) (place.step c rest) taken e) :
    Reached accepts least most place (c :: taken) e := by
  refine ⟨?_,later.captured,?_,fun bound limit => ?_,List.forall_mem_cons.mpr ⟨accepted,later.accepted⟩⟩
  · rw [later.before,List.getLast?_cons]
    cases taken.getLast? <;> rfl
  · have enough := later.enough
    rw [List.length_cons]
    omega
  · have left := later.within (bound - 1) (by rw [Option.mem_def.mp limit]; rfl)
    have positive : bound ≠ 0 := by
      rintro rfl
      exact room limit
    rw [List.length_cons]
    omega

/- The places already found come from the caller; the new ones lie behind characters that were accepted. -/
theorem reachTakes {found : List Place} {rest : List Char} (next : place.rest = rest) (here : At cs front place)
    (mem : e ∈ reach accepts least most place found rest) :
    e ∈ found ∨ ∃ taken, At cs (front ++ taken) e ∧ Reached accepts least most place taken e := by
  have stop {front : List Char} {place : Place} {least : Nat} {most : Option Nat} {found : List Place}
      (here : At cs front place) (mem : e ∈ if least = 0 then place :: found else found) :
      e ∈ found ∨ ∃ taken, At cs (front ++ taken) e ∧ Reached accepts least most place taken e := by
    split at mem
    · rename_i enough
      rcases List.mem_cons.mp mem with rfl | mem
      · exact .inr ⟨[],by simpa using here,enough ▸ reachedStill e⟩
      · exact .inl mem
    · exact .inl mem
  induction rest generalizing place front least most found with
  | nil => exact stop here mem
  | cons c rest ih =>
    simp only [reach] at mem
    split at mem
    · rename_i more
      obtain ⟨accepted,room⟩ := Bool.and_eq_true_iff.mp more
      rcases ih rfl (atStep here next) mem with mem | ⟨taken,there,reached⟩
      · exact stop here mem
      · exact .inr ⟨c :: taken,by simpa using there,reachedStep (bne_iff_ne.mp room) accepted reached⟩
    · exact stop here mem

end

theorem manyTakes {kind : CharKind} {least : Nat} {most : Option Nat} (here : At cs front place)
    (mem : e ∈ (many kind least most).run place) :
    ∃ taken, At cs (front ++ taken) e ∧ Reached kind.accepts least most place taken e := by
  rcases reachTakes rfl here mem with mem | taken
  · cases mem
  · exact taken

/- One case for each way to match: each end lies behind the characters taken, and without a capture in the
pattern nothing is captured. -/
theorem runTakes {p : Pattern} (here : At cs front place) (mem : e ∈ p.run place) :
    ∃ taken, At cs (front ++ taken) e ∧ (p.captures = 0 → e.captured = place.captured) := by
  induction p generalizing front place e with
  | empty =>
    rw [List.mem_singleton.mp mem]
    exact ⟨[],by simpa using here,fun _ => rfl⟩
  | char c =>
    obtain ⟨d,there,_,kept,_⟩ := singleTakes here mem
    exact ⟨[d],there,fun _ => kept⟩
  | oneOf cs =>
    obtain ⟨d,there,_,kept,_⟩ := singleTakes here mem
    exact ⟨[d],there,fun _ => kept⟩
  | many kind least most =>
    obtain ⟨taken,there,reached⟩ := manyTakes here mem
    exact ⟨taken,there,fun _ => reached.captured⟩
  | seq p q first second =>
    obtain ⟨m,before,after⟩ := List.mem_flatMap.mp mem
    obtain ⟨taken,there,unmarked⟩ := first here before
    obtain ⟨more,last,nothing⟩ := second there after
    refine ⟨taken ++ more,by simpa using last,fun zero => ?_⟩
    obtain ⟨left,right⟩ := Nat.add_eq_zero_iff.mp zero
    rw [nothing right,unmarked left]
  | alt p q first second =>
    rcases List.mem_append.mp mem with mem | mem
    · exact (first here mem).imp fun _ h => ⟨h.1,fun zero => h.2 (Nat.add_eq_zero_iff.mp zero).1⟩
    · exact (second here mem).imp fun _ h => ⟨h.1,fun zero => h.2 (Nat.add_eq_zero_iff.mp zero).2⟩
  | group p ih => exact ih here mem
  | optional p ih =>
    rcases List.mem_append.mp mem with mem | mem
    · exact ih here mem
    · rw [List.mem_singleton.mp mem]
      exact ⟨[],by simpa using here,fun _ => rfl⟩
  | capture p ih =>
    obtain ⟨m,inside,eq⟩ := List.mem_map.mp mem
    obtain ⟨taken,there,_⟩ := ih here inside
    have here : At cs (front ++ taken) e := by
      rw [← eq]
      exact ⟨there.split,there.position⟩
    exact ⟨taken,here,fun zero => absurd zero (by simp [captures])⟩
  | boundary =>
    simp only [run] at mem
    split at mem
    · rw [List.mem_singleton.mp mem]
      exact ⟨[],by simpa using here,fun _ => rfl⟩
    · cases mem
  | start =>
    simp only [run] at mem
    split at mem
    · rw [List.mem_singleton.mp mem]
      exact ⟨[],by simpa using here,fun _ => rfl⟩
    · cases mem

def BehindBlank (front : List Char) : Prop := ∃ before c, front = before ++ [c] ∧ isBlank c = true

theorem endsBehindBlank {p : Pattern} (ends : p.endsBlank = true) (here : At cs front place)
    (mem : e ∈ p.run place) : ∃ taken, At cs (front ++ taken) e ∧ BehindBlank (front ++ taken) := by
  induction p generalizing front place e with
  | many kind least most =>
    cases kind with
    | blank =>
      obtain ⟨taken,there,reached⟩ := manyTakes here mem
      have enough := reached.enough
      have nonempty : taken ≠ [] := fun empty => by simp [empty] at enough; simp [endsBlank,enough] at ends
      refine ⟨taken,there,front ++ taken.dropLast,taken.getLast nonempty,?_,reached.accepted _ (List.getLast_mem nonempty)⟩
      rw [List.append_assoc,List.dropLast_append_getLast]
    | digit => simp [endsBlank] at ends
    | any => simp [endsBlank] at ends
  | seq p q first second =>
    obtain ⟨m,before,after⟩ := List.mem_flatMap.mp mem
    obtain ⟨taken,there,_⟩ := runTakes here before
    obtain ⟨more,last,blank⟩ := second ends there after
    exact ⟨taken ++ more,by simpa using last,by simpa using blank⟩
  | group p ih => exact ih ends here mem
  | _ => simp [endsBlank] at ends

/-- The span marks a part of the text that is not blank. -/
def Marks (cs : List Char) (span : Nat × Nat) : Prop :=
  ∃ before text after, cs = before ++ (text ++ after) ∧ span = (before.length,before.length + text.length) ∧
    ∃ c ∈ text, isBlank c = false

theorem marksTaken {taken : List Char} (here : At cs front place) (there : At cs (front ++ taken) e)
    {c : Char} (mem : c ∈ taken) (solid : isBlank c = false) : Marks cs (place.position,e.position) :=
  ⟨front,taken,e.rest,by rw [there.split,List.append_assoc],
    by rw [here.position,there.position,List.length_append],c,mem,solid⟩

theorem firstSolid (spaced : Spaced cs) {taken : List Char} (nonempty : taken ≠ []) {rest : List Char}
    (split : cs = front ++ (taken ++ rest)) (blank : BehindBlank front) :
    ∃ c ∈ taken, isBlank c = false := by
  obtain ⟨before,b,ends,isBlank⟩ := blank
  obtain ⟨c,later,begins⟩ := List.exists_cons_of_ne_nil nonempty
  have shape : cs = before ++ b :: c :: (later ++ rest) := by simp [split,ends,begins]
  unfold Spaced at spaced
  rw [shape,List.isChain_append_cons_cons] at spaced
  rcases spaced.2.1 with solid | solid
  · rw [isBlank] at solid
    cases solid
  · exact ⟨c,by simp [begins],solid⟩

/- Only two kinds of text are captured: digits, and any characters behind a blank. -/
theorem captureMarks {p : Pattern} {behind : Bool} (solid : (capture p).solid behind = true)
    (spaced : Spaced cs) (blank : behind = true → BehindBlank front) (here : At cs front place)
    (mem : e ∈ p.run place) :
    p.captures = 0 ∧ e.captured = place.captured ∧ Marks cs (place.position,e.position) := by
  cases p with
  | many kind least most =>
    obtain ⟨taken,there,_,kept,enough,_,all⟩ := manyTakes here mem
    have filled (positive : least ≠ 0) : taken ≠ [] := fun empty => by
      simp only [empty,List.length_nil,Nat.le_zero] at enough
      exact positive enough
    refine ⟨rfl,kept,?_⟩
    cases kind with
    | blank => simp [Pattern.solid,captures] at solid
    | digit =>
      obtain ⟨c,rest,begins⟩ := List.exists_cons_of_ne_nil (filled (by simpa [Pattern.solid] using solid))
      have mem : c ∈ taken := by simp [begins]
      exact marksTaken here there mem (Text.digitSolid (all c mem))
    | any =>
      simp only [Pattern.solid,Bool.and_eq_true,bne_iff_ne] at solid
      obtain ⟨c,mem,solid⟩ := firstSolid spaced (filled solid.2)
        (by rw [there.split,List.append_assoc]) (blank solid.1)
      exact marksTaken here there mem solid
  | _ => simp [Pattern.solid,captures] at solid

/- Along the pattern. What counts of the part before a place is only whether it ends with a blank. -/
theorem solidRun {p : Pattern} {behind : Bool} (solid : p.solid behind = true) (spaced : Spaced cs)
    (blank : behind = true → BehindBlank front) (here : At cs front place) (mem : e ∈ p.run place) :
    ∃ new, e.captured = place.captured ++ new ∧ new.length = p.captures ∧ ∀ span ∈ new, Marks cs span := by
  have uncaptured {p : Pattern} {place e : Place} {front : List Char} (free : (p.captures == 0) = true)
      (here : At cs front place) (mem : e ∈ p.run place) : ∃ new, e.captured = place.captured ++ new ∧
        new.length = p.captures ∧ ∀ span ∈ new, Marks cs span := by
    obtain ⟨_,_,kept⟩ := runTakes here mem
    exact ⟨[],by simpa using kept (beq_iff_eq.mp free),(beq_iff_eq.mp free).symm,by simp⟩
  induction p generalizing front place e behind with
  | seq p q first second =>
    simp only [Pattern.solid,Bool.and_eq_true] at solid
    obtain ⟨m,before,after⟩ := List.mem_flatMap.mp mem
    obtain ⟨new,grown,count,marks⟩ := first solid.1 blank here before
    have middle : ∃ taken, At cs (front ++ taken) m ∧
        (p.endsBlank = true → BehindBlank (front ++ taken)) := by
      cases ends : p.endsBlank with
      | true => exact (endsBehindBlank ends here before).imp fun _ h => ⟨h.1,fun _ => h.2⟩
      | false => exact (runTakes here before).imp fun _ h => ⟨h.1,by simp⟩
    obtain ⟨taken,there,ending⟩ := middle
    obtain ⟨more,later,rest,others⟩ := second solid.2 ending there after
    refine ⟨new ++ more,by rw [later,grown,List.append_assoc],by simp [count,rest,captures],?_⟩
    intro span mem
    rcases List.mem_append.mp mem with mem | mem
    · exact marks span mem
    · exact others span mem
  | group p ih => exact ih solid blank here mem
  | capture p _ =>
    obtain ⟨m,inside,eq⟩ := List.mem_map.mp mem
    obtain ⟨single,kept,marks⟩ := captureMarks solid spaced blank here inside
    refine ⟨[(place.position,m.position)],by rw [← eq,kept],by simp [captures,single],?_⟩
    intro span mem
    rw [List.mem_singleton.mp mem]
    exact marks
  | _ => exact uncaptured solid here mem

end

/-- In a text where blanks stand alone, a match of a pattern that asks for it captures as many texts as the
pattern says, each a part of the text that is not blank. -/
theorem matchCaptures {p : Pattern} (solid : p.solid false = true) {cs : List Char} (spaced : Spaced cs)
    {m : Match} (found : p.match? cs = some m) : m.captures.length = p.captures ∧
      ∀ text ∈ m.captures, text <:+: cs ∧ ∃ c ∈ text, isBlank c = false := by
  obtain ⟨e,first,eq⟩ := Option.map_eq_some_iff.mp found
  have mem : e ∈ p.run (.ofText cs) := List.mem_of_head? first
  obtain ⟨new,grown,count,marks⟩ := solidRun solid spaced (by simp) (atStart cs) mem
  have all : e.captured = new := grown
  rw [← eq]
  refine ⟨by simp [all,count],fun text mem => ?_⟩
  obtain ⟨span,inside,cut⟩ := List.mem_map.mp mem
  rw [all] at inside
  obtain ⟨before,part,after,split,same,shown⟩ := marks span inside
  have own : text = part := by
    rw [← cut,same]
    simp [split]
  rw [own]
  exact ⟨⟨before,after,by rw [split,List.append_assoc]⟩,shown⟩

end VoiceCommand.Pattern
