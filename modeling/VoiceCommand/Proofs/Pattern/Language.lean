import VoiceCommand.Proofs.Pattern.Captures
import VoiceCommand.Text.Case

/-! What a pattern takes, told without a search. The places where a match can end are the ends of the texts that the
pattern takes, no more and no fewer; and of a run of characters the longest comes first. -/
namespace VoiceCommand.Pattern
open Text (asciiLower isBlank)

/-- The pattern takes the text that stands between the two others. -/
def Takes : Pattern → List Char → List Char → List Char → Prop
  | empty, _, taken, _ => taken = []
  | char c, _, taken, _ => ∃ d, taken = [d] ∧ sameLetter c d = true
  | oneOf cs, _, taken, _ => ∃ d, taken = [d] ∧ cs.any (sameLetter · d) = true
  | many kind least most, _, taken, _ =>
    least ≤ taken.length ∧ (∀ bound ∈ most, taken.length ≤ bound) ∧ ∀ c ∈ taken, kind.accepts c = true
  | seq p q, front, taken, rest => ∃ first second, taken = first ++ second ∧
    p.Takes front first (second ++ rest) ∧ q.Takes (front ++ first) second rest
  | alt p q, front, taken, rest => p.Takes front taken rest ∨ q.Takes front taken rest
  | group p, front, taken, rest | capture p, front, taken, rest => p.Takes front taken rest
  | optional p, front, taken, rest => p.Takes front taken rest ∨ taken = []
  | boundary, front, taken, rest => taken = [] ∧ Text.isBoundary front.getLast? rest.head? = true
  | start, front, taken, _ => taken = [] ∧ front = []

/-- The place lies between these two parts of a text. -/
structure Between (front rest : List Char) (place : Place) : Prop where
  before : place.before = front.getLast?
  rest : place.rest = rest
  position : place.position = front.length

theorem betweenStart (cs : List Char) : Between [] cs (.ofText cs) := ⟨rfl,rfl,rfl⟩

section
variable {front rest : List Char} {place e : Place}

theorem Between.at (here : Between front rest place) : At (front ++ rest) front place :=
  ⟨by rw [here.rest],here.position⟩

theorem betweenStep {c : Char} (here : Between front (c :: rest) place) :
    Between (front ++ [c]) rest (place.step c rest) :=
  ⟨by simp [Place.step],rfl,by simp [Place.step,here.position]⟩

theorem betweenStill (here : Between front rest place) : Between (front ++ []) rest place := by
  rwa [List.append_nil]

section
variable {accepts : Char → Bool}

/- What was taken stands between the two places. -/
theorem betweenBehind {taken : List Char} (here : Between front rest place)
    (there : At (front ++ rest) (front ++ taken) e) (before : e.before = taken.getLast?.or place.before) :
    rest = taken ++ e.rest ∧ Between (front ++ taken) e.rest e := by
  have split := there.split
  rw [List.append_assoc,List.append_cancel_left_eq] at split
  exact ⟨split,by rw [before,here.before,List.getLast?_append],rfl,there.position⟩

theorem singleSound (here : Between front rest place) (mem : e ∈ single accepts place) :
    ∃ c later, rest = c :: later ∧ accepts c = true ∧ Between (front ++ [c]) later e := by
  obtain ⟨c,there,before,_,accepted⟩ := singleTakes here.at mem
  obtain ⟨split,behind⟩ := betweenBehind here there (by rw [before]; rfl)
  exact ⟨c,e.rest,split,accepted,behind⟩

theorem singleComplete {c : Char} (here : Between front (c :: rest) place) (accepted : accepts c = true) :
    ∃ e ∈ single accepts place, Between (front ++ [c]) rest e := by
  refine ⟨place.step c rest,?_,betweenStep here⟩
  unfold single
  rw [here.rest]
  simp [accepted]

theorem reachKeeps {least : Nat} {most : Option Nat} {found : List Place} (mem : e ∈ found) :
    e ∈ reach accepts least most place found rest := by
  have kept {place : Place} {found : List Place} (mem : e ∈ found) :
      e ∈ if least = 0 then place :: found else found := by
    split
    · exact List.mem_cons_of_mem _ mem
    · exact mem
  induction rest generalizing place least most found with
  | nil => exact kept mem
  | cons c rest ih =>
    rw [reach]
    split
    · refine ih ?_ fun mem => ?_
      · exact kept mem
      · split
        · exact List.mem_cons_of_mem _ mem
        · exact mem
    · exact kept mem

theorem reachComplete {least : Nat} {most : Option Nat} {found : List Place} {taken : List Char}
    (here : Between front (taken ++ rest) place) (enough : least ≤ taken.length)
    (within : ∀ bound ∈ most, taken.length ≤ bound) (all : ∀ c ∈ taken, accepts c = true) :
    ∃ e ∈ reach accepts least most place found (taken ++ rest), Between (front ++ taken) rest e := by
  induction taken generalizing place front least most found with
  | nil =>
    have done : least = 0 := by simpa using enough
    subst done
    refine ⟨place,?_,betweenStill here⟩
    cases rest with
    | nil => exact List.mem_cons_self
    | cons c rest =>
      rw [List.nil_append,reach]
      split
      · exact reachKeeps List.mem_cons_self
      · exact List.mem_cons_self
  | cons c taken ih =>
    obtain ⟨accepted,later⟩ := List.forall_mem_cons.mp all
    have room : most ≠ some 0 := fun exhausted => by simpa using within 0 (Option.mem_def.mpr exhausted)
    have fewer : ∀ bound ∈ most.map (· - 1), taken.length ≤ bound := by
      intro bound limit
      obtain ⟨limit',given,rfl⟩ := Option.map_eq_some_iff.mp (Option.mem_def.mp limit)
      have one := within limit' given
      rw [List.length_cons] at one
      omega
    have less : least - 1 ≤ taken.length := by
      rw [List.length_cons] at enough
      omega
    obtain ⟨e,mem,there⟩ := ih (betweenStep here) less fewer later
    refine ⟨e,?_,by simpa using there⟩
    rw [List.cons_append,reach,if_pos (by simp [accepted,room])]
    exact mem

/- The place behind as many characters as may be taken comes first. -/
theorem reachFirst {least : Nat} {most : Option Nat} {found : List Place} {taken : List Char}
    (here : Between front (taken ++ rest) place) (enough : least ≤ taken.length)
    (all : ∀ c ∈ taken, accepts c = true) (ends : most = some taken.length ∨
      (∀ bound ∈ most, taken.length ≤ bound) ∧ rest.head?.any accepts = false) :
    ∃ e others, reach accepts least most place found (taken ++ rest) = e :: others ∧
      Between (front ++ taken) rest e := by
  induction taken generalizing place front least most found with
  | nil =>
    have done : least = 0 := by simpa using enough
    subst done
    refine ⟨place,found,?_,betweenStill here⟩
    cases rest with
    | nil => rfl
    | cons c rest =>
      have stop : ¬ (accepts c && most != some 0) = true := by
        rcases ends with full | ⟨_,other⟩
        · simp [full]
        · have refused : accepts c = false := by simpa using other
          simp [refused]
      rw [List.nil_append,reach,if_neg stop]
      rfl
  | cons c taken ih =>
    obtain ⟨accepted,later⟩ := List.forall_mem_cons.mp all
    have room : most ≠ some 0 := by
      rintro rfl
      rcases ends with full | ⟨within,_⟩
      · cases full
      · simpa using within 0 rfl
    have less : least - 1 ≤ taken.length := by
      rw [List.length_cons] at enough
      omega
    have ends' : most.map (· - 1) = some taken.length ∨
        (∀ bound ∈ most.map (· - 1), taken.length ≤ bound) ∧ rest.head?.any accepts = false := by
      rcases ends with full | ⟨within,other⟩
      · exact .inl (by rw [full]; rfl)
      · refine .inr ⟨fun bound limit => ?_,other⟩
        obtain ⟨limit',given,rfl⟩ := Option.map_eq_some_iff.mp (Option.mem_def.mp limit)
        have one := within limit' given
        rw [List.length_cons] at one
        omega
    obtain ⟨e,others,same,there⟩ := ih (betweenStep here) less later ends'
    refine ⟨e,others,?_,by simpa using there⟩
    rw [List.cons_append,reach,if_pos (by simp [accepted,room])]
    exact same

end

theorem manySound {kind : CharKind} {least : Nat} {most : Option Nat} (here : Between front rest place)
    (mem : e ∈ (many kind least most).run place) : ∃ taken later, rest = taken ++ later ∧
      Between (front ++ taken) later e ∧ (many kind least most).Takes front taken later := by
  obtain ⟨taken,there,reached⟩ := manyTakes here.at mem
  obtain ⟨split,behind⟩ := betweenBehind here there reached.before
  exact ⟨taken,e.rest,split,behind,reached.enough,reached.within,reached.accepted⟩

/- As long as another character may be taken, it is. -/
theorem takenFarthest {accepts : Char → Bool} {most : Option Nat} {taken : List Char}
    (within : ∀ bound ∈ most, taken.length ≤ bound) (all : ∀ c ∈ taken, accepts c = true) (later : List Char) :
    ∃ more rest, later = more ++ rest ∧ (∀ c ∈ taken ++ more, accepts c = true) ∧
      (most = some (taken ++ more).length ∨
        (∀ bound ∈ most, (taken ++ more).length ≤ bound) ∧ rest.head?.any accepts = false) := by
  induction later generalizing taken with
  | nil => exact ⟨[],[],rfl,by simpa using all,.inr ⟨by simpa using within,rfl⟩⟩
  | cons c later ih =>
    by_cases full : most = some taken.length
    · exact ⟨[],c :: later,rfl,by simpa using all,.inl (by simpa using full)⟩
    · cases accepted : accepts c with
      | false => exact ⟨[],c :: later,rfl,by simpa using all,.inr ⟨by simpa using within,accepted⟩⟩
      | true =>
        have room : ∀ bound ∈ most, (taken ++ [c]).length ≤ bound := by
          intro bound limit
          have other : bound ≠ taken.length := by
            rintro rfl
            exact full limit
          rw [List.length_append]
          exact Nat.lt_of_le_of_ne (within bound limit) other.symm
        obtain ⟨more,rest,rfl,longer,ends⟩ :=
          ih room (List.forall_mem_append.mpr ⟨all,List.forall_mem_singleton.mpr accepted⟩)
        rw [List.append_assoc] at longer ends
        exact ⟨c :: more,rest,rfl,longer,ends⟩

/- Of the places behind a run the farthest is preferred, and only its bound or another character ends it. -/
theorem manyFirst {kind : CharKind} {least : Nat} {most : Option Nat} (here : Between front rest place)
    (first : ((many kind least most).run place).head? = some e) : ∃ taken later, rest = taken ++ later ∧
      Between (front ++ taken) later e ∧ (many kind least most).Takes front taken later ∧
      (most = some taken.length ∨ later.head?.any kind.accepts = false) := by
  obtain ⟨taken,later,rfl,_,enough,within,all⟩ := manySound here (List.mem_of_head? first)
  obtain ⟨more,rest,rfl,longer,ends⟩ := takenFarthest within all later
  rw [← List.append_assoc] at here ⊢
  have grown : least ≤ (taken ++ more).length := by
    rw [List.length_append]
    exact Nat.le_add_right_of_le enough
  obtain ⟨m,others,same,there⟩ := reachFirst here grown longer ends
  rw [run,here.rest,same] at first
  cases Option.some.inj first
  refine ⟨taken ++ more,rest,rfl,there,⟨grown,?_,longer⟩,ends.imp_right And.right⟩
  rintro bound limit
  rcases ends with full | ⟨bounded,_⟩
  · exact Nat.le_of_eq (Option.some.inj (full.symm.trans limit))
  · exact bounded bound limit

/- One case for each way to match, here and in the next proof. -/
theorem runSound {p : Pattern} (here : Between front rest place) (mem : e ∈ p.run place) :
    ∃ taken later, rest = taken ++ later ∧ Between (front ++ taken) later e ∧ p.Takes front taken later := by
  have still := betweenStill here
  induction p generalizing front rest place e with
  | empty =>
    rw [List.mem_singleton.mp mem]
    exact ⟨[],rest,rfl,still,rfl⟩
  | char c =>
    obtain ⟨d,later,rfl,same,there⟩ := singleSound here mem
    exact ⟨[d],later,rfl,there,d,rfl,same⟩
  | oneOf cs =>
    obtain ⟨d,later,rfl,same,there⟩ := singleSound here mem
    exact ⟨[d],later,rfl,there,d,rfl,same⟩
  | many kind least most => exact manySound here mem
  | seq p q first second =>
    obtain ⟨m,before,after⟩ := List.mem_flatMap.mp mem
    obtain ⟨taken,later,rfl,middle,takes⟩ := first here before still
    obtain ⟨more,last,rfl,there,takes'⟩ := second middle after (betweenStill middle)
    refine ⟨taken ++ more,last,(List.append_assoc ..).symm,?_,taken,more,rfl,takes,takes'⟩
    rwa [← List.append_assoc]
  | alt p q first second =>
    rcases List.mem_append.mp mem with mem | mem
    · obtain ⟨taken,later,split,there,takes⟩ := first here mem still
      exact ⟨taken,later,split,there,.inl takes⟩
    · obtain ⟨taken,later,split,there,takes⟩ := second here mem still
      exact ⟨taken,later,split,there,.inr takes⟩
  | group p ih => exact ih here mem still
  | optional p ih =>
    rcases List.mem_append.mp mem with mem | mem
    · obtain ⟨taken,later,split,there,takes⟩ := ih here mem still
      exact ⟨taken,later,split,there,.inl takes⟩
    · rw [List.mem_singleton.mp mem]
      exact ⟨[],rest,rfl,still,.inr rfl⟩
  | capture p ih =>
    obtain ⟨m,inside,rfl⟩ := List.mem_map.mp mem
    obtain ⟨taken,later,split,there,takes⟩ := ih here inside still
    exact ⟨taken,later,split,⟨there.before,there.rest,there.position⟩,takes⟩
  | boundary =>
    simp only [run,here.before,here.rest] at mem
    split at mem
    · rename_i lies
      rw [List.mem_singleton.mp mem]
      exact ⟨[],rest,rfl,still,rfl,lies⟩
    · cases mem
  | start =>
    simp only [run,here.position,List.length_eq_zero_iff] at mem
    split at mem
    · rename_i first
      rw [List.mem_singleton.mp mem]
      exact ⟨[],rest,rfl,still,rfl,first⟩
    · cases mem

theorem runComplete {p : Pattern} {taken : List Char} (here : Between front (taken ++ rest) place)
    (takes : p.Takes front taken rest) : ∃ e ∈ p.run place, Between (front ++ taken) rest e := by
  induction p generalizing front taken rest place with
  | empty =>
    cases takes
    exact ⟨place,List.mem_singleton_self _,betweenStill here⟩
  | char c =>
    obtain ⟨d,rfl,same⟩ := takes
    exact singleComplete here same
  | oneOf cs =>
    obtain ⟨d,rfl,same⟩ := takes
    exact singleComplete here same
  | many kind least most =>
    obtain ⟨enough,within,all⟩ := takes
    rw [run,here.rest]
    exact reachComplete here enough within all
  | seq p q first second =>
    obtain ⟨taken,more,rfl,takes,takes'⟩ := takes
    rw [List.append_assoc] at here
    obtain ⟨m,before,middle⟩ := first here takes
    obtain ⟨e,after,there⟩ := second middle takes'
    rw [List.append_assoc] at there
    exact ⟨e,List.mem_flatMap.mpr ⟨m,before,after⟩,there⟩
  | alt p q first second =>
    rcases takes with takes | takes
    · obtain ⟨e,mem,there⟩ := first here takes
      exact ⟨e,List.mem_append_left _ mem,there⟩
    · obtain ⟨e,mem,there⟩ := second here takes
      exact ⟨e,List.mem_append_right _ mem,there⟩
  | group p ih => exact ih here takes
  | optional p ih =>
    rcases takes with takes | rfl
    · obtain ⟨e,mem,there⟩ := ih here takes
      exact ⟨e,List.mem_append_left _ mem,there⟩
    · exact ⟨place,List.mem_append_right _ (List.mem_singleton_self _),betweenStill here⟩
  | capture p ih =>
    obtain ⟨e,mem,there⟩ := ih here takes
    exact ⟨_,List.mem_map_of_mem mem,⟨there.before,there.rest,there.position⟩⟩
  | boundary =>
    obtain ⟨rfl,lies⟩ := takes
    refine ⟨place,?_,betweenStill here⟩
    simp [run,here.before,here.rest,lies]
  | start =>
    obtain ⟨rfl,rfl⟩ := takes
    refine ⟨place,?_,betweenStill here⟩
    simp [run,here.position]

end

/- The end that is preferred is the one that the second part prefers behind some end of the first. -/
theorem seqFirst {p q : Pattern} {place e : Place} (first : ((seq p q).run place).head? = some e) :
    ∃ m ∈ p.run place, (q.run m).head? = some e := by
  rw [run,List.head?_flatMap] at first
  exact List.exists_of_findSome?_eq_some first

section
variable {front taken rest : List Char}

/- Only for "s" and "k" are there letters beyond ASCII that are the same up to case. -/
theorem lettersTake {cs : List Char} (plain : 's' ∉ cs ∧ 'k' ∉ cs) :
    (ofChars cs).Takes front taken rest ↔ asciiLower taken = cs := by
  have letter {c d : Char} (ordinary : c ≠ 's' ∧ c ≠ 'k') : sameLetter c d = true ↔ d.toLower = c := by
    simp [sameLetter,ordinary]
  induction cs using Pattern.ofChars.induct generalizing front taken rest with
  | case1 => simp [ofChars,Takes,asciiLower]
  | case2 c =>
    have ordinary : c ≠ 's' ∧ c ≠ 'k' := by simpa [eq_comm] using plain
    simp only [ofChars,Takes,letter ordinary,asciiLower,List.map_eq_singleton_iff]
  | case3 c cs more ih =>
    have ordinary : c ≠ 's' ∧ c ≠ 'k' := ⟨fun same => plain.1 (by simp [same]),fun same => plain.2 (by simp [same])⟩
    have others : 's' ∉ cs ∧ 'k' ∉ cs :=
      ⟨fun mem => plain.1 (List.mem_cons_of_mem _ mem),fun mem => plain.2 (List.mem_cons_of_mem _ mem)⟩
    rw [ofChars.eq_3 c cs more]
    simp only [Takes,letter ordinary,ih others]
    constructor
    · rintro ⟨_,second,rfl,⟨d,rfl,rfl⟩,rfl⟩
      rfl
    · intro same
      obtain ⟨d,second,rfl,first,later⟩ := List.map_eq_cons_iff.mp same
      exact ⟨[d],second,rfl,⟨d,rfl,first⟩,later⟩

def Gap (cs : List Char) : Prop := cs ≠ [] ∧ ∀ c ∈ cs, isBlank c = true

theorem gapEnds {gap : List Char} (h : Gap gap) : ∃ front c, gap = front ++ [c] ∧ isBlank c = true :=
  ⟨gap.dropLast,gap.getLast h.1,(List.dropLast_concat_getLast h.1).symm,h.2 _ (List.getLast_mem h.1)⟩

theorem blanksTake : blanks.Takes front taken rest ↔ Gap taken := by
  have counted : 1 ≤ taken.length ↔ taken ≠ [] := List.length_pos_iff
  simp only [blanks,Takes,Gap,counted]
  exact ⟨fun ⟨filled,_,all⟩ => ⟨filled,all⟩,fun ⟨filled,all⟩ => ⟨filled,by simp,all⟩⟩

end

/-- A match begins with the text if and only if the pattern takes some beginning of it, and the match is such a
beginning. -/
theorem matchTakes {p : Pattern} {cs : List Char} : ((p.match? cs).isSome = true ↔
      ∃ taken rest, cs = taken ++ rest ∧ p.Takes [] taken rest) ∧
    ∀ m, p.match? cs = some m → ∃ taken rest, cs = taken ++ rest ∧ m.length = taken.length ∧
      p.Takes [] taken rest := by
  have sound (m : Match) (found : p.match? cs = some m) : ∃ taken rest, cs = taken ++ rest ∧
      m.length = taken.length ∧ p.Takes [] taken rest := by
    obtain ⟨e,first,rfl⟩ := Option.map_eq_some_iff.mp found
    obtain ⟨taken,rest,split,there,takes⟩ := runSound (betweenStart cs) (List.mem_of_head? first)
    exact ⟨taken,rest,split,there.position,takes⟩
  refine ⟨⟨fun found => ?_,?_⟩,sound⟩
  · obtain ⟨m,found⟩ := Option.isSome_iff_exists.mp found
    obtain ⟨taken,rest,split,_,takes⟩ := sound m found
    exact ⟨taken,rest,split,takes⟩
  · rintro ⟨taken,rest,rfl,takes⟩
    obtain ⟨e,mem,_⟩ := runComplete (betweenStart _) takes
    cases first : (p.run (.ofText (taken ++ rest))).head? with
    | none => simp [List.head?_eq_none_iff.mp first] at mem
    | some m => simp [match?,first]

end VoiceCommand.Pattern
