import VoiceCommand.KeyMap

/-! Laws of the finite maps. A key that is inserted has its new value from then on, every other key keeps what it
had, and what a map holds for a key is one of its entries. -/
namespace VoiceCommand

variable {α β : Type}

theorem lookupFirst (key : String) (value : α) (rest : List (String × α)) (k : String) :
    ((key,value) :: rest).lookup k = if k = key then some value else rest.lookup k := by
  by_cases same : k = key
  · simp [same]
  · simp [List.lookup_cons,beq_false_of_ne same,same]

theorem lookupInserted (key : String) (value : α) (entries : List (String × α)) (k : String) :
    (insertSorted key value entries).lookup k = if k = key then some value else entries.lookup k := by
  induction entries with
  | nil => exact lookupFirst key value [] k
  | cons e rest ih =>
    obtain ⟨first,v⟩ := e
    simp only [insertSorted]
    split
    · exact lookupFirst key value _ k
    · split
      · rename_i replaced
        subst replaced
        simp only [lookupFirst]
        split <;> rfl
      · rename_i other
        simp only [lookupFirst,ih]
        split
        · rename_i same
          rw [if_neg (same ▸ Ne.symm other)]
        · rfl

namespace KeyMap

theorem getInsert (m : KeyMap α) (key : String) (value : α) (k : String) :
    (m.insert key value).get? k = if k = key then some value else m.get? k :=
  lookupInserted key value m.entries k

theorem getWithout (m : KeyMap α) (key k : String) :
    (m.filter fun other _ => other != key).get? k = if k = key then none else m.get? k := by
  simp only [get?,filter]
  induction m.entries with
  | nil => simp
  | cons e rest ih =>
    obtain ⟨first,v⟩ := e
    by_cases gone : first = key
    · rw [List.filter_cons_of_neg (by simp [gone]),ih,lookupFirst]
      split
      · rfl
      · rename_i other
        rw [if_neg (gone ▸ other)]
    · rw [List.filter_cons_of_pos (by simp [gone]),lookupFirst,lookupFirst,ih]
      split
      · rename_i here
        rw [if_neg (here ▸ gone)]
      · rfl

theorem getMem {m : KeyMap α} {key : String} {value : α} (found : m.get? key = some value) :
    (key,value) ∈ m.entries := by
  obtain ⟨before,after,split,_⟩ := List.lookup_eq_some_iff.mp found
  simp [split]

theorem memValues {m : KeyMap α} {value : α} (mem : value ∈ m.values) :
    ∃ key, (key,value) ∈ m.entries := by
  obtain ⟨⟨key,_⟩,held,rfl⟩ := List.mem_map.mp mem
  exact ⟨key,held⟩

/- In ascending order no key comes twice. -/
theorem memGet {m : KeyMap α} {key : String} {value : α} (mem : (key,value) ∈ m.entries) :
    m.get? key = some value := by
  obtain ⟨before,after,split⟩ := List.append_of_mem mem
  refine List.lookup_eq_some_iff.mpr ⟨before,after,split,fun e earlier => ?_⟩
  have ascending := m.ascending
  rw [split,Ascending] at ascending
  have less : e.1 < key := (List.pairwise_append.mp ascending).2.2 e earlier _ List.mem_cons_self
  exact bne_iff_ne.mpr fun same => String.lt_irrefl key (same ▸ less)

theorem sameEntries {m n : KeyMap α} (same : m.entries = n.entries) : m = n := by
  cases m
  cases n
  cases same
  rfl

theorem insertMapped (f : α → β) (key : String) (value : α) (entries : List (String × α)) :
    insertSorted key (f value) (entries.map fun e => (e.1,f e.2)) =
      (insertSorted key value entries).map fun e => (e.1,f e.2) := by
  induction entries with
  | nil => rfl
  | cons e rest ih =>
    obtain ⟨k,v⟩ := e
    simp only [List.map_cons,insertSorted,ih]
    split
    · rfl
    · split <;> rfl

/- Keys alone decide where an entry stands. -/
theorem ofListMapped (f : α → β) (entries : List (String × α)) :
    ofList (entries.map fun e => (e.1,f e.2)) = (ofList entries).mapValues f := by
  have onto (entries : List (String × α)) (m : KeyMap α) :
      (entries.map fun e => (e.1,f e.2)).foldl (fun m e => m.insert e.1 e.2) (m.mapValues f) =
        (entries.foldl (fun m e => m.insert e.1 e.2) m).mapValues f := by
    induction entries generalizing m with
    | nil => rfl
    | cons e rest ih =>
      have grown : (m.mapValues f).insert e.1 (f e.2) = (m.insert e.1 e.2).mapValues f :=
        sameEntries (insertMapped f e.1 e.2 m.entries)
      simp only [List.map_cons,List.foldl_cons,grown,ih]
  exact onto entries .empty

theorem single (key : String) (value : α) : (ofList [(key,value)]).entries = [(key,value)] :=
  ofAscending (List.pairwise_singleton _ _)

end KeyMap

end VoiceCommand
