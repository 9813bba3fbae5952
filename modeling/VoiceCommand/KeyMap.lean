/-! Finite maps from text keys, held in ascending order of the keys. Two maps with the same entries
are equal, and every listing of a map has this order. -/
namespace VoiceCommand

def insertSorted (key : String) (value : α) : List (String × α) → List (String × α)
  | [] => [(key,value)]
  | (k,v) :: rest =>
    if key < k then (key,value) :: (k,v) :: rest
    else if key = k then (key,value) :: rest
    else (k,v) :: insertSorted key value rest

def Ascending (entries : List (String × α)) : Prop := entries.Pairwise fun a b => a.1 < b.1

theorem memInserted {key : String} {value : α} {entries : List (String × α)} {e : String × α}
    (mem : e ∈ insertSorted key value entries) : e = (key,value) ∨ e ∈ entries := by
  induction entries with
  | nil => exact .inl (List.mem_singleton.mp mem)
  | cons first rest ih =>
    simp only [insertSorted] at mem
    split at mem
    · exact List.mem_cons.mp mem
    · split at mem
      · exact (List.mem_cons.mp mem).imp_right (List.mem_cons_of_mem _)
      · rcases List.mem_cons.mp mem with here | later
        · exact .inr (here ▸ List.mem_cons_self)
        · exact (ih later).imp_right (List.mem_cons_of_mem _)

theorem Ascending.insertSorted {key : String} {value : α} {entries : List (String × α)}
    (h : Ascending entries) : Ascending (insertSorted key value entries) := by
  induction entries with
  | nil => simp [VoiceCommand.insertSorted,Ascending]
  | cons e rest ih =>
    obtain ⟨below,tail⟩ := List.pairwise_cons.1 h
    simp only [VoiceCommand.insertSorted]
    split
    · rename_i lt
      refine List.pairwise_cons.2 ⟨fun b mem => ?_,h⟩
      rcases List.mem_cons.1 mem with rfl | mem
      · exact lt
      · exact String.lt_trans lt (below b mem)
    · split
      · rename_i eq
        exact List.pairwise_cons.2 ⟨fun b mem => eq ▸ below b mem,tail⟩
      · rename_i notLt ne
        refine List.pairwise_cons.2 ⟨fun b mem => ?_,ih tail⟩
        rcases memInserted mem with rfl | mem
        · change e.1 < key
          exact Decidable.byContradiction fun notGt =>
            ne (String.le_antisymm (String.not_lt.1 notGt) (String.not_lt.1 notLt))
        · exact below b mem

theorem insertLast {key : String} {value : α} {entries : List (String × α)}
    (last : ∀ e ∈ entries, e.1 < key) : insertSorted key value entries = entries ++ [(key,value)] := by
  induction entries with
  | nil => rfl
  | cons e rest ih =>
    obtain ⟨k,v⟩ := e
    have before : k < key := last (k,v) List.mem_cons_self
    have notAfter : ¬ key < k := fun after => String.lt_irrefl _ (String.lt_trans before after)
    have other : key ≠ k := fun same => String.lt_irrefl k (same ▸ before)
    rw [insertSorted,if_neg notAfter,if_neg other,ih fun e mem => last e (List.mem_cons_of_mem _ mem)]
    rfl

structure KeyMap (α : Type) where
  entries : List (String × α)
  ascending : Ascending entries

namespace KeyMap

instance [DecidableEq α] : DecidableEq (KeyMap α) := fun a b =>
  if h : a.entries = b.entries then isTrue (by cases a; cases b; cases h; rfl)
  else isFalse fun eq => h (eq ▸ rfl)

instance [Repr α] : Repr (KeyMap α) := ⟨fun m p => reprPrec m.entries p⟩

def empty : KeyMap α := ⟨[],.nil⟩

instance : Inhabited (KeyMap α) := ⟨empty⟩

def get? (m : KeyMap α) (key : String) : Option α := m.entries.lookup key

def insert (m : KeyMap α) (key : String) (value : α) : KeyMap α :=
  ⟨insertSorted key value m.entries,m.ascending.insertSorted⟩

/-- Of two values for a key the later one counts. -/
def ofList (entries : List (String × α)) : KeyMap α :=
  entries.foldl (fun m e => m.insert e.1 e.2) empty

theorem ofAscending {entries : List (String × α)} (ascending : Ascending entries) :
    (ofList entries).entries = entries := by
  have onto (entries : List (String × α)) (m : KeyMap α) (all : Ascending (m.entries ++ entries)) :
      (entries.foldl (fun m e => m.insert e.1 e.2) m).entries = m.entries ++ entries := by
    induction entries generalizing m with
    | nil => simp
    | cons e rest ih =>
      have last : ∀ d ∈ m.entries, d.1 < e.1 := fun d mem =>
        (List.pairwise_append.mp all).2.2 d mem e List.mem_cons_self
      have grown : (m.insert e.1 e.2).entries = m.entries ++ [e] := insertLast last
      rw [List.foldl_cons,ih _ (by simpa [grown] using all),grown,List.append_assoc]
      rfl
  exact onto entries .empty ascending

def keys (m : KeyMap α) : List String := m.entries.map (·.1)

def values (m : KeyMap α) : List α := m.entries.map (·.2)

def isEmpty (m : KeyMap α) : Bool := m.entries.isEmpty

def filter (m : KeyMap α) (p : String → α → Bool) : KeyMap α :=
  ⟨m.entries.filter fun e => p e.1 e.2,m.ascending.filter _⟩

def mapValues (m : KeyMap α) (f : α → β) : KeyMap β :=
  ⟨m.entries.map fun e => (e.1,f e.2),by
    simpa [Ascending,List.pairwise_map] using m.ascending⟩

end KeyMap

abbrev Entities := KeyMap String

end VoiceCommand
