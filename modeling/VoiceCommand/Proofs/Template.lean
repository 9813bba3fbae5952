import VoiceCommand.Proofs.KeyMap
import VoiceCommand.Proofs.Text.Replace
import VoiceCommand.Template

/-! Templates, read as letters and slots, and what comes of them. Filling puts a value into every slot at once;
rendering replaces one key after another, and a key that is visited later is also replaced within the values that are
already there. -/
namespace VoiceCommand.Template

inductive Part where
  | letter (c : Char)
  | slot (key : String)
  deriving DecidableEq, Repr

namespace Part

def key? : Part → Option String
  | letter _ => none
  | slot key => some key

/-- What stands for the part. A slot without a value stays as it is. -/
def text (value? : String → Option String) : Part → List Char
  | letter c => [c]
  | slot key => ((value? key).getD (placeholder key)).toList

end Part

/-- Reads a template. After a brace that is open the characters of the key are kept, the last one first. -/
def partsFrom : Option (List Char) → List Char → List Part
  | none, [] => []
  | some key, [] => ('\x7b' :: key.reverse).map .letter
  | none, c :: cs => if c = '\x7b' then partsFrom (some []) cs else .letter c :: partsFrom none cs
  | some key, c :: cs =>
    if c = '\x7d' then .slot (String.ofList key.reverse) :: partsFrom none cs
    else if c = '\x7b' then ('\x7b' :: key.reverse).map .letter ++ partsFrom (some []) cs
    else partsFrom (some (c :: key)) cs

def parts (template : String) : List Part := partsFrom none template.toList

/-- The keys for which a template has a place. -/
def slots (template : String) : List String := (parts template).filterMap Part.key?

/-- The template with a value in each slot that has one, and nothing else changed. -/
def filled (template : String) (value? : String → Option String) : String :=
  String.ofList ((parts template).flatMap (Part.text value?))

def Bare (cs : List Char) : Prop := '\x7b' ∉ cs ∧ '\x7d' ∉ cs

instance (cs : List Char) : Decidable (Bare cs) := inferInstanceAs (Decidable (_ ∧ _))

theorem placeholderChars (key : String) : (placeholder key).toList = '\x7b' :: (key.toList ++ ['\x7d']) := by
  simp [placeholder]

theorem placeholderSome (key : String) : (placeholder key).toList ≠ [] := by
  rw [placeholderChars]
  exact List.cons_ne_nil _ _

theorem partsBehind {front : List Char} (closed : '\x7b' ∉ front) (rest : List Char) :
    partsFrom none (front ++ rest) = front.map .letter ++ partsFrom none rest := by
  induction front with
  | nil => rfl
  | cons c front ih =>
    rw [List.mem_cons,not_or] at closed
    rw [List.cons_append,partsFrom,if_neg (Ne.symm closed.1),ih closed.2]
    rfl

theorem partsKey {key : List Char} (bare : Bare key) (seen rest : List Char) :
    partsFrom (some seen) (key ++ '\x7d' :: rest) =
      .slot (String.ofList (seen.reverse ++ key)) :: partsFrom none rest := by
  induction key generalizing seen with
  | nil => simp [partsFrom]
  | cons c key ih =>
    simp only [Bare,List.mem_cons,not_or] at bare
    rw [List.cons_append,partsFrom,if_neg (Ne.symm bare.2.1),if_neg (Ne.symm bare.1.1),ih ⟨bare.1.2,bare.2.2⟩]
    simp

theorem partsPlain {template : String} (closed : '\x7b' ∉ template.toList) :
    parts template = template.toList.map .letter := by
  have read := partsBehind closed []
  rw [List.append_nil] at read
  rw [parts,read,partsFrom,List.append_nil]

theorem filledPlain {template : String} (closed : '\x7b' ∉ template.toList) (value? : String → Option String) :
    filled template value? = template := by
  simp [filled,partsPlain closed,List.flatMap_map,Part.text]

/-- A template with at most one slot, for this key, and no other braces. -/
inductive Shaped (template : String) : List String → Prop where
  | plain (closed : '\x7b' ∉ template.toList) : Shaped template []
  | single {front key back} (whole : template.toList = front ++ ((placeholder key).toList ++ back))
      (before : '\x7b' ∉ front) (behind : Bare back) (bare : Bare key.toList) : Shaped template [key]

theorem rowShaped {row : PatternRow} (listed : row ∈ PatternRow.all) : Shaped row.template row.keys := by
  let front (row : PatternRow) := row.template.toList.takeWhile (· ≠ '\x7b')
  let back (row : PatternRow) := (row.template.toList.dropWhile (· ≠ '\x7d')).drop 1
  have all : ∀ row ∈ PatternRow.all, row.keys = [] ∧ '\x7b' ∉ row.template.toList ∨ ∃ key ∈ row.keys,
      row.keys = [key] ∧ row.template.toList = front row ++ ((placeholder key).toList ++ back row) ∧
        '\x7b' ∉ front row ∧ Bare (back row) ∧ Bare key.toList := by
    decide +kernel
  rcases all row listed with ⟨unslotted,closed⟩ | ⟨key,_,only,whole,before,behind,bare⟩
  · exact unslotted ▸ .plain closed
  · exact only ▸ .single whole before behind bare

section
variable {template : String} {front back : List Char} {key : String}
  (whole : template.toList = front ++ ((placeholder key).toList ++ back)) (before : '\x7b' ∉ front)
  (behind : Bare back) (bare : Bare key.toList)
include whole before behind bare

theorem partsSingle : parts template = front.map .letter ++ .slot key :: back.map .letter := by
  have rest := partsBehind behind.1 []
  simp only [List.append_nil,partsFrom] at rest
  rw [parts,whole,partsBehind before,placeholderChars,List.cons_append,partsFrom,if_pos rfl,List.append_assoc,
    List.singleton_append,partsKey bare,rest]
  simp

theorem filledSingle (value? : String → Option String) : filled template value? =
    String.ofList (front ++ (((value? key).getD (placeholder key)).toList ++ back)) := by
  have letters (cs : List Char) : (cs.map Part.letter).flatMap (Part.text value?) = cs := by
    simp [List.flatMap_map,Part.text]
  rw [filled,partsSingle whole before behind bare,List.flatMap_append,List.flatMap_cons,letters,letters]
  rfl

end

theorem shapedSlots {template : String} {keys : List String} (h : Shaped template keys) :
    slots template = keys := by
  have letters (cs : List Char) : (cs.map Part.letter).filterMap Part.key? = [] := by
    simp [List.filterMap_map,Function.comp_def,Part.key?]
  cases h with
  | plain closed => rw [slots,partsPlain closed,letters]
  | single whole before behind bare =>
    rw [slots,partsSingle whole before behind bare,List.filterMap_append,List.filterMap_cons,letters,letters]
    rfl

/-- The text after the placeholders of these keys were replaced by their values, one after another. -/
def visited (order : List (String × String)) (text : String) : String :=
  order.foldl (fun text e => Text.replace text (placeholder e.1) e.2) text

theorem visitStep (text key new : String) : Text.replace text (placeholder key) new = text ↔
    ((placeholder key).toList <:+: text.toList → new = placeholder key) := by
  rw [Text.replace,← String.toList_inj,String.toList_ofList,Text.replaceFixed (placeholderSome key),
    String.toList_inj]

theorem visitStill {order : List (String × String)} {text : String}
    (still : ∀ e ∈ order, (placeholder e.1).toList <:+: text.toList → e.2 = placeholder e.1) :
    visited order text = text := by
  induction order with
  | nil => rfl
  | cons e rest ih =>
    have first := (visitStep text e.1 e.2).mpr (still e List.mem_cons_self)
    rw [visited,List.foldl_cons,first]
    exact ih fun e mem => still e (List.mem_cons_of_mem _ mem)

theorem visitClosed {text : String} (closed : '\x7b' ∉ text.toList) (order : List (String × String)) :
    visited order text = text :=
  visitStill fun e _ here => absurd (here.subset (by simp [placeholderChars])) closed

/- No placeholder reaches over the edge of what stands in a slot. -/
theorem visitWithin {front back : List Char} (before : '\x7b' ∉ front) (behind : '\x7d' ∉ back)
    (order : List (String × String)) (text : String) :
    visited order (String.ofList (front ++ (text.toList ++ back))) =
      String.ofList (front ++ ((visited order text).toList ++ back)) := by
  induction order generalizing text with
  | nil => rfl
  | cons e rest ih =>
    have opens : (placeholder e.1).toList.head? = some '\x7b' := by simp [placeholderChars]
    have ends : (placeholder e.1).toList.getLast? = some '\x7d' := by
      rw [placeholderChars,← List.cons_append,List.getLast?_concat]
    have first : Text.replace (String.ofList (front ++ (text.toList ++ back))) (placeholder e.1) e.2 =
        String.ofList (front ++ ((Text.replace text (placeholder e.1) e.2).toList ++ back)) := by
      simp only [Text.replace,String.toList_ofList,Text.replaceBehind _ opens before,
        Text.replaceBefore _ ends behind]
    rw [visited,List.foldl_cons,first]
    exact ih _

/- The only open brace of a placeholder is its first character, and the only closing one its last. -/
theorem placeholderApart {key other : String} (bare : Bare key.toList)
    (here : (placeholder other).toList <:+: (placeholder key).toList) : other = key := by
  obtain ⟨front,back,whole⟩ := here
  rw [placeholderChars,placeholderChars] at whole
  cases front with
  | cons c front =>
    have inside := (List.cons.inj whole).2
    have opened : '\x7b' ∈ key.toList ++ ['\x7d'] := by simp [← inside]
    simp [bare.1] at opened
  | nil =>
    have inside : other.toList ++ '\x7d' :: back = key.toList ++ ['\x7d'] := by simpa using whole
    rcases List.append_eq_append_iff.mp inside with ⟨middle,rest,ends⟩ | ⟨middle,rest,ends⟩
    · cases middle with
      | nil => exact String.toList_inj.mp (by simpa using rest.symm)
      | cons d middle =>
        obtain ⟨rfl,_⟩ := List.cons.inj ends
        exact absurd (by simp [rest]) bare.2
    · cases middle with
      | nil => exact String.toList_inj.mp (by simpa using rest)
      | cons d middle => simp at ends

theorem shapedBare {template : String} {keys : List String} (h : Shaped template keys) :
    ∀ key ∈ keys, Bare key.toList := by
  cases h with
  | plain closed => simp
  | single whole before behind bare => simpa using bare

/- Around a slot nothing is changed, so all depends on what becomes of the placeholder. -/
theorem visitedFilled {template : String} {keys : List String} (h : Shaped template keys)
    (order : List (String × String)) (value? : String → Option String) :
    visited order template = filled template value? ↔
      ∀ key ∈ keys, visited order (placeholder key) = (value? key).getD (placeholder key) := by
  cases h with
  | plain closed => simp [visitClosed closed,filledPlain closed]
  | @single front key back whole before behind bare =>
    have split : template = String.ofList (front ++ ((placeholder key).toList ++ back)) := by
      rw [← whole,String.ofList_toList]
    rw [filledSingle whole before behind bare]
    conv_lhs => rw [split,visitWithin before behind.2]
    rw [String.ofList_inj,List.append_cancel_left_eq,List.append_cancel_right_eq,String.toList_inj]
    simp

theorem filledClosed {template : String} {keys : List String} (h : Shaped template keys)
    (value? : String → Option String) : '\x7b' ∉ (filled template value?).toList ↔
      ∀ key ∈ keys, '\x7b' ∉ ((value? key).getD (placeholder key)).toList := by
  cases h with
  | plain closed => simpa [filledPlain closed] using closed
  | single whole before behind bare => simp [filledSingle whole before behind bare,before,behind.1]

section
variable {key : String} (bare : Bare key.toList)
include bare

theorem visitOther {order : List (String × String)} (others : ∀ e ∈ order, e.1 ≠ key) :
    visited order (placeholder key) = placeholder key :=
  visitStill fun e mem here => absurd (placeholderApart bare here) (others e mem)

theorem visitSlot {order : List (String × String)} (others : ∀ e ∈ order, e.1 ≠ key) (value : String)
    (behind : List (String × String)) :
    visited (order ++ (key,value) :: behind) (placeholder key) = visited behind value := by
  have put : Text.replace (placeholder key) (placeholder key) value = value := by
    have found := Text.replaceFound value.toList (placeholderSome key) []
    rw [List.append_nil] at found
    rw [Text.replace,found]
    simp [Text.replaceFrom]
  have first := visitOther bare others
  rw [visited] at first
  rw [visited,List.foldl_append,List.foldl_cons,first,put]
  rfl

end

/-- The entries that are visited behind the key. -/
def later (entities : Entities) (key : String) : Entities := entities.filter fun other _ => decide (key < other)

theorem entriesLater {entities : Entities} {key value : String} {before behind : List (String × String)}
    (split : entities.entries = before ++ (key,value) :: behind) :
    (∀ e ∈ before, e.1 ≠ key) ∧ (later entities key).entries = behind := by
  have ascending := entities.ascending
  rw [split,Ascending,List.pairwise_append,List.pairwise_cons] at ascending
  obtain ⟨_,⟨after,_⟩,sooner⟩ := ascending
  have less (e : String × String) (mem : e ∈ before) : e.1 < key := sooner e mem _ List.mem_cons_self
  have passed : before.filter (fun e => decide (key < e.1)) = [] :=
    List.filter_eq_nil_iff.mpr fun e mem passes => String.lt_asymm (less e mem) (of_decide_eq_true passes)
  have kept : behind.filter (fun e => decide (key < e.1)) = behind :=
    List.filter_eq_self.mpr fun e mem => decide_eq_true (after e mem)
  refine ⟨fun e mem same => String.lt_irrefl key (same ▸ less e mem),?_⟩
  change entities.entries.filter _ = _
  rw [split,List.filter_append,List.filter_cons_of_neg (by simp),passed,kept]
  rfl

/- The keys in front of it leave a slot alone, and those behind it find its value. -/
theorem renderSlot {key : String} (bare : Bare key.toList) (entities : Entities) :
    visited entities.entries (placeholder key) =
      ((entities.get? key).map fun value => render value (later entities key)).getD (placeholder key) := by
  cases found : entities.get? key with
  | none =>
    have others := List.lookup_eq_none_iff.mp found
    exact visitOther bare fun e mem same => by simpa [same] using others e mem
  | some value =>
    obtain ⟨before,behind,split⟩ := List.append_of_mem (KeyMap.getMem found)
    obtain ⟨others,rest⟩ := entriesLater split
    rw [split,visitSlot bare others,← rest]
    rfl

theorem rendered {template : String} {keys : List String} (h : Shaped template keys) (entities : Entities) :
    render template entities =
      filled template fun key => (entities.get? key).map fun value => render value (later entities key) :=
  (visitedFilled h _ _).mpr fun key mem => renderSlot (shapedBare h key mem) entities

theorem keysApart {entities : Entities} {order : List (String × String)} (perm : order.Perm entities.entries) :
    order.Pairwise fun a b => a.1 ≠ b.1 := by
  refine perm.symm.pairwise (List.Pairwise.imp (fun {a b} less same => ?_) entities.ascending) Ne.symm
  exact String.lt_irrefl b.1 (same ▸ less)

/- Among the orders is one in which a single key comes behind that of the slot. -/
theorem visitAnyOrder {key : String} (bare : Bare key.toList) (entities : Entities) :
    (∀ order : List (String × String), order.Perm entities.entries →
      visited order (placeholder key) = (entities.get? key).getD (placeholder key)) ↔
    ∀ value, entities.get? key = some value → ∀ other new, entities.get? other = some new → other ≠ key →
      (placeholder other).toList <:+: value.toList → new = placeholder other := by
  constructor
  · intro every value found other new there apart here
    have second : (other,new) ∈ entities.entries.erase (key,value) :=
      (List.mem_erase_of_ne fun same => apart (congrArg Prod.fst same)).mpr (KeyMap.getMem there)
    have perm : ((entities.entries.erase (key,value)).erase (other,new) ++ [(key,value),(other,new)]).Perm
        entities.entries :=
      List.perm_append_comm.trans (((List.perm_cons_erase second).symm.cons _).trans
        (List.perm_cons_erase (KeyMap.getMem found)).symm)
    have others := (List.pairwise_append.mp (keysApart perm)).2.2
    have alone := every _ perm
    rw [visitSlot bare fun e mem => others e mem _ List.mem_cons_self,found,Option.getD_some] at alone
    exact (visitStep value other new).mp alone here
  · intro still order perm
    cases found : entities.get? key with
    | none =>
      have others := List.lookup_eq_none_iff.mp found
      exact visitOther bare fun e mem same => by simpa [same] using others e (perm.subset mem)
    | some value =>
      obtain ⟨before,behind,split⟩ := List.append_of_mem (perm.symm.subset (KeyMap.getMem found))
      have apart := keysApart perm
      rw [split,List.pairwise_append,List.pairwise_cons] at apart
      obtain ⟨_,⟨after,_⟩,sooner⟩ := apart
      rw [split,visitSlot bare fun e mem => sooner e mem _ List.mem_cons_self,Option.getD_some]
      refine visitStill fun e mem here => ?_
      have held : e ∈ entities.entries := perm.subset (by simp [split,mem])
      exact still value found e.1 e.2 (KeyMap.memGet held) (after e mem).symm here

/-- Rendering a row fills its slots with the values, each as the keys behind its own leave it. So the values are
inserted as they are if and only if these keys leave them alone; and so they are whatever the order of the keys, if
and only if no value that is inserted holds the placeholder of another key, unless that would be replaced by itself. -/
theorem insertedVerbatim {row : PatternRow} (listed : row ∈ PatternRow.all) (entities : Entities) :
    render row.template entities =
      filled row.template (fun key => (entities.get? key).map fun value => render value (later entities key)) ∧
    (render row.template entities = filled row.template entities.get? ↔
      ∀ key ∈ slots row.template, ∀ value, entities.get? key = some value →
        render value (later entities key) = value) ∧
    ((∀ order : List (String × String), order.Perm entities.entries →
        visited order row.template = filled row.template entities.get?) ↔
      ∀ key ∈ slots row.template, ∀ value, entities.get? key = some value →
        ∀ other new, entities.get? other = some new → other ≠ key →
          (placeholder other).toList <:+: value.toList → new = placeholder other) := by
  have shaped := rowShaped listed
  have bare := shapedBare shaped
  rw [shapedSlots shaped]
  refine ⟨rendered shaped entities,?_,?_⟩
  · refine (visitedFilled shaped entities.entries _).trans (forall₂_congr fun key mem => ?_)
    rw [renderSlot (bare key mem)]
    cases entities.get? key <;> simp
  · constructor
    · intro every key mem
      refine (visitAnyOrder (bare key mem) entities).mp fun order perm => ?_
      exact (visitedFilled shaped order _).mp (every order perm) key mem
    · intro still order perm
      refine (visitedFilled shaped order _).mpr fun key mem => ?_
      exact (visitAnyOrder (bare key mem) entities).mpr (still key mem) order perm

theorem quitVerbatim :
    let entities := KeyMap.ofList [("appName","\x7bdraft\x7d 5"),("level","5")]
    ∃ row ∈ PatternRow.all, row.intent = .quitApp ∧ render row.template entities = "Quit \x7bdraft\x7d 5" ∧
      ∀ order : List (String × String), order.Perm entities.entries →
        visited order row.template = "Quit \x7bdraft\x7d 5" := by
  intro entities
  have quit : ∃ row ∈ PatternRow.all, row.intent = .quitApp ∧ slots row.template = ["appName"] ∧
      filled row.template entities.get? = "Quit \x7bdraft\x7d 5" := by decide +kernel
  obtain ⟨row,listed,intent,slot,full⟩ := quit
  obtain ⟨_,_,inAnyOrder⟩ := insertedVerbatim listed entities
  have name : entities.get? "appName" = some "\x7bdraft\x7d 5" := by decide +kernel
  have absent : ∀ e ∈ entities.entries, e.1 ≠ "appName" →
      ¬ (placeholder e.1).toList <:+: "\x7bdraft\x7d 5".toList := by decide +kernel
  have every := inAnyOrder.mpr fun key mem value found other new there apart here => by
    rw [slot,List.mem_singleton] at mem
    rw [mem] at found apart
    rw [name,Option.some.injEq] at found
    rw [← found] at here
    exact (absent (other,new) (KeyMap.getMem there) apart here).elim
  rw [full] at every
  exact ⟨row,listed,intent,every entities.entries (.refl _),every⟩

/- The value of one key looks like the placeholder of another that comes later in the alphabet. -/
theorem levelInserted :
    let entities := KeyMap.ofList [("appName","\x7blevel\x7d"),("level","5")]
    ∃ row ∈ PatternRow.all, row.intent = .quitApp ∧ render row.template entities = "Quit 5" ∧
      filled row.template entities.get? = "Quit \x7blevel\x7d" ∧
      visited entities.entries.reverse row.template = "Quit \x7blevel\x7d" := by
  intro entities
  decide +kernel

end VoiceCommand.Template
