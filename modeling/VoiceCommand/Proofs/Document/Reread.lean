import VoiceCommand.Proofs.Document.Written

/-! Documents read again. What was written is read to its end, and comes back as it was, except that the reader makes
its own number of the digits of a real one. -/
namespace VoiceCommand.Document

namespace Value

/-- A real number as it is read again. -/
def rereal (x : Binary64) : Value := (Json.value 1 (Json.realText x)).1

mutual

def reread : Value → Value
  | real x => rereal x
  | list items ending => list (rereadItems items) ending
  | table members ending => table (rereadMembers members) ending
  | v => v

def rereadItems : List Value → List Value
  | [] => []
  | v :: vs => v.reread :: rereadItems vs

def rereadMembers : List (Option String × Value) → List (Option String × Value)
  | [] => []
  | (key,v) :: ms => (key,v.reread) :: rereadMembers ms

end

theorem itemsReread (items : List Value) : rereadItems items = items.map reread := by
  induction items with
  | nil => simp [rereadItems]
  | cons v vs ih => simp [rereadItems,ih]

theorem membersReread (members : List (Option String × Value)) :
    rereadMembers members = members.map fun m => (m.1,m.2.reread) := by
  induction members with
  | nil => simp [rereadMembers]
  | cons m ms ih => simp [rereadMembers,ih]

end Value

namespace Json

/-- The text of `v` is read to its end, if there is fuel for each of its characters. -/
def Readable (text : List Char) (v : Value) : Prop :=
  ∀ fuel rest, Ends rest → text.length ≤ fuel → value fuel (text ++ rest) = (v,some rest)

theorem fuelLeft {fuel : Nat} (enough : 1 < fuel + 1) : ∃ left, fuel = left + 1 :=
  Nat.exists_eq_add_one_of_ne_zero (by omega)

theorem digitSolid {c : Char} (digit : c.isDigit = true) : isSpace c = false := by
  cases space : isSpace c with
  | false => rfl
  | true =>
    simp only [isSpace,Bool.or_eq_true,beq_iff_eq] at space
    rcases space with ((rfl | rfl) | rfl) | rfl <;> cases digit

theorem spaceDropped {c : Char} (solid : isSpace c = false) (cs : List Char) : dropSpace (c :: cs) = c :: cs :=
  List.dropWhile_cons_of_neg (by simp [solid])

theorem indentationDropped (level : Nat) (cs : List Char) : dropSpace (indentation level ++ cs) = dropSpace cs := by
  unfold dropSpace indentation
  rw [List.dropWhile_append_of_pos]
  intro c mem
  rcases List.mem_cons.mp mem with rfl | mem
  · rfl
  · rw [List.eq_of_mem_replicate mem]
    rfl

theorem digitsRead {c : Char} (digit : c.isDigit = true) (fuel : Nat) (cs : List Char) :
    value (fuel + 1) (c :: cs) = number false (c :: cs) := by
  rw [value,spaceDropped (digitSolid digit)]
  split
  all_goals rename_i begins; cases begins
  all_goals first | rw [if_pos digit] | cases digit

section
variable {m : Nat} (small : m < Binary64.infinity) {p : Parts}
  (written : Written (Decimal.shortest m) (magnitudeText m) p)
include small written

theorem numberRead (negative : Bool) (fuel : Nat) {rest : List Char} (ends : Ends rest) :
    value (fuel + 1) (realText (.number negative m) ++ rest) = (p.value negative,some rest) := by
  have taken : number negative (magnitudeText m ++ rest) = (p.value negative,some rest) := by
    rw [number,written.read rest ends]
  obtain ⟨c,more,text,digit⟩ := magnitudeBegins small
  rw [realText,if_neg (Nat.ne_of_lt small),← taken]
  cases negative with
  | false =>
    rw [text]
    exact digitsRead digit fuel (more ++ rest)
  | true => rfl

theorem rerealWritten (negative : Bool) : Value.rereal (.number negative m) = p.value negative := by
  have alone := numberRead small written negative 0 (by simp [Ends] : Ends [])
  rw [List.append_nil] at alone
  rw [Value.rereal,alone]

end

theorem realRead {x : Binary64} (finite : x.IsFinite) : Readable (realText x) (Value.rereal x) := by
  obtain ⟨negative,m,rfl,small⟩ := finite
  obtain ⟨p,written⟩ := magnitudeWritten small
  obtain ⟨c,more,text,_⟩ := magnitudeBegins small
  intro fuel rest ends enough
  have filled : (realText (.number negative m)).length ≠ 0 := by
    rw [realText,if_neg (Nat.ne_of_lt small),text]
    simp
  obtain ⟨fuel,rfl⟩ := Nat.exists_eq_add_one_of_ne_zero (by omega : fuel ≠ 0)
  rw [rerealWritten small written]
  exact numberRead small written negative fuel ends

theorem escapedLength (cs : List Char) : cs.length ≤ (cs.flatMap escaped).length := by
  induction cs with
  | nil => exact Nat.le_refl _
  | cons c cs ih =>
    have filled : 1 ≤ (escaped c).length := by
      rcases escapedRead c with ⟨text,_⟩ | ⟨more,text,_⟩ <;> simp [text]
    rw [List.flatMap_cons,List.length_append,List.length_cons]
    omega

theorem literalRead (s : String) (rest : List Char) :
    ∃ more, textLiteral s ++ rest = '"' :: more ∧ string more = .ok (some s.toList,rest) := by
  refine ⟨s.toList.flatMap escaped ++ '"' :: rest,by simp [textLiteral],?_⟩
  have enough := escapedLength s.toList
  exact stringRead s.toList rest [] (by rw [List.length_append]; omega)

theorem textRead (s : String) : Readable (textLiteral s) (.text s) := by
  intro fuel rest ends enough
  obtain ⟨fuel,rfl⟩ : ∃ left, fuel = left + 1 :=
    Nat.exists_eq_add_of_le' (Nat.le_trans (by simp [textLiteral]) enough)
  obtain ⟨more,text,read⟩ := literalRead s rest
  rw [text,value,spaceDropped rfl]
  simp [textValue,read]

section
variable {α : Type} {level : Nat} {text : α → List Char} {closing : Char} {rest : List Char}

theorem furtherDropped (solid : isSpace closing = false) :
    dropSpace (furtherLines level text closing rest []) = closing :: rest := by
  rw [furtherLines,List.flatMap_nil,List.nil_append,indentationDropped,spaceDropped solid]

theorem furtherCons (a : α) (as : List α) : furtherLines level text closing rest (a :: as) =
    ',' :: (indentation (level + 1) ++ (text a ++ furtherLines level text closing rest as)) := by
  simp [furtherLines]

theorem furtherLength (as : List α) : 1 < (furtherLines level text closing [] as).length := by
  simp [furtherLines,indentation]
  omega

/- The first line of a block differs from a further one in its first character only. -/
theorem blockLength (opening : Char) (a : α) (as : List α) :
    (block level opening closing ((a :: as).map text)).length =
      (furtherLines level text closing [] (a :: as)).length := by
  rw [← List.append_nil (block level opening closing _),blockLines,furtherCons,List.length_cons,List.length_cons]

theorem lineLength {fuel : Nat} {a : α} {as : List α}
    (enough : (furtherLines level text closing [] (a :: as)).length ≤ fuel + 2) :
    (text a).length ≤ fuel ∧ (furtherLines level text closing [] as).length ≤ fuel + 1 := by
  rw [furtherCons] at enough
  simp only [List.length_cons,List.length_append,indentation] at enough
  omega

end

/-- The text of a value begins with a character that does not end a list. -/
def Opens (text : List Char) : Prop := ∃ c more, text = c :: more ∧ isSpace c = false ∧ c ≠ ']'

theorem firstItem {cs more : List Char} {c : Char} (begins : dropSpace cs = c :: more) (other : c ≠ ']')
    (fuel : Nat) : items (fuel + 1) true cs = items (fuel + 1) false (',' :: cs) := by
  rw [items,items,begins,spaceDropped rfl]
  simp [begins,other]

section
variable {text : Value → List Char} (again : Value → Value) (level : Nat) {list : List Value}
  (readable : ∀ v ∈ list, Readable (text v) (again v) ∧ Opens (text v))
include readable

theorem furtherItems (rest : List Char) {fuel : Nat}
    (enough : (furtherLines level text ']' [] list).length ≤ fuel + 1) :
    items fuel false (furtherLines level text ']' rest list) = (list.map again,.closed,some rest) := by
  induction list generalizing fuel with
  | nil =>
    obtain ⟨fuel,rfl⟩ := fuelLeft (Nat.lt_of_lt_of_le (furtherLength []) enough)
    rw [items,furtherDropped rfl]
    rfl
  | cons v vs ih =>
    obtain ⟨fuel,rfl⟩ := fuelLeft (Nat.lt_of_lt_of_le (furtherLength (v :: vs)) enough)
    obtain ⟨read,c,more,begins,solid,other⟩ := readable v List.mem_cons_self
    obtain ⟨size,sizes⟩ := lineLength enough
    have dropped : dropSpace (indentation (level + 1) ++ (text v ++ furtherLines level text ']' rest vs)) =
        c :: (more ++ furtherLines level text ']' rest vs) := by
      rw [indentationDropped,begins,List.cons_append,spaceDropped solid]
    have first := read fuel (furtherLines level text ']' rest vs) (furtherEnds vs) size
    rw [begins,List.cons_append] at first
    have later := ih (fun w mem => readable w (List.mem_cons_of_mem _ mem)) sizes
    rw [furtherCons,items,spaceDropped rfl]
    simp only [Bool.false_eq_true,if_false]
    split
    · rename_i lead
      cases lead
    · rename_i lead
      cases lead
    · rename_i lead
      cases lead
      rw [if_pos rfl,dropped]
      split
      · rename_i lead
        cases lead
      · rename_i lead
        cases lead
        exact absurd rfl other
      · simp [first,later]

theorem listRead : Readable (block level '[' ']' (list.map text)) (.list (list.map again) .closed) := by
  intro fuel rest ends enough
  cases list with
  | nil =>
    obtain ⟨fuel,rfl⟩ : ∃ left, fuel = left + 2 := Nat.exists_eq_add_of_le' enough
    rfl
  | cons v vs =>
    rw [blockLength] at enough
    obtain ⟨fuel,rfl⟩ : ∃ left, fuel = left + 2 :=
      Nat.exists_eq_add_of_le' (Nat.le_trans (furtherLength (v :: vs)) enough)
    obtain ⟨read,c,more,begins,solid,other⟩ := readable v List.mem_cons_self
    have dropped : dropSpace (indentation (level + 1) ++ (text v ++ furtherLines level text ']' rest vs)) =
        c :: (more ++ furtherLines level text ']' rest vs) := by
      rw [indentationDropped,begins,List.cons_append,spaceDropped solid]
    have all := furtherItems again level readable rest enough
    rw [furtherCons,← firstItem dropped other] at all
    rw [blockLines,value,spaceDropped rfl]
    simp [all]

end

theorem firstMember {cs more : List Char} (begins : dropSpace cs = '"' :: more) (fuel : Nat) :
    members (fuel + 1) true cs = members (fuel + 1) false (',' :: cs) := by
  rw [members,members,begins,spaceDropped rfl]
  simp [begins]

theorem memberBegins (level : Nat) (m : Option String × Value) (tail : List Char) :
    ∃ more, dropSpace (indentation (level + 1) ++ (memberText (level + 1) m ++ tail)) = '"' :: more ∧
      string more = .ok (some (m.1.getD "").toList,':' :: ' ' :: (pretty (level + 1) m.2 ++ tail)) := by
  obtain ⟨more,begins,taken⟩ := literalRead (m.1.getD "") (':' :: ' ' :: (pretty (level + 1) m.2 ++ tail))
  have text : memberText (level + 1) m ++ tail = '"' :: more := by
    simpa [memberText] using begins
  exact ⟨more,by rw [indentationDropped,text,spaceDropped rfl],taken⟩

theorem spaceRead (fuel : Nat) (cs : List Char) : value fuel (' ' :: cs) = value fuel cs := by
  cases fuel with
  | zero => simp [value]
  | succ fuel => rw [value,value]; rfl

section
variable (level : Nat) {list : List (Option String × Value)}
  (readable : ∀ m ∈ list, m.1.isSome = true ∧ Readable (pretty (level + 1) m.2) m.2.reread)
include readable

theorem furtherMembers (rest : List Char) {fuel : Nat}
    (enough : (furtherLines level (memberText (level + 1)) '\x7d' [] list).length ≤ fuel + 1) :
    members fuel false (furtherLines level (memberText (level + 1)) '\x7d' rest list) =
      (list.map fun m => (m.1,m.2.reread),.closed,some rest) := by
  induction list generalizing fuel with
  | nil =>
    obtain ⟨fuel,rfl⟩ := fuelLeft (Nat.lt_of_lt_of_le (furtherLength []) enough)
    rw [members,furtherDropped rfl]
    rfl
  | cons m ms ih =>
    obtain ⟨fuel,rfl⟩ := fuelLeft (Nat.lt_of_lt_of_le (furtherLength (m :: ms)) enough)
    obtain ⟨named,read⟩ := readable m List.mem_cons_self
    obtain ⟨size,sizes⟩ := lineLength enough
    obtain ⟨more,dropped,taken⟩ := memberBegins level m
      (furtherLines level (memberText (level + 1)) '\x7d' rest ms)
    have short : (pretty (level + 1) m.2).length ≤ fuel := by
      simp only [memberText,List.length_append,List.length_cons] at size
      omega
    have first := read fuel (furtherLines level (memberText (level + 1)) '\x7d' rest ms) (furtherEnds ms) short
    have later := ih (fun w mem => readable w (List.mem_cons_of_mem _ mem)) sizes
    obtain ⟨key,named⟩ := Option.isSome_iff_exists.mp named
    rw [furtherCons,members,spaceDropped rfl]
    simp [dropped,taken,spaceDropped (rfl : isSpace ':' = false),spaceRead,first,later,named]

theorem tableRead : Readable (block level '\x7b' '\x7d' (list.map (memberText (level + 1))))
    (.table (list.map fun m => (m.1,m.2.reread)) .closed) := by
  intro fuel rest ends enough
  cases list with
  | nil =>
    obtain ⟨fuel,rfl⟩ : ∃ left, fuel = left + 2 := Nat.exists_eq_add_of_le' enough
    rfl
  | cons m ms =>
    rw [blockLength] at enough
    obtain ⟨fuel,rfl⟩ : ∃ left, fuel = left + 2 :=
      Nat.exists_eq_add_of_le' (Nat.le_trans (furtherLength (m :: ms)) enough)
    obtain ⟨more,dropped,_⟩ := memberBegins level m (furtherLines level (memberText (level + 1)) '\x7d' rest ms)
    have all := furtherMembers level readable rest enough
    rw [furtherCons,← firstMember dropped] at all
    rw [blockLines,value,spaceDropped rfl]
    simp [all]

end

theorem plainOpens {v : Value} (plain : Plain v) (level : Nat) : Opens (pretty level v) := by
  obtain ⟨c,more,text,begins⟩ := plainBegins plain level
  refine ⟨c,more,text,?_⟩
  cases plain with
  | real finite =>
    rcases begins with rfl | digit
    · decide
    · exact ⟨digitSolid digit,fun closes => by cases closes; cases digit⟩
  | _ => rw [begins]; decide

theorem plainRead {v : Value} (plain : Plain v) (level : Nat) : Readable (pretty level v) v.reread := by
  induction plain generalizing level with
  | text s =>
    have same : (Value.text s).reread = .text s := by simp [Value.reread]
    rw [pretty,same]
    exact textRead s
  | real finite =>
    rw [pretty,Value.reread]
    exact realRead finite
  | list all ih =>
    rw [pretty,Value.reread,itemTexts,Value.itemsReread]
    exact listRead Value.reread level fun v mem => ⟨ih v mem (level + 1),plainOpens (all v mem) (level + 1)⟩
  | table named all ih =>
    rw [pretty,Value.reread,memberTexts,Value.membersReread]
    exact tableRead level fun m mem => ⟨named m mem,ih m mem (level + 1)⟩

theorem decodeWritten {α : Type} {v : Value} (plain : Plain v) (d : Value → Except Fault α) :
    decode d (write v) = d v.reread := by
  have read := plainRead plain 0 (2 * (pretty 0 v).length + 2) [] (by simp [Ends]) (by omega)
  rw [List.append_nil] at read
  unfold decode write
  simp only [String.toList_ofList,read]
  cases d v.reread <;> rfl

end Json

end VoiceCommand.Document
