import VoiceCommand.Document.Json.Reader
import VoiceCommand.Proofs.Document.Numeral

/-! Documents as they are written. The characters tell where each part of a value ends and what it is, so no two values
are written alike. -/
namespace VoiceCommand

def Binary64.IsFinite (x : Binary64) : Prop := ∃ negative m, x = .number negative m ∧ m < infinity

namespace Document.Json

theorem hexDigit : ∀ d < 16, hexValue? d.digitChar = some d ∧ d.digitChar.utf8Size = 1 := by decide

theorem hexRead (high low : Nat) (high16 : high < 16) (low16 : low < 16) (rest : List Char) :
    hex4 ('0' :: '0' :: high.digitChar :: low.digitChar :: rest) = .ok (high * 16 + low,rest) := by
  obtain ⟨first,size⟩ := hexDigit high high16
  obtain ⟨second,size'⟩ := hexDigit low low16
  have zero : hexValue? '0' = some 0 := rfl
  simp [hex4,nearEnd,size,size',List.mapM_cons,zero,first,second]
  rfl

/- A character stands for itself, or a backslash announces what the reader takes back for it. -/
theorem escapedRead (c : Char) : (escaped c = [c] ∧ c ≠ '"' ∧ c ≠ '\\' ∧ ¬ c.toNat < 32) ∨
    ∃ more, escaped c = '\\' :: more ∧ ∀ rest, escape (more ++ rest) = .ok (some c,rest) := by
  unfold escaped
  iterate 7
    split
    · exact .inr ⟨_,rfl,by subst c; intro rest; rfl⟩
  split
  · rename_i control
    refine .inr ⟨_,rfl,fun rest => ?_⟩
    have read := hexRead (c.toNat / 16) (c.toNat % 16) (by omega) (by omega) rest
    have whole : c.toNat / 16 * 16 + c.toNat % 16 = c.toNat := by omega
    rw [whole] at read
    have plain : isLowSurrogate c.toNat = false ∧ isHighSurrogate c.toNat = false := by
      simp only [isLowSurrogate,isHighSurrogate,Bool.and_eq_false_iff,decide_eq_false_iff_not]
      omega
    change escape ('u' :: '0' :: '0' :: Nat.digitChar (c.toNat / 16) :: Nat.digitChar (c.toNat % 16) :: rest) = _
    simp [escape,read,bind,Except.bind,plain]
  · exact .inl ⟨rfl,‹_›,‹_›,‹_›⟩

theorem stringRead (cs rest got : List Char) {fuel : Nat} (enough : cs.length < fuel) :
    stringFrom fuel (some got) (cs.flatMap escaped ++ '"' :: rest) = .ok (some (got.reverse ++ cs),rest) := by
  induction cs generalizing got fuel with
  | nil =>
    obtain ⟨fuel,rfl⟩ := Nat.exists_eq_add_one_of_ne_zero (Nat.ne_of_gt enough)
    simp [stringFrom]
  | cons c cs ih =>
    obtain ⟨fuel,rfl⟩ := Nat.exists_eq_add_one_of_ne_zero (Nat.ne_of_gt (Nat.lt_of_le_of_lt (Nat.zero_le _) enough))
    have next := ih (c :: got) (Nat.lt_of_succ_lt_succ enough)
    rw [List.reverse_cons,List.append_assoc,List.singleton_append] at next
    rw [List.flatMap_cons,List.append_assoc]
    rcases escapedRead c with ⟨text,quote,backslash,visible⟩ | ⟨more,text,read⟩
    · simp [text,stringFrom,visible,next]
    · simp [text,stringFrom,read,next]

theorem textUnique {s t : String} {rest rest' : List Char}
    (same : textLiteral s ++ rest = textLiteral t ++ rest') : s = t ∧ rest = rest' := by
  simp only [textLiteral,List.cons_append,List.append_assoc,List.nil_append,List.cons.injEq,true_and] at same
  have enough : s.toList.length < s.toList.length + t.toList.length + 1 := by omega
  have enough' : t.toList.length < s.toList.length + t.toList.length + 1 := by omega
  have read := stringRead s.toList rest [] enough
  rw [same,stringRead t.toList rest' [] enough'] at read
  simpa [eq_comm,String.toList_inj] using read

theorem magnitudeUnique {m n : Nat} {rest rest' : List Char} (finite : m < Binary64.infinity)
    (finite' : n < Binary64.infinity) (ends : Ends rest) (ends' : Ends rest')
    (same : magnitudeText m ++ rest = magnitudeText n ++ rest') : m = n ∧ rest = rest' := by
  obtain ⟨p,written⟩ := magnitudeWritten finite
  obtain ⟨q,written'⟩ := magnitudeWritten finite'
  have read := written.read rest ends
  rw [same,written'.read rest' ends'] at read
  cases read
  exact ⟨Decimal.shortestInj (written.exact.symm.trans written'.exact),rfl⟩

theorem magnitudeBegins {m : Nat} (finite : m < Binary64.infinity) :
    ∃ c more, magnitudeText m = c :: more ∧ c.isDigit = true := by
  obtain ⟨p,written⟩ := magnitudeWritten finite
  have read := written.read [] (by simp [Ends])
  rw [List.append_nil] at read
  cases text : magnitudeText m with
  | nil => simp [text,parts] at read
  | cons c more =>
    refine ⟨c,more,rfl,?_⟩
    by_contra other
    simp [text,parts,List.takeWhile_cons_of_neg other] at read

theorem realUnique {x y : Binary64} {rest rest' : List Char} (finite : x.IsFinite) (finite' : y.IsFinite)
    (ends : Ends rest) (ends' : Ends rest') (same : realText x ++ rest = realText y ++ rest') :
    x = y ∧ rest = rest' := by
  obtain ⟨negative,m,rfl,small⟩ := finite
  obtain ⟨negative',n,rfl,small'⟩ := finite'
  obtain ⟨c,more,text,digit⟩ := magnitudeBegins small
  obtain ⟨c',more',text',digit'⟩ := magnitudeBegins small'
  simp only [realText,if_neg (Nat.ne_of_lt small),if_neg (Nat.ne_of_lt small')] at same
  cases negative <;> cases negative'
  · obtain ⟨rfl,after⟩ := magnitudeUnique small small' ends ends' same
    exact ⟨rfl,after⟩
  · rw [text] at same
    obtain ⟨rfl,_⟩ := List.cons.inj same
    cases digit
  · rw [text'] at same
    obtain ⟨rfl,_⟩ := List.cons.inj same
    cases digit'
  · obtain ⟨rfl,after⟩ := magnitudeUnique small small' ends ends' (List.cons.inj same).2
    exact ⟨rfl,after⟩

section
variable {α : Type} {valid : α → Prop} {text : α → List Char} {level : Nat} {closing : Char} {rest rest' : List Char}

/-- Where the text of `a` begins, nothing else of its kind does. -/
def Unmistakable (valid : α → Prop) (text : α → List Char) (a : α) : Prop :=
  ∀ b rest rest', valid b → Ends rest → Ends rest' → text a ++ rest = text b ++ rest' → a = b ∧ rest = rest'

/-- The lines behind the first one of a list or table, up to its end. -/
def furtherLines (level : Nat) (text : α → List Char) (closing : Char) (rest : List Char) (as : List α) : List Char :=
  (as.flatMap fun a => ',' :: (indentation (level + 1) ++ text a)) ++ (indentation level ++ closing :: rest)

theorem blockLines (opening : Char) (a : α) (as : List α) :
    block level opening closing ((a :: as).map text) ++ rest =
      opening :: (indentation (level + 1) ++ (text a ++ furtherLines level text closing rest as)) := by
  have joined (first : List Char) : [','].intercalate (first :: as.map fun a => indentation (level + 1) ++ text a) =
      first ++ as.flatMap fun a => ',' :: (indentation (level + 1) ++ text a) := by
    induction as generalizing first with
    | nil => simp
    | cons b bs ih =>
      rw [List.map_cons,List.intercalate_cons_cons,ih]
      simp
  simp [block,furtherLines,joined,Function.comp_def]

theorem furtherEnds (as : List α) : Ends (furtherLines level text closing rest as) := by
  cases as <;> simp [Ends,furtherLines,indentation]

theorem furtherUnique {as bs : List α} (unmistakable : ∀ a ∈ as, Unmistakable valid text a)
    (all : ∀ b ∈ bs, valid b)
    (same : furtherLines level text closing rest as = furtherLines level text closing rest' bs) :
    as = bs ∧ rest = rest' := by
  induction as generalizing bs with
  | nil =>
    cases bs with
    | nil => simpa [furtherLines] using same
    | cons b bs => simp [furtherLines,indentation] at same
  | cons a as ih =>
    cases bs with
    | nil => simp [furtherLines,indentation] at same
    | cons b bs =>
      have here : text a ++ furtherLines level text closing rest as =
          text b ++ furtherLines level text closing rest' bs := by
        simpa [furtherLines] using same
      obtain ⟨rfl,later⟩ := unmistakable a List.mem_cons_self b _ _ (all b List.mem_cons_self) (furtherEnds as)
        (furtherEnds bs) here
      obtain ⟨rfl,after⟩ := ih (fun a mem => unmistakable a (List.mem_cons_of_mem _ mem))
        (fun b mem => all b (List.mem_cons_of_mem _ mem)) later
      exact ⟨rfl,after⟩

theorem blockUnique {opening : Char} {as bs : List α} (unmistakable : ∀ a ∈ as, Unmistakable valid text a)
    (all : ∀ b ∈ bs, valid b) (visible : closing ≠ '\n')
    (same : block level opening closing (as.map text) ++ rest = block level opening closing (bs.map text) ++ rest') :
    as = bs ∧ rest = rest' := by
  cases as with
  | nil =>
    cases bs with
    | nil => simpa [block] using same
    | cons b bs =>
      rw [blockLines] at same
      simp [block,indentation,visible] at same
  | cons a as =>
    cases bs with
    | nil =>
      rw [blockLines] at same
      simp [block,indentation,visible.symm] at same
    | cons b bs =>
      rw [blockLines,blockLines,List.cons.injEq,List.append_cancel_left_eq] at same
      obtain ⟨rfl,later⟩ := unmistakable a List.mem_cons_self b _ _ (all b List.mem_cons_self) (furtherEnds as)
        (furtherEnds bs) same.2
      obtain ⟨rfl,after⟩ := furtherUnique (fun a mem => unmistakable a (List.mem_cons_of_mem _ mem))
        (fun b mem => all b (List.mem_cons_of_mem _ mem)) later
      exact ⟨rfl,after⟩

end

/-- Values of which everything is written. -/
inductive Plain : Value → Prop
  | text (s : String) : Plain (.text s)
  | real {x : Binary64} (finite : x.IsFinite) : Plain (.real x)
  | list {items : List Value} (all : ∀ v ∈ items, Plain v) : Plain (.list items .closed)
  | table {members : List (Option String × Value)} (named : ∀ m ∈ members, m.1.isSome = true)
      (all : ∀ m ∈ members, Plain m.2) : Plain (.table members .closed)

def memberText (level : Nat) (m : Option String × Value) : List Char :=
  textLiteral (m.1.getD "") ++ ':' :: ' ' :: pretty level m.2

theorem itemTexts (level : Nat) (items : List Value) : prettyItems level items = items.map (pretty level) := by
  induction items with
  | nil => simp [prettyItems]
  | cons v vs ih => simp [prettyItems,ih]

theorem memberTexts (level : Nat) (members : List (Option String × Value)) :
    prettyMembers level members = members.map (memberText level) := by
  induction members with
  | nil => simp [prettyMembers]
  | cons m ms ih => simp [prettyMembers,ih,memberText]

theorem blockBegins (level : Nat) (opening closing : Char) (parts : List (List Char)) :
    (block level opening closing parts).head? = some opening := by
  unfold block
  split <;> rfl

/-- The first characters of the different kinds of values. -/
def Begins : Value → Char → Prop
  | .text _, c => c = '"'
  | .list _ _, c => c = '['
  | .table _ _, c => c = '\x7b'
  | _, c => c = '-' ∨ c.isDigit = true

theorem plainBegins {v : Value} (plain : Plain v) (level : Nat) :
    ∃ c more, pretty level v = c :: more ∧ Begins v c := by
  cases plain with
  | text s => exact ⟨'"',_,by rw [pretty]; rfl,rfl⟩
  | real finite =>
    obtain ⟨negative,m,rfl,small⟩ := finite
    obtain ⟨c,more,text,digit⟩ := magnitudeBegins small
    rw [pretty,realText,if_neg (Nat.ne_of_lt small),text]
    cases negative
    · exact ⟨c,more,rfl,.inr digit⟩
    · exact ⟨'-',c :: more,rfl,.inl rfl⟩
  | list all =>
    rw [pretty]
    obtain ⟨more,text⟩ := List.head?_eq_some_iff.mp (blockBegins level '[' ']' _)
    exact ⟨'[',more,text,rfl⟩
  | table named all =>
    rw [pretty]
    obtain ⟨more,text⟩ := List.head?_eq_some_iff.mp (blockBegins level '\x7b' '\x7d' _)
    exact ⟨'\x7b',more,text,rfl⟩

theorem kindsApart {v w : Value} (plain : Plain v) (plain' : Plain w) {level : Nat} {rest rest' : List Char}
    (same : pretty level v ++ rest = pretty level w ++ rest') : v.ctorIdx = w.ctorIdx := by
  obtain ⟨c,more,text,begins⟩ := plainBegins plain level
  obtain ⟨c',more',text',begins'⟩ := plainBegins plain' level
  rw [text,text'] at same
  obtain ⟨rfl,_⟩ := List.cons.inj same
  cases plain <;> cases plain' <;> first | rfl | simp_all [Begins]

theorem memberUnmistakable {level : Nat} {m : Option String × Value} (named : m.1.isSome = true)
    (value : Unmistakable Plain (pretty level) m.2) :
    Unmistakable (fun m => m.1.isSome = true ∧ Plain m.2) (memberText level) m := by
  rintro ⟨key',v'⟩ rest rest' ⟨named',plain'⟩ ends ends' same
  obtain ⟨key,v⟩ := m
  obtain ⟨key,rfl⟩ := Option.isSome_iff_exists.mp named
  obtain ⟨key',rfl⟩ := Option.isSome_iff_exists.mp named'
  simp only [memberText,List.append_assoc,Option.getD_some] at same
  obtain ⟨rfl,behind⟩ := textUnique same
  simp only [List.cons_append,List.cons.injEq,true_and] at behind
  obtain ⟨rfl,after⟩ := value v' rest rest' plain' ends ends' behind
  exact ⟨rfl,after⟩

theorem plainUnmistakable {v : Value} (plain : Plain v) (level : Nat) : Unmistakable Plain (pretty level) v := by
  induction plain generalizing level with
  | text s =>
    intro w rest rest' plain' ends ends' same
    have kind := kindsApart (.text s) plain' same
    cases plain' with
    | text t =>
      simp only [pretty] at same
      obtain ⟨rfl,after⟩ := textUnique same
      exact ⟨rfl,after⟩
    | _ => cases kind
  | real finite =>
    intro w rest rest' plain' ends ends' same
    have kind := kindsApart (.real finite) plain' same
    cases plain' with
    | real finite' =>
      simp only [pretty] at same
      obtain ⟨rfl,after⟩ := realUnique finite finite' ends ends' same
      exact ⟨rfl,after⟩
    | _ => cases kind
  | list all ih =>
    intro w rest rest' plain' ends ends' same
    have kind := kindsApart (.list all) plain' same
    cases plain' with
    | list all' =>
      simp only [pretty,itemTexts] at same
      obtain ⟨rfl,after⟩ := blockUnique (fun v mem => ih v mem (level + 1)) all' (by decide) same
      exact ⟨rfl,after⟩
    | _ => cases kind
  | table named all ih =>
    intro w rest rest' plain' ends ends' same
    have kind := kindsApart (.table named all) plain' same
    cases plain' with
    | table named' all' =>
      simp only [pretty,memberTexts] at same
      obtain ⟨rfl,after⟩ := blockUnique
        (fun m mem => memberUnmistakable (named m mem) (ih m mem (level + 1)))
        (fun m mem => ⟨named' m mem,all' m mem⟩) (by decide) same
      exact ⟨rfl,after⟩
    | _ => cases kind

theorem writeInj {v w : Value} (plain : Plain v) (plain' : Plain w) (same : write v = write w) : v = w := by
  have texts : pretty 0 v ++ [] = pretty 0 w ++ [] := by
    simpa using String.ofList_injective same
  exact (plainUnmistakable plain 0 w [] [] plain' (by simp [Ends]) (by simp [Ends]) texts).1

end Document.Json

end VoiceCommand
