import Mathlib.Data.String.Basic
import VoiceCommand.Proofs.Course
import VoiceCommand.Proofs.Text.Case
import VoiceCommand.WakeWord

/-! Where a text is cut behind the wake phrase. What is cut off is the shortest part of the text, in whole characters,
that holds the phrase once both are folded. The cut is found again by bytes, with the table that leads from each
byte of the folded text to the end of its source character. -/
namespace VoiceCommand.WakeWord
open Text (isBlank strip)
open String (utf8Len)

def fold (w : WakeWord) (cs : List Char) : List Char := cs.flatMap w.foldChar

/-- The text ends where its folded form holds the needle for the first time. -/
structure Shortest (w : WakeWord) (needle text front : List Char) : Prop where
  begins : front <+: text
  holds : needle <:+: w.fold front
  least : ∀ other, other <+: text → needle <:+: w.fold other → front <+: other

theorem foldSome (w : WakeWord) (c : Char) : w.foldChar c ≠ [] := by
  unfold foldChar Text.lowerChar
  split
  · simp
  · split
    · simp
    · split
      · simp
      · split <;> simp

theorem foldedChars (w : WakeWord) (cs : List Char) : (w.folded cs).map Prod.fst = w.fold cs := by
  induction cs with
  | nil => rfl
  | cons c rest ih => simp [folded,fold,ih,Function.comp_def]

theorem foldPrefix (w : WakeWord) {cs ds : List Char} (first : cs <+: ds) : w.fold cs <+: w.fold ds := by
  obtain ⟨rest,rfl⟩ := first
  simp [fold]

theorem foldInfix (w : WakeWord) {cs ds : List Char} (inside : cs <:+: ds) : w.fold cs <:+: w.fold ds := by
  obtain ⟨before,after,rfl⟩ := inside
  exact ⟨w.fold before,w.fold after,by simp [fold]⟩

theorem foldWhole {w : WakeWord} {part cs : List Char} (inside : part <:+: cs)
    (long : (w.fold cs).length ≤ (w.fold part).length) : part = cs := by
  have empty {ds : List Char} (folded : w.fold ds = []) : ds = [] := by
    cases ds with
    | nil => rfl
    | cons d others => exact absurd (List.append_eq_nil_iff.mp folded).1 (w.foldSome d)
  obtain ⟨before,after,rfl⟩ := inside
  have sizes : (w.fold (before ++ part ++ after)).length =
      (w.fold before).length + (w.fold part).length + (w.fold after).length := by
    rw [fold,List.flatMap_append,List.flatMap_append,List.length_append,List.length_append]
    rfl
  have front : before = [] := empty (List.length_eq_zero_iff.mp (by omega))
  have back : after = [] := empty (List.length_eq_zero_iff.mp (by omega))
  rw [front,back,List.nil_append,List.append_nil]

theorem needleSome {w : WakeWord} (visible : Text.allBlank w.phrase = false) : w.needle ≠ [] := by
  have nonempty : strip isBlank w.phrase.toList ≠ [] := fun empty =>
    Text.trimNotBlank visible (by rw [Text.trim,empty])
  obtain ⟨c,rest,same⟩ := List.exists_cons_of_ne_nil nonempty
  simp [needle,same,w.foldSome c]

/- An entry of the folded text belongs to the character in front of what follows it. -/
theorem foldedEntry {w : WakeWord} {cs : List Char} {before after : List (Char × List Char)}
    {e : Char × List Char} (split : w.folded cs = before ++ e :: after) :
    ∃ front c, cs = front ++ c :: e.2 ∧ w.fold front <+: before.map Prod.fst ∧
      before.map Prod.fst ++ [e.1] <+: w.fold (front ++ [c]) := by
  induction cs generalizing before with
  | nil => simp [folded] at split
  | cons c rest ih =>
    rcases splitAppend split with ⟨later,own⟩ | ⟨middle,rfl,behind⟩
    · have chars : before.map Prod.fst ++ e.1 :: later.map Prod.fst = w.foldChar c := by
        rw [← List.map_cons,← List.map_append,← own,List.map_map]
        exact List.map_id _
      have follows : e.2 = rest := by
        have mem : e ∈ (w.foldChar c).map (·,rest) := by simp [own]
        obtain ⟨_,_,same⟩ := List.mem_map.mp mem
        rw [← same]
      refine ⟨[],c,by simp [follows],List.nil_prefix,later.map Prod.fst,?_⟩
      simp [fold,← chars]
    · obtain ⟨front,d,same,short,long⟩ := ih behind
      have own : ((w.foldChar c).map (·,rest)).map Prod.fst = w.foldChar c := by
        rw [List.map_map]
        exact List.map_id _
      refine ⟨c :: front,d,by simp [same],?_,?_⟩
      · simpa [fold,own] using (List.prefix_append_right_inj (w.foldChar c)).mpr short
      · simpa [fold,own] using (List.prefix_append_right_inj (w.foldChar c)).mpr long

section
variable {needle rest : List Char} {es : List (Char × List Char)}

theorem followCons (n c : Char) (ns rest : List Char) (es : List (Char × List Char)) :
    follow? (n :: ns) ((c,rest) :: es) =
      if n = c then if ns = [] then some rest else follow? ns es else none := by
  cases ns <;> simp [follow?]

theorem followFound (found : follow? needle es = some rest) : ∃ before e after,
    es = before ++ e :: after ∧ needle = before.map Prod.fst ++ [e.1] ∧ e.2 = rest := by
  induction needle generalizing es with
  | nil => simp [follow?] at found
  | cons n ns ih =>
    cases es with
    | nil => simp [follow?] at found
    | cons e after =>
      rw [followCons] at found
      split at found
      · rename_i same
        split at found
        · rename_i last
          exact ⟨[],e,after,rfl,by simp [last,same],Option.some.inj found⟩
        · obtain ⟨before,last,behind,rfl,rfl,ends⟩ := ih found
          exact ⟨e :: before,last,behind,rfl,by simp [same],ends⟩
      · cases found

theorem followPrefix (nonempty : needle ≠ []) :
    (follow? needle es).isSome = true ↔ needle <+: es.map Prod.fst := by
  induction needle generalizing es with
  | nil => exact absurd rfl nonempty
  | cons n ns ih =>
    cases es with
    | nil => simp [follow?]
    | cons e after =>
      rw [followCons,List.map_cons,List.cons_prefix_cons]
      by_cases same : n = e.1
      · by_cases last : ns = []
        · simp [same,last]
        · simp [same,last,ih last]
      · simp [same]

/-- The needle stands behind so many characters, and nowhere before. -/
structure FirstBehind (needle hay : List Char) (skipped : Nat) : Prop where
  here : needle <+: hay.drop skipped
  before : ∀ k < skipped, ¬ needle <+: hay.drop k

theorem firstStep {c : Char} {hay : List Char} {skipped : Nat} (absent : ¬ needle <+: c :: hay)
    (first : FirstBehind needle hay skipped) : FirstBehind needle (c :: hay) (skipped + 1) := by
  refine ⟨first.here,fun k less => ?_⟩
  cases k with
  | zero => exact absent
  | succ k => exact first.before k (by omega)

theorem cutFound (nonempty : needle ≠ []) (found : cut? needle es = some rest) : ∃ skipped before e after,
    es = skipped ++ before ++ e :: after ∧ needle = before.map Prod.fst ++ [e.1] ∧ e.2 = rest ∧
      FirstBehind needle (es.map Prod.fst) skipped.length := by
  induction es with
  | nil => simp [cut?] at found
  | cons first others ih =>
    rw [cut?] at found
    cases here : follow? needle (first :: others) with
    | some tail =>
      rw [here] at found
      cases found
      obtain ⟨before,e,after,split,same,ends⟩ := followFound here
      have stands := (followPrefix nonempty).mp (by rw [here]; rfl)
      exact ⟨[],before,e,after,split,same,ends,stands,fun k less => absurd less (Nat.not_lt_zero k)⟩
    | none =>
      rw [here] at found
      obtain ⟨skipped,before,e,after,split,same,ends,leads⟩ := ih found
      have absent : ¬ needle <+: (first :: others).map Prod.fst := fun stands => by
        simpa [here] using (followPrefix nonempty).mpr stands
      exact ⟨first :: skipped,before,e,after,by simp [split],same,ends,firstStep absent leads⟩

theorem cutSome (nonempty : needle ≠ []) :
    (cut? needle es).isSome = true ↔ needle <:+: es.map Prod.fst := by
  induction es with
  | nil => simpa [cut?] using nonempty
  | cons first others ih =>
    have here : (follow? needle (first :: others)).isSome = true ↔ needle <+: first.1 :: others.map Prod.fst :=
      followPrefix nonempty
    rw [cut?,List.map_cons,List.infix_cons_iff,← here,← ih]
    cases follow? needle (first :: others) <;> simp

end

/- The needle ends with its first occurrence inside the source of one character: what ends before that character
has too short a folded form to hold the needle. -/
theorem cutShortest {w : WakeWord} {needle cs rest : List Char} (nonempty : needle ≠ [])
    (found : cut? needle (w.folded cs) = some rest) :
    ∃ front, cs = front ++ rest ∧ Shortest w needle cs front := by
  obtain ⟨skipped,before,e,after,split,same,rfl,leads⟩ := cutFound nonempty found
  obtain ⟨front,c,whole,short,long⟩ := foldedEntry split
  have joined : cs = (front ++ [c]) ++ e.2 := by simp [whole]
  refine ⟨front ++ [c],joined,⟨joined ▸ List.prefix_append _ _,?_,fun other begins holds => ?_⟩⟩
  · refine List.IsInfix.trans ⟨skipped.map Prod.fst,[],?_⟩ long.isInfix
    simp [same]
  · obtain ⟨ahead,behind,place⟩ := holds
    have stands : needle <+: (w.fold cs).drop ahead.length := by
      obtain ⟨more,eq⟩ := w.foldPrefix begins
      rw [← eq,← place]
      simp
    rw [foldedChars] at leads
    have late : skipped.length ≤ ahead.length := Nat.le_of_not_lt fun less => leads.before _ less stands
    have longer : (front ++ [c]).length ≤ other.length := by
      rw [List.length_append,List.length_singleton]
      refine Nat.lt_of_not_le fun within => ?_
      have inside : other <+: front := List.prefix_of_prefix_length_le begins (whole ▸ List.prefix_append _ _) within
      have size := (w.foldPrefix inside).length_le
      have bound := short.length_le
      rw [← place] at size
      simp [same] at size bound
      omega
    exact List.prefix_of_prefix_length_le (joined ▸ List.prefix_append _ _) begins longer

theorem exactSome {w : WakeWord} (nonempty : w.needle ≠ []) (text : String) :
    (w.exactHit? text).isSome = true ↔ w.needle <:+: w.fold text.toList := by
  rw [exactHit?,Option.isSome_map,cutSome nonempty,foldedChars]

theorem cutNothing (entries : List (Char × List Char)) : cut? [] entries = none := by
  induction entries with
  | nil => rfl
  | cons e rest ih => simpa [cut?,follow?] using ih

theorem exactPhrase {w : WakeWord} {text : String} {hit : Hit} (h : w.exactHit? text = some hit) :
    w.needle.isEmpty = false ∧ text.isEmpty = false := by
  obtain ⟨rest,cut,_⟩ := Option.map_eq_some_iff.mp h
  constructor
  · cases same : w.needle with
    | nil => simp [same,cutNothing] at cut
    | cons n ns => rfl
  · cases empty : text.isEmpty with
    | false => rfl
    | true => simp [String.isEmpty_iff.mp empty,folded,cut?] at cut

theorem exactDetected {w : WakeWord} {text : String} {hit : Hit} (h : w.exactHit? text = some hit)
    {last : Option Nat} {now : Nat} (awake : w.coolingDown last now = false) :
    w.detect? last now text = some hit := by
  simp [detect?,awake,hear?,(exactPhrase h).1,h]

theorem phraseHeard {w : WakeWord} (visible : Text.allBlank w.phrase = false) :
    w.exactHit? (Text.trim w.phrase) = some ⟨.exact,""⟩ := by
  have nonempty := needleSome visible
  have holds : w.needle <:+: (w.folded (strip isBlank w.phrase.toList)).map Prod.fst := by
    rw [foldedChars]
    exact List.infix_refl _
  obtain ⟨rest,found⟩ := Option.isSome_iff_exists.mp ((cutSome nonempty).mpr holds)
  obtain ⟨front,whole,shortest⟩ := cutShortest nonempty found
  have all : front = strip isBlank w.phrase.toList := foldWhole shortest.begins.isInfix shortest.holds.length_le
  have empty : rest = [] := by simpa [all] using whole
  rw [exactHit?,Text.trim,String.toList_ofList,found,empty]
  rfl

theorem remainderTrimmed {w : WakeWord} {text : String} {hit : Hit} (h : w.exactHit? text = some hit) :
    Text.trim hit.remainder = hit.remainder := by
  obtain ⟨rest,_,eq⟩ := Option.map_eq_some_iff.mp h
  let behind := rest.dropWhile fun c => isBlank c || isMark c
  have first : behind.head?.any isBlank = false := by
    have outside := List.head?_dropWhile_not (fun c => isBlank c || isMark c) rest
    cases same : behind.head? with
    | none => rfl
    | some c =>
      rw [show (rest.dropWhile fun c => isBlank c || isMark c).head? = some c from same] at outside
      exact (Bool.or_eq_false_iff.mp outside).1
  have stripped : Text.dropEnd isBlank behind = strip isBlank behind := by
    cases same : behind with
    | nil => rfl
    | cons c cs =>
      have solid : isBlank c = false := by simpa [same] using first
      simp [strip,solid]
  have own : hit.remainder = Text.trim (String.ofList behind) := by
    rw [Text.trim,String.toList_ofList,← stripped,← eq]
  rw [own,Text.trimTrim]

/-- For each byte of the folded text the byte of the text behind its source character; `start` bytes come before. -/
def sourceEnds (w : WakeWord) : Nat → List Char → List Nat
  | _,[] => []
  | start,c :: rest => List.replicate (utf8Len (w.foldChar c)) (start + c.utf8Size) ++
      w.sourceEnds (start + c.utf8Size) rest

/-- The byte at which a text first holds the needle. -/
def byteOf? (needle : List Char) : List Char → Option Nat
  | [] => if needle = [] then some 0 else none
  | c :: cs => if needle <+: c :: cs then some 0 else (byteOf? needle cs).map (c.utf8Size + ·)

/-- The byte at which the text is cut: behind the source of the last byte of the phrase, or at the end if the phrase
has no byte or the table does not reach so far. -/
def cutByte? (w : WakeWord) (text : String) : Option Nat :=
  (byteOf? w.needle (w.fold text.toList)).map fun start =>
    match start + utf8Len w.needle with
    | 0 => text.utf8ByteSize
    | last + 1 => ((w.sourceEnds 0 text.toList)[last]?).getD text.utf8ByteSize

/-- The entry of the table for each byte of a folded character. -/
def entryEnds (size : Nat) (e : Char × List Char) : List Nat :=
  List.replicate e.1.utf8Size (size - utf8Len e.2)

theorem charEnds (size : Nat) (chars rest : List Char) :
    (chars.map (·,rest)).flatMap (entryEnds size) = List.replicate (utf8Len chars) (size - utf8Len rest) := by
  induction chars with
  | nil => rfl
  | cons c others ih =>
    simp only [List.map_cons,List.flatMap_cons,ih,String.utf8Len_cons,entryEnds]
    rw [Nat.add_comm,List.replicate_add]

theorem sourceEndsFolded (w : WakeWord) (start : Nat) (cs : List Char) :
    w.sourceEnds start cs = (w.folded cs).flatMap (entryEnds (start + utf8Len cs)) := by
  induction cs generalizing start with
  | nil => rfl
  | cons c rest ih =>
    have size : start + c.utf8Size + utf8Len rest = start + utf8Len (c :: rest) := by
      rw [String.utf8Len_cons]
      omega
    have own : start + utf8Len (c :: rest) - utf8Len rest = start + c.utf8Size := by omega
    rw [sourceEnds,folded,List.flatMap_append,charEnds,ih,size,own]

theorem endsLength (size : Nat) (es : List (Char × List Char)) :
    (es.flatMap (entryEnds size)).length = utf8Len (es.map Prod.fst) := by
  induction es with
  | nil => rfl
  | cons e others ih => simp [entryEnds,ih,Nat.add_comm]

theorem endsAt (size : Nat) (before after : List (Char × List Char)) (e : Char × List Char) {byte : Nat}
    (inside : byte < e.1.utf8Size) :
    ((before ++ e :: after).flatMap (entryEnds size))[utf8Len (before.map Prod.fst) + byte]? =
      some (size - utf8Len e.2) := by
  have length := endsLength size before
  rw [List.flatMap_append,List.getElem?_append_right (by omega),length,List.flatMap_cons,
    List.getElem?_append_left (by simpa [entryEnds] using inside)]
  simp [entryEnds,inside]

theorem byteFirst {needle hay : List Char} {skipped : Nat} (nonempty : needle ≠ [])
    (first : FirstBehind needle hay skipped) : byteOf? needle hay = some (utf8Len (hay.take skipped)) := by
  induction hay generalizing skipped with
  | nil => exact absurd (List.prefix_nil.mp (by simpa using first.here)) nonempty
  | cons c rest ih =>
    cases skipped with
    | zero =>
      have here : needle <+: c :: rest := first.here
      rw [byteOf?,if_pos here]
      rfl
    | succ skipped =>
      have absent : ¬ needle <+: c :: rest := first.before 0 (Nat.zero_lt_succ _)
      have later : FirstBehind needle rest skipped :=
        ⟨first.here,fun k less => first.before (k + 1) (by omega)⟩
      rw [byteOf?,if_neg absent,ih later]
      simp [Nat.add_comm]

theorem byteInfix {needle hay : List Char} (nonempty : needle ≠ []) :
    (byteOf? needle hay).isSome = true ↔ needle <:+: hay := by
  induction hay with
  | nil => simp [byteOf?,nonempty]
  | cons c rest ih =>
    rw [byteOf?,List.infix_cons_iff,← ih]
    split <;> simp [*]

/- The last byte of the phrase lies in the last character of the occurrence; its entry in the table leads behind the
source of that character. -/
theorem cutByteFound {w : WakeWord} {text : String} {front rest : List Char} (nonempty : w.needle ≠ [])
    (found : cut? w.needle (w.folded text.toList) = some rest) (whole : text.toList = front ++ rest) :
    w.cutByte? text = some (utf8Len front) := by
  obtain ⟨skipped,before,e,after,split,same,rfl,leads⟩ := cutFound nonempty found
  have chars : w.fold text.toList = (skipped.map Prod.fst) ++ w.needle ++ after.map Prod.fst := by
    rw [← foldedChars,split,same]
    simp
  rw [foldedChars] at leads
  have start : byteOf? w.needle (w.fold text.toList) = some (utf8Len (skipped.map Prod.fst)) := by
    rw [byteFirst nonempty leads,chars]
    simp
  have bytes : utf8Len (skipped.map Prod.fst) + utf8Len w.needle =
      utf8Len ((skipped ++ before).map Prod.fst) + (e.1.utf8Size - 1) + 1 := by
    have pos := e.1.utf8Size_pos
    rw [same]
    simp
    omega
  have pos := e.1.utf8Size_pos
  have last : e.1.utf8Size - 1 < e.1.utf8Size := by omega
  have entry := endsAt (utf8Len text.toList) (skipped ++ before) after e last
  have cut : utf8Len text.toList - utf8Len e.2 = utf8Len front := by
    rw [whole,String.utf8Len_append]
    omega
  simp only [cutByte?,start,Option.map_some,bytes,sourceEndsFolded,split,Nat.zero_add,entry,cut,Option.getD_some]

/-- The text is cut if its folded form holds that of the phrase without the blanks around it. What goes is the
shortest part in whole characters of which that can be said, then blanks and punctuation, and blanks at the end.
The byte at which it is cut lies between two characters. A text that holds the phrase as it stands is cut. -/
theorem cutBehindPhrase (w : WakeWord) (visible : Text.allBlank w.phrase = false) (text : String) :
    let phrase := strip isBlank w.phrase.toList
    ((w.exactHit? text).isSome = true ↔ w.fold phrase <:+: w.fold text.toList) ∧
      (∀ hit, w.exactHit? text = some hit → ∃ front rest, text.toList = front ++ rest ∧
        Shortest w (w.fold phrase) text.toList front ∧ w.cutByte? text = some (utf8Len front) ∧
        hit = ⟨.exact,String.ofList
          (Text.dropEnd isBlank (rest.dropWhile fun c => isBlank c || isMark c))⟩) ∧
      (∀ byte, w.cutByte? text = some byte → String.Pos.Raw.IsValid text ⟨byte⟩) ∧
      (phrase <:+: text.toList → (w.exactHit? text).isSome = true) := by
  intro phrase
  have nonempty := needleSome visible
  have heard : (w.exactHit? text).isSome = true ↔ w.fold phrase <:+: w.fold text.toList :=
    exactSome nonempty text
  refine ⟨heard,fun hit found => ?_,fun byte cut => ?_,fun verbatim => heard.mpr (w.foldInfix verbatim)⟩
  · obtain ⟨rest,cut,same⟩ := Option.map_eq_some_iff.mp found
    obtain ⟨front,whole,shortest⟩ := cutShortest nonempty cut
    exact ⟨front,rest,whole,shortest,cutByteFound nonempty cut whole,same.symm⟩
  · have held : w.needle <:+: (w.folded text.toList).map Prod.fst := by
      rw [foldedChars,← byteInfix nonempty]
      obtain ⟨start,place,_⟩ := Option.map_eq_some_iff.mp cut
      rw [place]
      rfl
    obtain ⟨rest,found⟩ := Option.isSome_iff_exists.mp ((cutSome nonempty).mpr held)
    obtain ⟨front,whole,_⟩ := cutShortest nonempty found
    rw [cutByteFound nonempty found whole] at cut
    refine String.Pos.Raw.isValid_iff_exists_append.mpr ⟨String.ofList front,String.ofList rest,?_,?_⟩
    · rw [← String.ofList_append,← whole,String.ofList_toList]
    · rw [← Option.some.inj cut]
      simp

/- The phrase ends with the first of the two characters into which a capital with a dot is folded. -/
theorem dottedCut :
    let w : WakeWord := ⟨" Hi ",false,.one,0⟩
    let text := "h Hİ, open  "
    Text.allBlank w.phrase = false ∧ w.exactHit? text = some ⟨.exact,"open"⟩ ∧
      (∃ front, Shortest w (w.fold (strip isBlank w.phrase.toList)) text.toList front ∧ utf8Len front = 5) ∧
      String.Pos.Raw.IsValid text ⟨5⟩ := by
  intro w text
  have visible : Text.allBlank w.phrase = false := by decide +kernel
  have heard : w.exactHit? text = some ⟨.exact,"open"⟩ := by decide +kernel
  have byte : w.cutByte? text = some 5 := by decide +kernel
  obtain ⟨_,cuts,valid,_⟩ := cutBehindPhrase w visible text
  obtain ⟨front,_,_,shortest,cut,_⟩ := cuts _ heard
  exact ⟨visible,heard,⟨front,shortest,Option.some.inj (cut.symm.trans byte)⟩,valid 5 byte⟩

end VoiceCommand.WakeWord
