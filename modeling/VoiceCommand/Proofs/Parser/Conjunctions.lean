import VoiceCommand.Parser.Chain
import VoiceCommand.Proofs.Pattern.Language
import VoiceCommand.Proofs.Text.Canonical

/-! A text split at its conjunctions. It is cut at every separator of one kind, from left to right, and what lies
between the cuts is kept whole and in order; only blank pieces are left out. -/
namespace VoiceCommand.Parser
open Pattern (Between Gap Takes betweenStart blanks blanksTake gapEnds lettersTake manyFirst runSound seqFirst word)
open Text (Tidy asciiLower isBlank strip)

/-- The words, up to case, and blanks behind each of them. -/
inductive Said : List String → List Char → Prop
  | nothing : Said [] []
  | word {w ws letters gap rest} (same : asciiLower letters = w.toList) (blank : Gap gap) (tail : Said ws rest) :
      Said (w :: ws) (letters ++ gap ++ rest)

/-- The words, up to case, with blanks between and around them. -/
def Separator (words : List String) (cs : List Char) : Prop :=
  ∃ gap said, cs = gap ++ said ∧ Gap gap ∧ Said words said

def Occurs (words : List String) (cs : List Char) : Prop := ∃ part, Separator words part ∧ part <:+: cs

def separatorOf (words : List String) : Pattern := words.foldl (fun p w => p ++ word w ++ blanks) blanks

section
variable {front taken rest : List Char}

/- Word by word; what stands in front of the first one is any pattern. -/
theorem saidTake {words : List String} (plain : ∀ w ∈ words, 's' ∉ w.toList ∧ 'k' ∉ w.toList) (p : Pattern) :
    (words.foldl (fun p w => p ++ word w ++ blanks) p).Takes front taken rest ↔
      ∃ first said, taken = first ++ said ∧ p.Takes front first (said ++ rest) ∧ Said words said := by
  induction words generalizing p with
  | nil =>
    constructor
    · exact fun takes => ⟨taken,[],by simp,by simpa using takes,.nothing⟩
    · rintro ⟨first,said,rfl,takes,said⟩
      cases said
      simpa using takes
  | cons w words ih =>
    obtain ⟨own,others⟩ := List.forall_mem_cons.mp plain
    rw [List.foldl_cons,ih others]
    constructor
    · rintro ⟨_,said,rfl,⟨_,gap,rfl,⟨first,letters,rfl,takes,spelled⟩,blank⟩,tail⟩
      refine ⟨first,letters ++ gap ++ said,by simp,by simpa using takes,?_⟩
      exact .word ((lettersTake own).mp spelled) (blanksTake.mp blank) tail
    · rintro ⟨first,_,rfl,takes,said⟩
      cases said with
      | @word _ _ letters gap said same blank tail =>
        refine ⟨first ++ letters ++ gap,said,by simp,⟨first ++ letters,gap,rfl,⟨first,letters,rfl,?_,?_⟩,?_⟩,tail⟩
        · simpa using takes
        · exact (lettersTake own).mpr same
        · exact blanksTake.mpr blank

end

theorem separatorTakes {words : List String} (plain : ∀ w ∈ words, 's' ∉ w.toList ∧ 'k' ∉ w.toList)
    {front taken rest : List Char} : (separatorOf words).Takes front taken rest ↔ Separator words taken := by
  rw [separatorOf,saidTake plain]
  simp only [blanksTake,Separator]

/- The last run of blanks is taken whole. -/
theorem separatorWhole {words : List String} {front rest : List Char} {place e : Pattern.Place}
    (here : Between front rest place) (first : ((separatorOf words).run place).head? = some e) :
    e.rest.head?.any isBlank = false := by
  have whole {front rest : List Char} {place : Pattern.Place} (here : Between front rest place)
      (first : (blanks.run place).head? = some e) : e.rest.head?.any isBlank = false := by
    obtain ⟨_,later,_,there,_,ends⟩ := manyFirst here first
    rw [there.rest]
    exact ends.resolve_left (by simp)
  rcases words.eq_nil_or_concat' with rfl | ⟨others,w,rfl⟩
  · exact whole here first
  · have last : separatorOf (others ++ [w]) = .seq (separatorOf others ++ word w) blanks := List.foldl_append
    rw [last] at first
    obtain ⟨m,before,after⟩ := seqFirst first
    obtain ⟨_,_,_,middle,_⟩ := runSound here before
    exact whole middle after

def kinds : List (List String) := [["and","then"],["then"],["and"]]

theorem separatorKinds : separators = kinds.map separatorOf := rfl

theorem kindsPlain : ∀ words ∈ kinds, ∀ w ∈ words, 's' ∉ w.toList ∧ 'k' ∉ w.toList := by decide

theorem separatorEnds {words : List String} {part : List Char} (h : Separator words part) :
    (∃ c rest, part = c :: rest ∧ isBlank c = true) ∧ ∃ front c, part = front ++ [c] ∧ isBlank c = true := by
  obtain ⟨gap,said,rfl,blank,said⟩ := h
  constructor
  · obtain ⟨c,rest,rfl⟩ := List.exists_cons_of_ne_nil blank.1
    exact ⟨c,rest ++ _,rfl,blank.2 c List.mem_cons_self⟩
  · induction said generalizing gap with
    | nothing => simpa using gapEnds blank
    | @word w ws letters next rest same filled tail ih =>
      obtain ⟨front,c,ends,last⟩ := ih next filled
      exact ⟨gap ++ letters ++ front,c,by simp [ends],last⟩

theorem separatorFilled {words : List String} {part : List Char} (h : Separator words part) : part ≠ [] := by
  obtain ⟨gap,said,rfl,⟨filled,_⟩,_⟩ := h
  simp [filled]

section
variable {words : List String} (listed : words ∈ kinds)
include listed

theorem separatorMatch {cs : List Char} {m : Pattern.Match} (found : (separatorOf words).match? cs = some m) :
    ∃ part rest, cs = part ++ rest ∧ m.length = part.length ∧ Separator words part ∧
      rest.head?.any isBlank = false := by
  obtain ⟨e,first,rfl⟩ := Option.map_eq_some_iff.mp found
  obtain ⟨part,rest,split,there,takes⟩ := runSound (betweenStart cs) (List.mem_of_head? first)
  refine ⟨part,rest,split,there.position,(separatorTakes (kindsPlain words listed)).mp takes,?_⟩
  rw [← there.rest]
  exact separatorWhole (betweenStart cs) first

theorem separatorFound {part : List Char} (h : Separator words part) (rest : List Char) :
    ((separatorOf words).match? (part ++ rest)).isSome = true :=
  Pattern.matchTakes.1.mpr ⟨part,rest,rfl,(separatorTakes (kindsPlain words listed)).mpr h⟩

theorem separatorMissing {cs : List Char} : (separatorOf words).match? cs = none ↔
    ∀ part, Separator words part → ¬ part <+: cs := by
  constructor
  · rintro missing part separator ⟨rest,rfl⟩
    have found := separatorFound listed separator rest
    rw [missing] at found
    cases found
  · intro free
    cases found : (separatorOf words).match? cs with
    | none => rfl
    | some m =>
      obtain ⟨part,rest,split,_,separator,_⟩ := separatorMatch listed found
      exact absurd ⟨rest,split.symm⟩ (free part separator)

theorem occursWithin (cs : List Char) : (separatorOf words).occurs cs = true ↔ Occurs words cs := by
  have here (cs : List Char) : ((separatorOf words).match? cs).isSome = true ↔
      ∃ part, Separator words part ∧ part <+: cs := by
    rw [← not_iff_not,Bool.not_eq_true,Option.isSome_eq_false_iff,Option.isNone_iff_eq_none,
      separatorMissing listed]
    push Not
    rfl
  induction cs with
  | nil =>
    rw [Pattern.occurs,here]
    simp [Occurs]
  | cons c rest ih =>
    rw [Pattern.occurs,Bool.or_eq_true]
    refine (or_congr (here _) ih).trans ?_
    simp only [Occurs,List.infix_cons_iff,and_or_left,exists_or]

end

/-- No separator begins in the piece when this follows it. -/
def Free (words : List String) (piece rest : List Char) : Prop :=
  ∀ front back, piece = front ++ back → back ≠ [] → ∀ part, Separator words part → ¬ part <+: back ++ rest

/-- The text cut at its separators: each begins as early as it can behind the one before it, and is as long as it
can be. -/
inductive Cut (words : List String) : List Char → List (List Char) → Prop
  | last {piece} (free : Free words piece []) : Cut words piece [piece]
  | more {piece part rest pieces} (free : Free words piece (part ++ rest)) (separator : Separator words part)
      (whole : piece.getLast?.any isBlank = false ∧ rest.head?.any isBlank = false)
      (tail : Cut words rest pieces) : Cut words (piece ++ part ++ rest) (piece :: pieces)

theorem freeCons {words : List String} {c : Char} {piece rest : List Char} (free : Free words piece rest)
    (here : ∀ part, Separator words part → ¬ part <+: c :: piece ++ rest) : Free words (c :: piece) rest := by
  intro front back split nonempty
  cases front with
  | nil =>
    rw [List.nil_append] at split
    rw [← split]
    exact here
  | cons d front => exact free front back (List.cons.inj split).2 nonempty

/- A character in front of a piece, unless a separator begins with it. -/
theorem cutCons {words : List String} {c : Char} {cs : List Char} {first : List Char} {others : List (List Char)}
    (here : ∀ part, Separator words part → ¬ part <+: c :: cs) (cut : Cut words cs (first :: others)) :
    Cut words (c :: cs) ((c :: first) :: others) := by
  cases cut with
  | last free => exact .last (freeCons free (by simpa using here))
  | @more _ part rest _ free separator whole tail =>
    have later : c :: (first ++ part ++ rest) = c :: first ++ part ++ rest := rfl
    refine later ▸ .more (freeCons free (by simpa using here)) separator ⟨?_,whole.2⟩ tail
    cases first with
    | cons d first => simpa using whole.1
    | nil =>
      cases blank : isBlank c with
      | false => simpa using blank
      | true =>
        obtain ⟨gap,said,rfl,⟨_,all⟩,behind⟩ := separator
        refine absurd ⟨rest,by simp⟩ (here (c :: gap ++ said) ⟨c :: gap,said,rfl,⟨by simp,?_⟩,behind⟩)
        exact List.forall_mem_cons.mpr ⟨blank,all⟩

theorem piecesSkipped (p : Pattern) (piece : List Char) (cs rest : List Char) :
    p.piecesFrom piece cs.length (cs ++ rest) = p.piecesFrom piece 0 rest := by
  induction cs with
  | nil => rfl
  | cons c cs ih => exact ih

theorem piecesCut {words : List String} (listed : words ∈ kinds) (cs piece : List Char) : ∃ first others,
    (separatorOf words).piecesFrom piece 0 cs = (piece.reverse ++ first) :: others ∧
      Cut words cs (first :: others) := by
  induction size : cs.length using Nat.strongRecOn generalizing cs piece with
  | ind n ih =>
    cases cs with
    | nil =>
      refine ⟨[],[],by simp [Pattern.piecesFrom],.last ?_⟩
      intro front back split nonempty
      exact absurd (List.append_eq_nil_iff.mp split.symm).2 nonempty
    | cons c rest =>
      cases found : (separatorOf words).match? (c :: rest) with
      | none =>
        have free := (separatorMissing listed).mp found
        have shorter : rest.length < n := by rw [← size]; exact Nat.lt_succ_self _
        obtain ⟨first,others,pieces,cut⟩ := ih rest.length shorter rest (c :: piece) rfl
        refine ⟨c :: first,others,?_,cutCons free cut⟩
        rw [Pattern.piecesFrom,found]
        simpa using pieces
      | some m =>
        obtain ⟨part,behind,split,length,separator,whole⟩ := separatorMatch listed found
        obtain ⟨d,more,rfl⟩ := List.exists_cons_of_ne_nil (separatorFilled separator)
        obtain ⟨rfl,parts⟩ : c = d ∧ rest = more ++ behind := List.cons.inj split
        subst parts
        have shorter : behind.length < n := by
          rw [← size,List.length_cons,List.length_append]
          omega
        obtain ⟨first,others,pieces,cut⟩ := ih behind.length shorter behind [] rfl
        have free : Free words [] (c :: more ++ behind) := fun front back nothing some =>
          absurd (List.append_eq_nil_iff.mp nothing.symm).2 some
        refine ⟨[],first :: others,?_,.more free separator ⟨rfl,whole⟩ cut⟩
        obtain ⟨count,captures⟩ := m
        have taken : count = more.length + 1 := length
        subst taken
        rw [Pattern.piecesFrom,found]
        simp only [piecesSkipped,pieces]
        simp

theorem splitCut {words : List String} (listed : words ∈ kinds) (cs : List Char) :
    Cut words cs ((separatorOf words).split cs) := by
  obtain ⟨first,others,pieces,cut⟩ := piecesCut listed cs []
  rw [Pattern.split,pieces]
  exact cut

theorem freeWithin {words : List String} {piece rest : List Char} (free : Free words piece rest) :
    ¬ Occurs words piece := by
  rintro ⟨part,separator,front,back,split⟩
  refine free front (part ++ back) (by rw [← split,List.append_assoc]) ?_ part separator ⟨back ++ rest,by simp⟩
  simp [separatorFilled separator]

section
variable {words : List String} {cs : List Char} {pieces : List (List Char)} (cut : Cut words cs pieces)
include cut

theorem cutPiece {piece : List Char} (mem : piece ∈ pieces) : piece <:+: cs ∧ ¬ Occurs words piece := by
  induction cut with
  | last free =>
    rw [List.mem_singleton.mp mem]
    exact ⟨List.infix_rfl,freeWithin free⟩
  | @more first part rest pieces free separator whole tail ih =>
    rcases List.mem_cons.mp mem with rfl | later
    · exact ⟨⟨[],part ++ rest,by simp⟩,freeWithin free⟩
    · obtain ⟨inside,free⟩ := ih later
      exact ⟨inside.trans (List.suffix_append _ _).isInfix,free⟩

theorem cutMany (occurs : Occurs words cs) : 2 ≤ pieces.length := by
  cases cut with
  | last free => exact absurd occurs (freeWithin free)
  | more free separator whole tail => cases tail <;> simp

/- A separator has a single blank at either end, and it is beside a character that is not blank. -/
theorem cutTidy (tidy : Tidy cs) (nonempty : cs ≠ []) : ∀ piece ∈ pieces,
    piece ≠ [] ∧ piece.head?.any isBlank = false ∧ piece.getLast?.any isBlank = false := by
  induction cut with
  | last free => exact List.forall_mem_singleton.mpr ⟨nonempty,Text.tidyFirst tidy,Text.tidyLast tidy⟩
  | @more piece part rest pieces free separator whole tail ih =>
    obtain ⟨⟨c,behind,begins,blank⟩,front,d,ends,last⟩ := separatorEnds separator
    have before := (tidy piece c (behind ++ rest) (by simp [begins]) blank).2.1
    have after := (tidy (piece ++ front) d rest (by simp [ends]) last).2.2
    have filled : piece ≠ [] := fun empty => by simp [empty] at before
    have further : rest ≠ [] := fun empty => by simp [empty] at after
    have first := Text.tidyFirst tidy
    rw [List.append_assoc,List.head?_append_of_ne_nil _ filled] at first
    exact List.forall_mem_cons.mpr ⟨⟨filled,first,whole.1⟩,ih (Text.tidyBehind tidy whole.2) further⟩

end

/-- The first of the kinds of separators that is in the text, with the more specific ones. -/
structure FirstKind (cs : List Char) (earlier : List (List String)) (words : List String) : Prop where
  listed : ∃ later, kinds = earlier ++ words :: later
  absent : ∀ kind ∈ earlier, ¬ Occurs kind cs
  here : Occurs words cs

theorem kindFound {cs : List Char} {words : List String} :
    kinds.find? (fun kind => (separatorOf kind).occurs cs) = some words ↔
      ∃ earlier, FirstKind cs earlier words := by
  rw [List.find?_eq_some_iff_append]
  constructor
  · rintro ⟨here,earlier,later,listed,before⟩
    have inside {kind : List String} (mem : kind ∈ earlier ++ words :: later) : kind ∈ kinds := listed ▸ mem
    refine ⟨earlier,⟨later,listed⟩,fun kind mem occurs => ?_,(occursWithin (inside (by simp)) cs).mp here⟩
    have absent := before kind mem
    rw [(occursWithin (inside (List.mem_append_left _ mem)) cs).mpr occurs] at absent
    cases absent
  · rintro ⟨earlier,⟨later,listed⟩,absent,here⟩
    have inside {kind : List String} (mem : kind ∈ earlier ++ words :: later) : kind ∈ kinds := listed ▸ mem
    refine ⟨(occursWithin (inside (by simp)) cs).mpr here,earlier,later,listed,fun kind mem => ?_⟩
    have missing := absent kind mem
    rw [← occursWithin (inside (List.mem_append_left _ mem)) cs] at missing
    simpa using missing

theorem kindNone {cs : List Char} : kinds.find? (fun kind => (separatorOf kind).occurs cs) = none ↔
    ∀ kind ∈ kinds, ¬ Occurs kind cs := by
  rw [List.find?_eq_none]
  exact forall₂_congr fun kind listed => not_congr (occursWithin listed cs)

/-- The pieces that are not blank, trimmed. -/
def segmentsOf (pieces : List (List Char)) : List (List Char) :=
  (pieces.filter fun piece => !piece.all isBlank).map (strip isBlank)

theorem segmentsTrimmed (pieces : List (List Char)) :
    (pieces.map (strip isBlank)).filter (fun piece => !piece.isEmpty) = segmentsOf pieces := by
  rw [List.filter_map,segmentsOf]
  refine congrArg (List.map _) (List.filter_congr fun piece _ => congrArg not ?_)
  cases blank : piece.all isBlank with
  | true =>
    have nothing : strip isBlank (piece ++ [] ++ []) = strip isBlank [] :=
      Text.stripAround (List.all_eq_true.mp blank) (by simp)
    simpa [strip,Text.dropEnd] using nothing
  | false =>
    obtain ⟨c,mem,solid⟩ := List.all_eq_false.mp blank
    simpa using Text.stripKeeps mem (by simpa using solid)

theorem splitKind (text : String) : splitSegments? text =
    (kinds.find? fun kind => (separatorOf kind).occurs text.toList).bind fun words =>
      let segments := segmentsOf ((separatorOf words).split text.toList)
      if 2 ≤ segments.length then some (segments.map String.ofList) else none := by
  simp only [splitSegments?,separatorKinds,List.find?_map,← segmentsTrimmed,Option.bind_map]
  rfl

/-- What the text is split into, if this is the first kind of separators in it and these are more specific. -/
structure Parted (text : String) (earlier : List (List String)) (words : List String)
    (pieces : List (List Char)) : Prop where
  cut : Cut words text.toList pieces
  segments : splitSegments? text =
    if 2 ≤ (segmentsOf pieces).length then some ((segmentsOf pieces).map String.ofList) else none
  plain : ∀ segment ∈ segmentsOf pieces, segment ≠ [] ∧ ∀ kind ∈ earlier ++ [words], ¬ Occurs kind segment
  tidy : Tidy text.toList → (∀ piece ∈ pieces, piece.all isBlank = false) ∧
    splitSegments? text = some (pieces.map String.ofList)

theorem occursInfix {words : List String} {part cs : List Char} (inside : part <:+: cs) (h : Occurs words part) :
    Occurs words cs :=
  h.imp fun _ ⟨separator,within⟩ => ⟨separator,within.trans inside⟩

theorem firstParted {text : String} {earlier : List (List String)} {words : List String}
    (first : FirstKind text.toList earlier words) :
    Parted text earlier words ((separatorOf words).split text.toList) := by
  have listed : words ∈ kinds := by
    obtain ⟨later,split⟩ := first.listed
    simp [split]
  have cut := splitCut listed text.toList
  have segments := splitKind text
  rw [kindFound.mpr ⟨earlier,first⟩,Option.bind_some] at segments
  generalize (separatorOf words).split text.toList = pieces at *
  refine ⟨cut,segments,fun segment mem => ?_,fun tidy => ?_⟩
  · obtain ⟨piece,kept,rfl⟩ := List.mem_map.mp mem
    obtain ⟨listed,filled⟩ := List.mem_filter.mp kept
    obtain ⟨inside,free⟩ := cutPiece cut listed
    have trimmed := Text.stripInfix isBlank piece
    constructor
    · have visible : piece.all isBlank = false := by simpa using filled
      obtain ⟨c,mem,solid⟩ := List.all_eq_false.mp visible
      exact Text.stripKeeps mem (by simpa using solid)
    · intro kind before occurs
      rcases List.mem_append.mp before with specific | own
      · exact first.absent kind specific (occursInfix (trimmed.trans inside) occurs)
      · rw [List.mem_singleton.mp own] at occurs
        exact free (occursInfix trimmed occurs)
  · have nonempty : text.toList ≠ [] := by
      obtain ⟨part,separator,within⟩ := first.here
      intro empty
      rw [empty] at within
      exact separatorFilled separator (List.infix_nil.mp within)
    have edges := cutTidy cut tidy nonempty
    have solid : ∀ piece ∈ pieces, piece.all isBlank = false := by
      intro piece mem
      obtain ⟨filled,opens,_⟩ := edges piece mem
      obtain ⟨c,rest,rfl⟩ := List.exists_cons_of_ne_nil filled
      have other : isBlank c = false := by simpa using opens
      simp [other]
    have whole : segmentsOf pieces = pieces := by
      have kept : (pieces.filter fun piece => !piece.all isBlank) = pieces :=
        List.filter_eq_self.mpr fun piece mem => by simp [solid piece mem]
      have trimmed : pieces.map (strip isBlank) = pieces.map id :=
        List.map_congr_left fun piece mem => Text.stripDone (edges piece mem).2.1 (edges piece mem).2.2
      rw [segmentsOf,kept,trimmed,List.map_id]
    rw [whole,if_pos (cutMany cut first.here)] at segments
    exact ⟨solid,segments⟩

/-- A text without a separator is not split. Otherwise it is split at those of the first kind in it: it is cut at
every one, and its segments are what is not blank between the cuts, trimmed and in order, if there are two of them at
least. No segment is empty or has a separator of this kind or of a more specific one. In a tidy text nothing between
the cuts is blank, so it is split if and only if it has a separator. -/
theorem splitLossless (text : String) :
    ((∀ kind ∈ kinds, ¬ Occurs kind text.toList) → splitSegments? text = none) ∧
    (∀ earlier words, FirstKind text.toList earlier words → ∃ pieces, Parted text earlier words pieces) ∧
    (Tidy text.toList → (splitSegments? text = none ↔ ∀ kind ∈ kinds, ¬ Occurs kind text.toList)) := by
  have unsplit (absent : ∀ kind ∈ kinds, ¬ Occurs kind text.toList) : splitSegments? text = none := by
    rw [splitKind,kindNone.mpr absent]
    rfl
  refine ⟨unsplit,fun earlier words first => ⟨_,firstParted first⟩,fun tidy => ⟨fun refused => ?_,unsplit⟩⟩
  rw [← kindNone]
  cases found : kinds.find? fun kind => (separatorOf kind).occurs text.toList with
  | none => rfl
  | some words =>
    obtain ⟨earlier,first⟩ := kindFound.mp found
    rw [((firstParted first).tidy tidy).2] at refused
    cases refused

/- Both separators of the first kind are cut at, the one at the end too, and the other kinds stay. -/
theorem mailParted :
    let text := "open Mail  and THEN mute and lock and then "
    let plain := Text.normalize "Open Sandbox!"
    FirstKind text.toList [] ["and","then"] ∧ (∃ pieces, Parted text [] ["and","then"] pieces) ∧
      splitSegments? text = some ["open Mail","mute and lock"] ∧
      Tidy plain.toList ∧ (∀ kind ∈ kinds, ¬ Occurs kind plain.toList) ∧ splitSegments? plain = none := by
  intro text plain
  have first : FirstKind text.toList [] ["and","then"] :=
    ⟨⟨_,rfl⟩,by simp,(occursWithin (by decide) _).mp (by decide +kernel)⟩
  have tidy : Tidy plain.toList := Text.normalTidy _
  have whole : splitSegments? plain = none := by decide +kernel
  exact ⟨first,(splitLossless text).2.1 [] _ first,by decide +kernel,tidy,((splitLossless plain).2.2 tidy).mp whole,
    whole⟩

end VoiceCommand.Parser
