import VoiceCommand.Proofs.Pattern.Captures
import VoiceCommand.Proofs.Text.Case

/-! The texts that a pattern takes, as a list of phrases. In a text where blanks stand alone a phrase says what each
character is; an open phrase says it of the first ones only. Two phrases that disagree somewhere are not said by
one text. -/
namespace VoiceCommand
open Text (isAscii isBlank isDigit Spaced)

inductive Token where
  | letter (c : Char)
  | kind (k : CharKind)
  deriving DecidableEq, Repr

namespace Token

def accepts : Token → Char → Bool
  | letter c => Pattern.sameLetter c
  | kind k => k.accepts

/-- No character is both. -/
def clashes : Token → Token → Bool
  | letter c, letter d => c != d && isAscii c && isAscii d
  | letter c, kind k | kind k, letter c => k != .any && !k.accepts c
  | kind _, kind _ => false

theorem kindCaseless {k : CharKind} (restricted : k ≠ .any) {c : Char} (accepted : k.accepts c = true) :
    c.toLower = c ∧ c ≠ 'ſ' ∧ c ≠ '\u212a' := by
  have small : c.toNat < 65 ∨ 90 < c.toNat := by
    cases k with
    | blank =>
      have apart : ∀ n ∈ Text.blankPoints, n < 65 ∨ 90 < n := by decide
      exact apart c.toNat (Text.blankPoint accepted)
    | digit =>
      by_contra capital
      have ascii : c.toNat < 128 := by omega
      simp only [CharKind.accepts,isDigit,ascii,if_true,Char.isDigit,Bool.and_eq_true,decide_eq_true_eq,
        ge_iff_le,UInt32.le_iff_toNat_le] at accepted
      have bound : c.toNat ≤ 57 := accepted.2
      omega
    | any => exact absurd rfl restricted
  refine ⟨Char.toNat_inj.mp (by rw [Text.lowerNumber,if_neg (by omega)]),?_,?_⟩
  · rintro rfl
    cases k with
    | any => exact restricted rfl
    | blank => revert accepted; decide
    | digit => revert accepted; decide +kernel
  · rintro rfl
    cases k with
    | any => exact restricted rfl
    | blank => revert accepted; decide
    | digit => revert accepted; decide +kernel

theorem letterCases {c d : Char} (same : Pattern.sameLetter c d = true) :
    d.toLower = c ∨ (c = 's' ∧ d = 'ſ') ∨ (c = 'k' ∧ d = '\u212a') := by
  simpa [Pattern.sameLetter,or_assoc] using same

theorem letterKind {c d : Char} {k : CharKind} (restricted : k ≠ .any) (other : k.accepts c = false)
    (same : Pattern.sameLetter c d = true) : k.accepts d = false := by
  cases accepted : k.accepts d with
  | false => rfl
  | true =>
    obtain ⟨fixed,notS,notK⟩ := kindCaseless restricted accepted
    rcases letterCases same with lower | ⟨_,long⟩ | ⟨_,kelvin⟩
    · rw [← lower,fixed,accepted] at other
      cases other
    · exact absurd long notS
    · exact absurd kelvin notK

/-- The ASCII character that is this one up to case, if there is one. -/
def folded (d : Char) : Char := if d = 'ſ' then 's' else if d = '\u212a' then 'k' else d.toLower

theorem letterFolded {c d : Char} (ascii : isAscii c = true) (same : Pattern.sameLetter c d = true) :
    c = folded d := by
  rcases letterCases same with lower | ⟨rfl,rfl⟩ | ⟨rfl,rfl⟩
  · have within : isAscii d = true := by rw [← Text.lowerAscii,lower,ascii]
    have notS : d ≠ 'ſ' := by
      rintro rfl
      revert within
      decide
    have notK : d ≠ '\u212a' := by
      rintro rfl
      revert within
      decide
    rw [folded,if_neg notS,if_neg notK,lower]
  · rfl
  · rfl

theorem clashApart {s t : Token} (clash : s.clashes t = true) {c : Char} (first : s.accepts c = true)
    (second : t.accepts c = true) : False := by
  cases s with
  | letter a =>
    cases t with
    | letter b =>
      simp only [clashes,Bool.and_eq_true,bne_iff_ne] at clash
      exact clash.1.1 ((letterFolded clash.1.2 first).trans (letterFolded clash.2 second).symm)
    | kind k =>
      simp only [clashes,Bool.and_eq_true,bne_iff_ne,Bool.not_eq_true'] at clash
      have refused := letterKind clash.1 clash.2 first
      exact Bool.false_ne_true (refused.symm.trans second)
  | kind j =>
    cases t with
    | letter b =>
      simp only [clashes,Bool.and_eq_true,bne_iff_ne,Bool.not_eq_true'] at clash
      have refused := letterKind clash.1 clash.2 second
      exact Bool.false_ne_true (refused.symm.trans first)
    | kind k => cases clash

end Token

structure Phrase where
  tokens : List Token
  isOpen : Bool
  deriving DecidableEq, Repr

namespace Phrase

def fitsFrom (isOpen : Bool) : List Token → List Char → Bool
  | [], cs => isOpen || cs.isEmpty
  | _ :: _, [] => false
  | t :: tokens, c :: cs => t.accepts c && fitsFrom isOpen tokens cs

/-- The text is one that the phrase stands for. -/
def fits (a : Phrase) (cs : List Char) : Bool := fitsFrom a.isOpen a.tokens cs

def empty : Phrase := ⟨[],false⟩

/-- One phrase after another; behind an open one everything is left open. -/
def append (a b : Phrase) : Phrase := if a.isOpen then a else ⟨a.tokens ++ b.tokens,b.isOpen⟩

def clashFrom : List Token → List Token → Bool
  | s :: tokens, t :: others => s.clashes t || clashFrom tokens others
  | _, _ => false

/-- Somewhere the two phrases ask for different characters. -/
def clashes (a b : Phrase) : Bool := clashFrom a.tokens b.tokens

theorem openFits {tokens : List Token} {cs : List Char} (h : fitsFrom true tokens cs = true)
    (more : List Char) : fitsFrom true tokens (cs ++ more) = true := by
  induction tokens generalizing cs with
  | nil => rfl
  | cons t tokens ih =>
    cases cs with
    | nil => cases h
    | cons c cs =>
      simp only [fitsFrom,List.cons_append,Bool.and_eq_true] at h ⊢
      exact ⟨h.1,ih h.2⟩

theorem closedFits {tokens others : List Token} {isOpen : Bool} {cs more : List Char}
    (h : fitsFrom false tokens cs = true) (behind : fitsFrom isOpen others more = true) :
    fitsFrom isOpen (tokens ++ others) (cs ++ more) = true := by
  induction tokens generalizing cs with
  | nil =>
    have empty : cs = [] := by simpa [fitsFrom] using h
    simpa [empty] using behind
  | cons t tokens ih =>
    cases cs with
    | nil => cases h
    | cons c cs =>
      simp only [fitsFrom,List.cons_append,Bool.and_eq_true] at h ⊢
      exact ⟨h.1,ih h.2⟩

theorem appendFits {a b : Phrase} {cs more : List Char} (first : a.fits cs = true)
    (second : b.fits more = true) : (a.append b).fits (cs ++ more) = true := by
  obtain ⟨tokens,isOpen⟩ := a
  cases isOpen with
  | true => exact openFits first more
  | false => exact closedFits first second

theorem closedLength {a : Phrase} {cs : List Char} (closed : a.isOpen = false) (h : a.fits cs = true) :
    cs.length = a.tokens.length := by
  obtain ⟨tokens,isOpen⟩ := a
  cases closed
  simp only [fits] at h
  induction tokens generalizing cs with
  | nil => simpa [fitsFrom] using h
  | cons t tokens ih =>
    cases cs with
    | nil => cases h
    | cons c cs =>
      simp only [fitsFrom,Bool.and_eq_true] at h
      simpa using ih h.2

/- The two texts begin alike, so that where both phrases have a token one character is accepted by both. -/
theorem fitsTogether {a b : Phrase} {text first second : List Char} (first' : a.fits first = true)
    (second' : b.fits second = true) (begins : first <+: text) (begins' : second <+: text) :
    a.clashes b = false := by
  obtain ⟨tokens,isOpen⟩ := a
  obtain ⟨others,isOpen'⟩ := b
  simp only [fits,clashes] at first' second' ⊢
  induction tokens generalizing others text first second with
  | nil => rfl
  | cons s tokens ih =>
    cases others with
    | nil => rfl
    | cons t others =>
      cases first with
      | nil => cases first'
      | cons c first =>
        cases second with
        | nil => cases second'
        | cons d second =>
          obtain ⟨rest,rfl⟩ := begins
          obtain ⟨same,begins'⟩ := List.cons_prefix_cons.mp begins'
          simp only [fitsFrom,Bool.and_eq_true] at first' second'
          simp only [clashFrom,Bool.or_eq_false_iff]
          refine ⟨Bool.eq_false_iff.mpr fun clash => ?_,ih ⟨rest,rfl⟩ begins' first'.2 _ second'.2⟩
          exact Token.clashApart clash first'.1 (same ▸ second'.1)

end Phrase

namespace Pattern

/-- What a match of the pattern can take, with a single blank for every run of blanks. -/
def phrases : Pattern → List Phrase
  | empty | boundary | start => [.empty]
  | char c => [⟨[.letter c],false⟩]
  | oneOf cs => cs.map fun c => ⟨[.letter c],false⟩
  | many .blank least _ => (if least = 0 then [.empty] else []) ++ [⟨[.kind .blank],false⟩]
  | many kind least _ => [⟨List.replicate least (.kind kind),true⟩]
  | seq p q => p.phrases.flatMap fun a => q.phrases.map a.append
  | alt p q => p.phrases ++ q.phrases
  | group p | capture p => p.phrases
  | optional p => p.phrases ++ [.empty]

theorem kindFits {k : CharKind} {least : Nat} {cs : List Char} (enough : least ≤ cs.length)
    (all : ∀ c ∈ cs, k.accepts c = true) :
    (Phrase.mk (List.replicate least (.kind k)) true).fits cs = true := by
  induction least generalizing cs with
  | zero => rfl
  | succ n ih =>
    cases cs with
    | nil => simp at enough
    | cons c cs =>
      obtain ⟨first,rest⟩ := List.forall_mem_cons.mp all
      simp only [Phrase.fits,List.replicate_succ,Phrase.fitsFrom,Bool.and_eq_true]
      exact ⟨first,ih (by simpa using enough) rest⟩

/-- The place lies behind characters that one of the phrases says. -/
def Says (phrases : List Phrase) (cs front : List Char) (e : Place) : Prop :=
  ∃ taken, At cs (front ++ taken) e ∧ ∃ a ∈ phrases, a.fits taken = true

section
variable {cs front : List Char} {place e : Place}

theorem saysNothing (here : At cs front place) (same : e = place) : Says [.empty] cs front e :=
  ⟨[],by simpa [same] using here,_,List.mem_singleton_self _,rfl⟩

theorem saysLeft {phrases : List Phrase} (h : Says phrases cs front e) (others : List Phrase) :
    Says (phrases ++ others) cs front e := by
  obtain ⟨taken,there,a,listed,fits⟩ := h
  exact ⟨taken,there,a,List.mem_append_left _ listed,fits⟩

theorem saysRight {phrases : List Phrase} (h : Says phrases cs front e) (others : List Phrase) :
    Says (others ++ phrases) cs front e := by
  obtain ⟨taken,there,a,listed,fits⟩ := h
  exact ⟨taken,there,a,List.mem_append_right _ listed,fits⟩

theorem manySays {kind : CharKind} {least : Nat} {most : Option Nat} (spaced : Spaced cs)
    (here : At cs front place) (mem : e ∈ (many kind least most).run place) :
    Says (many kind least most).phrases cs front e := by
  obtain ⟨taken,there,_,_,enough,_,all⟩ := manyTakes here mem
  refine ⟨taken,there,?_⟩
  cases kind with
  | blank =>
    have inside : taken <:+: cs := ⟨front,e.rest,there.split.symm⟩
    have within : Spaced taken := spaced.infix inside
    have short := Text.spacedAlone within all
    cases taken with
    | nil =>
      have free : least = 0 := by simpa using enough
      exact ⟨.empty,by simp [phrases,free],rfl⟩
    | cons c rest =>
      have alone : rest = [] := by simpa using short
      refine ⟨⟨[.kind .blank],false⟩,by simp [phrases],?_⟩
      simpa [alone,Phrase.fits,Phrase.fitsFrom,Token.accepts] using all c List.mem_cons_self
  | digit => exact ⟨_,List.mem_singleton_self _,kindFits enough all⟩
  | any => exact ⟨_,List.mem_singleton_self _,kindFits enough all⟩

/- Along the pattern; a part after another says what the two say together. -/
theorem runSays {p : Pattern} (spaced : Spaced cs) (here : At cs front place) (mem : e ∈ p.run place) :
    Says p.phrases cs front e := by
  induction p generalizing front place e with
  | empty => exact saysNothing here (List.mem_singleton.mp mem)
  | char c =>
    obtain ⟨d,there,_,_,accepted⟩ := singleTakes here mem
    exact ⟨[d],there,_,List.mem_singleton_self _,by simpa [Phrase.fits,Phrase.fitsFrom,Token.accepts]⟩
  | oneOf letters =>
    obtain ⟨d,there,_,_,accepted⟩ := singleTakes here mem
    obtain ⟨c,listed,same⟩ := List.any_eq_true.mp accepted
    exact ⟨[d],there,_,List.mem_map_of_mem listed,by simpa [Phrase.fits,Phrase.fitsFrom,Token.accepts]⟩
  | many kind least most => exact manySays spaced here mem
  | seq p q first second =>
    obtain ⟨m,before,after⟩ := List.mem_flatMap.mp mem
    obtain ⟨taken,there,a,listed,fits⟩ := first here before
    obtain ⟨more,last,b,listed',fits'⟩ := second there after
    refine ⟨taken ++ more,by simpa using last,a.append b,?_,Phrase.appendFits fits fits'⟩
    exact List.mem_flatMap.mpr ⟨a,listed,List.mem_map_of_mem listed'⟩
  | alt p q first second =>
    rcases List.mem_append.mp mem with mem | mem
    · exact saysLeft (first here mem) _
    · exact saysRight (second here mem) _
  | group p ih => exact ih here mem
  | optional p ih =>
    rcases List.mem_append.mp mem with mem | mem
    · exact saysLeft (ih here mem) _
    · exact saysRight (saysNothing here (List.mem_singleton.mp mem)) _
  | capture p ih =>
    obtain ⟨m,inside,eq⟩ := List.mem_map.mp mem
    obtain ⟨taken,there,said⟩ := ih here inside
    exact ⟨taken,by rw [← eq]; exact ⟨there.split,there.position⟩,said⟩
  | boundary =>
    simp only [run] at mem
    split at mem
    · exact saysNothing here (List.mem_singleton.mp mem)
    · cases mem
  | start =>
    simp only [run] at mem
    split at mem
    · exact saysNothing here (List.mem_singleton.mp mem)
    · cases mem

end

theorem matchShort {p : Pattern} {cs : List Char} {m : Match} (found : p.match? cs = some m) :
    m.length ≤ cs.length := by
  obtain ⟨e,first,eq⟩ := Option.map_eq_some_iff.mp found
  obtain ⟨taken,there,_⟩ := runTakes (atStart cs) (List.mem_of_head? first)
  rw [← eq,there.split,List.length_append]
  exact Nat.le_add_right_of_le there.position.le

/-- A match takes the beginning of the text, as one of the phrases says. -/
theorem matchSays {p : Pattern} {cs : List Char} (spaced : Spaced cs) {m : Match}
    (found : p.match? cs = some m) :
    ∃ taken, taken <+: cs ∧ m.length = taken.length ∧ ∃ a ∈ p.phrases, a.fits taken = true := by
  obtain ⟨e,first,eq⟩ := Option.map_eq_some_iff.mp found
  obtain ⟨taken,there,said⟩ := runSays spaced (atStart cs) (List.mem_of_head? first)
  exact ⟨taken,⟨e.rest,there.split.symm⟩,by rw [← eq]; exact there.position,said⟩

/-- The pattern ends with everything that follows. -/
def isWhole : Pattern → Bool
  | seq _ (capture (many .any 1 none)) => true
  | _ => false

/- The farthest place comes first, and with every character accepted that is the end of the text. -/
theorem reachEnd {accepts : Char → Bool} {rest : List Char} (all : ∀ c ∈ rest, accepts c = true) {least : Nat}
    (enough : least ≤ rest.length) {place : Place} (next : place.rest = rest) (found : List Place) :
    ∃ e others, reach accepts least none place found rest = e :: others ∧ e.rest = [] := by
  induction rest generalizing least place found with
  | nil =>
    have done : least = 0 := by simpa using enough
    exact ⟨place,found,by simp [reach,done],next⟩
  | cons c rest ih =>
    obtain ⟨first,later⟩ := List.forall_mem_cons.mp all
    have less : least - 1 ≤ rest.length := by
      rw [List.length_cons] at enough
      omega
    have moved : (place.step c rest).rest = rest := rfl
    obtain ⟨e,others,same,ends⟩ := ih later less moved (if least = 0 then place :: found else found)
    exact ⟨e,others,by simpa [reach,first] using same,ends⟩

theorem remainderEnd {cs front : List Char} {place e : Place} (line : '\n' ∉ cs) (here : At cs front place)
    (first : ((capture (many .any 1 none)).run place).head? = some e) : e.rest = [] := by
  have all : ∀ c ∈ place.rest, CharKind.any.accepts c = true := by
    intro c mem
    refine bne_iff_ne.mpr fun newline => line ?_
    rw [here.split,← newline]
    exact List.mem_append_right _ mem
  cases rest : place.rest with
  | nil => simp [run,rest,reach] at first
  | cons c later =>
    have enough : 1 ≤ place.rest.length := by simp [rest]
    obtain ⟨m,others,same,ends⟩ := reachEnd all enough rfl []
    simp only [run,same,List.map_cons,List.head?_cons,Option.some.injEq] at first
    rw [← first]
    exact ends

theorem wholeMatch {p : Pattern} (whole : p.isWhole = true) {cs : List Char} (line : '\n' ∉ cs) {m : Match}
    (found : p.match? cs = some m) : m.length = cs.length := by
  obtain ⟨e,first,eq⟩ := Option.map_eq_some_iff.mp found
  obtain ⟨taken,there,_⟩ := runTakes (atStart cs) (List.mem_of_head? first)
  unfold isWhole at whole
  split at whole
  · rename_i q
    rw [run,List.head?_flatMap] at first
    obtain ⟨place,before,last⟩ := List.exists_of_findSome?_eq_some first
    obtain ⟨_,here,_⟩ := runTakes (atStart cs) before
    have ends := remainderEnd line here last
    have split := there.split
    rw [ends,List.append_nil] at split
    rw [← eq,split]
    exact there.position
  · cases whole

end Pattern

end VoiceCommand
