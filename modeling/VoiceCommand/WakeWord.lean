import VoiceCommand.Settings
import VoiceCommand.Text.Distance

/-! Hearing the wake phrase. A text that contains the phrase gives what follows it; otherwise a run
of words close enough to the phrase still counts, and the whole text is the command. After a hit the
detector is deaf until its cooldown has passed. -/
namespace VoiceCommand

def similarity (a b : List Char) : Binary64 :=
  let longer := max a.length b.length
  if longer = 0 then .one else (Binary64.ofRatio (Text.distance a b) longer).complement

structure WakeWord where
  phrase : String
  caseSensitive : Bool
  fuzzyThreshold : Binary64
  cooldown : Nat
  deriving DecidableEq, Repr

inductive HitKind where
  | exact
  | fuzzy
  deriving DecidableEq, Repr

structure Hit where
  kind : HitKind
  remainder : String
  deriving DecidableEq, Repr

namespace WakeWord

def ofSettings (s : WakeWordSettings) : WakeWord :=
  ⟨s.phrase,s.caseSensitive,s.fuzzyThreshold.clamp,s.cooldown⟩

def isMark (c : Char) : Bool :=
  let n := c.toNat
  (0x21 ≤ n && n ≤ 0x2F) || (0x3A ≤ n && n ≤ 0x40) || (0x5B ≤ n && n ≤ 0x60) ||
    (0x7B ≤ n && n ≤ 0x7E)

def foldChar (w : WakeWord) (c : Char) : List Char :=
  if w.caseSensitive then [c] else Text.lowerChar c

/-- The folded characters of a text, each with what follows its source character in the text. -/
def folded (w : WakeWord) : List Char → List (Char × List Char)
  | [] => []
  | c :: rest => (w.foldChar c).map (·,rest) ++ w.folded rest

def needle (w : WakeWord) : List Char :=
  (Text.strip Text.isBlank w.phrase.toList).flatMap w.foldChar

def follow? : List Char → List (Char × List Char) → Option (List Char)
  | [n], (c,rest) :: _ => if n = c then some rest else none
  | n :: ns, (c,_) :: es => if n = c then follow? ns es else none
  | _, _ => none

def cut? (needle : List Char) : List (Char × List Char) → Option (List Char)
  | [] => none
  | e :: es =>
    match follow? needle (e :: es) with
    | some rest => some rest
    | none => cut? needle es

def exactHit? (w : WakeWord) (text : String) : Option Hit :=
  (cut? w.needle (w.folded text.toList)).map fun rest =>
    ⟨.exact,String.ofList
      (Text.dropEnd Text.isBlank (rest.dropWhile fun c => Text.isBlank c || isMark c))⟩

def bareWords (cs : List Char) : List (List Char) :=
  ((Text.runs cs).map (Text.strip isMark)).filter fun r => !r.isEmpty

def windows (size : Nat) (xs : List α) : List (List α) :=
  (List.range (xs.length + 1 - size)).map fun i => (xs.drop i).take size

def likeness (phrase words : List (List Char)) : Binary64 :=
  let target := [' '].intercalate phrase
  ((windows (min phrase.length words.length) words).map fun ws =>
    similarity ([' '].intercalate ws) target).foldl Binary64.max .zero

def fuzzyHit? (w : WakeWord) (text : String) : Option Hit :=
  let words := bareWords (if w.caseSensitive then text else Text.lower text).toList
  let phrase := bareWords w.needle
  if words.isEmpty || phrase.isEmpty then none
  else if w.fuzzyThreshold.le (likeness phrase words) then some ⟨.fuzzy,Text.trim text⟩
  else none

/-- What the phrase gives in a text, cooldown aside. A blank phrase is never heard. -/
def hear? (w : WakeWord) (text : String) : Option Hit :=
  if w.needle.isEmpty then none else w.exactHit? text <|> w.fuzzyHit? text

def coolingDown (w : WakeWord) (last : Option Nat) (now : Nat) : Bool :=
  last.any fun last => now - last < w.cooldown

def detect? (w : WakeWord) (last : Option Nat) (now : Nat) (text : String) : Option Hit :=
  if w.coolingDown last now then none else w.hear? text

end WakeWord

structure Detector where
  wakeWord : WakeWord
  lastHit : Option Nat
  deriving DecidableEq, Repr

namespace Detector

def new (w : WakeWord) : Detector := ⟨w,none⟩

def detect (d : Detector) (now : Nat) (text : String) : Option Hit × Detector :=
  match d.wakeWord.detect? d.lastHit now text with
  | some hit => (some hit,{ d with lastHit := some now })
  | none => (none,d)

def resetCooldown (d : Detector) : Detector := { d with lastHit := none }

end Detector

end VoiceCommand
