import VoiceCommand.Text.Blank
import VoiceCommand.Text.Word

/-! Patterns of speech and how they match. A pattern leads from a place in the text to the places
where a match of it can end, the preferred one first: longer runs before shorter ones, earlier
alternatives before later ones, a part before its absence. Letters match up to case. -/
namespace VoiceCommand

inductive CharKind where
  | blank
  | digit
  | any
  deriving DecidableEq, Repr

inductive Pattern where
  | empty
  | char (c : Char)
  | oneOf (cs : List Char)
  | many (kind : CharKind) (least : Nat) (most : Option Nat)
  | seq (p q : Pattern)
  | alt (p q : Pattern)
  | group (p : Pattern)
  | optional (p : Pattern)
  | capture (p : Pattern)
  | boundary
  | start
  deriving DecidableEq, Repr

namespace CharKind

def accepts : CharKind → Char → Bool
  | blank, c => Text.isBlank c
  | digit, c => Text.isDigit c
  | any, c => c != '\n'

def source : CharKind → List Char
  | blank => ['\\','s']
  | digit => ['\\','d']
  | any => ['.']

end CharKind

namespace Pattern

instance : Append Pattern := ⟨seq⟩

def ofChars : List Char → Pattern
  | [] => empty
  | [c] => char c
  | c :: cs => seq (char c) (ofChars cs)

def word (s : String) : Pattern := ofChars s.toList

def alternatives : List Pattern → Pattern
  | [] => empty
  | [p] => p
  | p :: ps => alt p (alternatives ps)

def choice (ps : List Pattern) : Pattern := group (alternatives ps)

def words (ws : List String) : Pattern := choice (ws.map word)

def maybe (p : Pattern) : Pattern := optional (group p)

def blanks : Pattern := many .blank 1 none

def perhapsBlanks : Pattern := many .blank 0 none

def runSource (kind : CharKind) : Nat → Option Nat → List Char
  | 0, none => kind.source ++ ['*']
  | 1, none => kind.source ++ ['+']
  | least, none => kind.source ++ '\x7b' :: Nat.toDigits 10 least ++ [',','\x7d']
  | least, some most =>
    kind.source ++ '\x7b' :: Nat.toDigits 10 least ++ ',' :: Nat.toDigits 10 most ++ ['\x7d']

def source : Pattern → List Char
  | empty => []
  | char c => [c]
  | oneOf cs => '[' :: cs ++ [']']
  | many kind least most => runSource kind least most
  | seq p q => p.source ++ q.source
  | alt p q => p.source ++ '|' :: q.source
  | group p => '(' :: '?' :: ':' :: p.source ++ [')']
  | optional p => p.source ++ ['?']
  | capture p => '(' :: p.source ++ [')']
  | boundary => ['\\','b']
  | start => ['^']

structure Place where
  before : Option Char
  rest : List Char
  position : Nat
  captured : List (Nat × Nat)
  deriving DecidableEq, Repr

namespace Place

def ofText (cs : List Char) : Place := ⟨none,cs,0,[]⟩

def step (p : Place) (c : Char) (rest : List Char) : Place :=
  { p with before := some c, rest := rest, position := p.position + 1 }

end Place

/-- Equality up to case of a lower-case ASCII letter, or of another ASCII character, with `d`. Two
letters beyond ASCII share their case with one of them. -/
def sameLetter (c d : Char) : Bool :=
  d.toLower == c || (c == 's' && d == 'ſ') || (c == 'k' && d == '\u212a')

-- The places after `least` to `most` characters that are accepted, the farthest first, in front of those
-- already found.
def reach (accepts : Char → Bool) (least : Nat) (most : Option Nat) (place : Place)
    (found : List Place) : List Char → List Place
  | [] => if least = 0 then place :: found else found
  | c :: rest =>
    let found := if least = 0 then place :: found else found
    if accepts c && most != some 0 then
      reach accepts (least - 1) (most.map (· - 1)) (place.step c rest) found rest
    else found

def single (accepts : Char → Bool) (place : Place) : List Place :=
  match place.rest with
  | c :: rest => if accepts c then [place.step c rest] else []
  | [] => []

def run : Pattern → Place → List Place
  | empty, place => [place]
  | char c, place => single (sameLetter c) place
  | oneOf cs, place => single (fun d => cs.any (sameLetter · d)) place
  | many kind least most, place => reach kind.accepts least most place [] place.rest
  | seq p q, place => (p.run place).flatMap q.run
  | alt p q, place => p.run place ++ q.run place
  | group p, place => p.run place
  | optional p, place => p.run place ++ [place]
  | capture p, place =>
    (p.run place).map fun e => { e with captured := e.captured ++ [(place.position,e.position)] }
  | boundary, place => if Text.isBoundary place.before place.rest.head? then [place] else []
  | start, place => if place.position = 0 then [place] else []

structure Match where
  length : Nat
  captures : List (List Char)
  deriving DecidableEq, Repr

def match? (p : Pattern) (cs : List Char) : Option Match :=
  (p.run (.ofText cs)).head?.map fun e =>
    ⟨e.position,e.captured.map fun (first,last) => (cs.drop first).take (last - first)⟩

def occurs (p : Pattern) : List Char → Bool
  | [] => (p.match? []).isSome
  | c :: cs => (p.match? (c :: cs)).isSome || p.occurs cs

/-- The pieces between the matches, from left to right. `piece` is the piece under way, last
character first, and `skip` characters still belong to the match just found. -/
def piecesFrom (p : Pattern) (piece : List Char) : Nat → List Char → List (List Char)
  | _, [] => [piece.reverse]
  | skip + 1, _ :: cs => p.piecesFrom piece skip cs
  | 0, c :: cs =>
    match p.match? (c :: cs) with
    | some ⟨length + 1,_⟩ => piece.reverse :: p.piecesFrom [] length cs
    | _ => p.piecesFrom (c :: piece) 0 cs

def split (p : Pattern) (cs : List Char) : List (List Char) := p.piecesFrom [] 0 cs

end Pattern

end VoiceCommand
