import VoiceCommand.Text.WordTable

/-! Word characters and decimal digits, with a fast answer for ASCII. A boundary lies between two
neighbours of which exactly one is a word character; outside the text there is none. -/
namespace VoiceCommand.Text

/-- Whether an ascending list of ranges holds the code point. -/
def inRanges (n : Nat) : List (Nat × Nat) → Bool
  | [] => false
  | (first,last) :: rest => if n < first then false else n ≤ last || inRanges n rest

def isWord (c : Char) : Bool :=
  if c.toNat < 128 then c.isAlphanum || c == '_' else inRanges c.toNat wordRanges

def isDigit (c : Char) : Bool :=
  if c.toNat < 128 then c.isDigit else inRanges c.toNat digitRanges

def isBoundary (before next : Option Char) : Bool :=
  before.any isWord != next.any isWord

end VoiceCommand.Text
