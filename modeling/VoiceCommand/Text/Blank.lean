/-! White space and the edges of a text. A character is blank when it has the Unicode property
White_Space. Each operation is defined on lists of characters; a text is taken apart and put
together again around it. -/
namespace VoiceCommand.Text

def isBlank (c : Char) : Bool :=
  let n := c.toNat
  (9 ≤ n && n ≤ 13) || n == 0x20 || n == 0x85 || n == 0xA0 || n == 0x1680 ||
    (0x2000 ≤ n && n ≤ 0x200A) || n == 0x2028 || n == 0x2029 || n == 0x202F || n == 0x205F ||
    n == 0x3000

def dropEnd (p : Char → Bool) (cs : List Char) : List Char :=
  (cs.reverse.dropWhile p).reverse

def strip (p : Char → Bool) (cs : List Char) : List Char :=
  dropEnd p (cs.dropWhile p)

/-- The maximal runs of characters that are not blank, in order. -/
def runs : List Char → List (List Char)
  | [] => []
  | c :: cs =>
    if isBlank c then runs cs
    else match cs, runs cs with
      | d :: _, r :: rs => if isBlank d then [c] :: r :: rs else (c :: r) :: rs
      | _, rs => [c] :: rs

def trim (s : String) : String := String.ofList (strip isBlank s.toList)

def words (s : String) : List String := (runs s.toList).map String.ofList

def allBlank (s : String) : Bool := s.toList.all isBlank

end VoiceCommand.Text
