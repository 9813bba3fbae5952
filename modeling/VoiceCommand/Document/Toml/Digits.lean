/-! Digits in different bases, and the underscores that may stand between them. -/
namespace VoiceCommand.Document.Toml

def digitOf? (base : Nat) (c : Char) : Option Nat :=
  let n := if '0' ≤ c ∧ c ≤ '9' then c.toNat - 48
    else if 'a' ≤ c ∧ c ≤ 'f' then c.toNat - 87
    else if 'A' ≤ c ∧ c ≤ 'F' then c.toNat - 55
    else 99
  if n < base then some n else none

def isDigitOf (base : Nat) (c : Char) : Bool := (digitOf? base c).isSome

def valueOf (base : Nat) (ds : List Nat) : Nat := ds.foldl (fun n d => n * base + d) 0

def natural? (base : Nat) (cs : List Char) : Option Nat :=
  if cs.isEmpty then none else (cs.mapM (digitOf? base)).map (valueOf base)

def signed : List Char → Bool × List Char
  | '-' :: cs => (true,cs)
  | '+' :: cs => (false,cs)
  | cs => (false,cs)

def join? (isDigit : Char → Bool) : List Char → Option (List Char)
  | [] => some []
  | c :: '_' :: cs =>
    if isDigit c ∧ cs.head?.any isDigit then (join? isDigit cs).map (c :: ·) else none
  | c :: cs => if c = '_' then none else (join? isDigit cs).map (c :: ·)

/-- Removes underscores from a number; one may also stand between its sign and its first digit. -/
def joinNumber? (isDigit : Char → Bool) : List Char → Option (List Char)
  | '+' :: '_' :: cs => if cs.head?.any isDigit then (join? isDigit cs).map ('+' :: ·) else none
  | '-' :: '_' :: cs => if cs.head?.any isDigit then (join? isDigit cs).map ('-' :: ·) else none
  | cs => join? isDigit cs

end VoiceCommand.Document.Toml
