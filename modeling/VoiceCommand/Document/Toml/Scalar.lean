import VoiceCommand.Document.Toml.Moment
import VoiceCommand.Document.Value

/-! Scalars of the TOML notation that stand without quotes: truth values, whole numbers, floating-point
numbers, dates and times. A whole number can be well-formed and yet have no value; then it is faulty
for whoever reads it. -/
namespace VoiceCommand.Document.Toml

def noValue : Value := .faulty .scalar .shape (some .shape)

/-- Whole numbers of 64 bits, with or without sign, can be read; those of 128 bits passed over. -/
def wholeValue (i : Int) : Value :=
  if -twoTo 63 ≤ i ∧ i < twoTo 64 then .integer i
  else .faulty .scalar .shape (if -twoTo 127 ≤ i ∧ i < twoTo 128 then none else some .shape)

def based? (base : Nat) (cs : List Char) : Option Value :=
  (join? (isDigitOf 16) cs).bind fun ds =>
    if ds.isEmpty then some noValue
    else (natural? base ds).map fun n => wholeValue n

def decimalValue (cs : List Char) : Value :=
  let (negative,cs) := signed cs
  match natural? 10 cs with
  | some n => wholeValue (if negative then -(n : Int) else n)
  | none => noValue

/-- A whole number in decimal digits, without a zero in front. Behind an underscore only its neighbours
are looked at. -/
def decimal? (cs : List Char) : Option Value :=
  let body := (signed cs).2
  let rest := body.dropWhile Char.isDigit
  if body = ['0'] then some (.integer 0)
  else if body.head? = some '0' ∨ body.isEmpty then none
  else if rest.isEmpty ∨ rest.head? = some '_' then
    (joinNumber? (isDigitOf 16) cs).map decimalValue
  else none

def whole? : List Char → Option Value
  | '0' :: 'x' :: cs => based? 16 cs
  | '0' :: 'o' :: cs => based? 8 cs
  | '0' :: 'b' :: cs => based? 2 cs
  | cs => decimal? cs

def isExponentMark (c : Char) : Bool := c == 'e' || c == 'E'

def exponent? : List Char → Option Int
  | [] => some 0
  | _ :: cs =>
    let (negative,cs) := signed cs
    (natural? 10 cs).map fun n => if negative then -(n : Int) else n

def fractionDigits? : List Char → Option (List Char)
  | [] => some []
  | _ :: cs => if cs.isEmpty then none else some cs

def floating? (written : List Char) : Option Value := do
  let (negative,cs) := signed (← joinNumber? Char.isDigit written)
  if cs == ['i','n','f'] then some (.real (.number negative Binary64.infinity))
  else if cs == ['n','a','n'] then some (.real .nan)
  else
    let mantissa := cs.takeWhile fun c => !isExponentMark c
    let wholePart := mantissa.takeWhile (· != '.')
    let fraction ← fractionDigits? (mantissa.drop wholePart.length)
    let exponent ← exponent? (cs.drop mantissa.length)
    let digits ← natural? 10 (wholePart ++ fraction)
    if wholePart.isEmpty ∨ ((signed written).2.head? = some '0' ∧ 1 < wholePart.length) then none
    else
      let number := Decimal.toBinary64 negative ⟨digits,exponent - fraction.length⟩
      some (if number = .number negative Binary64.infinity then noValue else .real number)

def looksFloating (cs : List Char) : Bool := cs.any fun c => c == '.' || isExponentMark c

def momentKey : String := "$__toml_private_datetime"

def momentValue (m : Moment) : Value := .table [(some momentKey,.text m.text)] .closed

def scalar? (cs : List Char) : Option Value :=
  if cs == "true".toList then some (.bool true)
  else if cs == "false".toList then some (.bool false)
  else match Moment.read? cs with
    | some m => some (momentValue m)
    | none =>
      if (signed cs).2 == ['i','n','f'] || (signed cs).2 == ['n','a','n'] then floating? cs
      else if cs.take 2 == ['0','x'] || !looksFloating cs then whole? cs
      else floating? cs

end VoiceCommand.Document.Toml
