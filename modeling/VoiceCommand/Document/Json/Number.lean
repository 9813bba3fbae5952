import VoiceCommand.Document.Value

/-! Numbers of the JSON notation. Whole numbers of 64 bits stay whole. Any other is computed from its
first digits, as many as 64 bits hold, and a power of ten, rounding at each of the two steps. -/
namespace VoiceCommand.Document.Json

def maxPower : Nat := 308

def powerOfTen (k : Nat) : Nat := Binary64.nearest (tenTo k * Binary64.unit) 1

/-- The rank of `significand * 10 ^ exponent`, or none beyond the greatest number. Negative powers are
divided out in portions; after `fuel` of them nothing is left. -/
def scaled? (exponent : Int) : Nat → Nat → Option Nat
  | fuel, m =>
    if exponent.natAbs ≤ maxPower then
      let power := powerOfTen exponent.natAbs
      if 0 ≤ exponent then
        let product := Binary64.nearest (Binary64.units m * Binary64.units power) Binary64.unit
        if product = Binary64.infinity then none else some product
      else some (Binary64.nearest (Binary64.units m * Binary64.unit) (Binary64.units power))
    else if m = 0 then some 0
    else if 0 ≤ exponent then none
    else match fuel with
      | 0 => some 0
      | fuel + 1 =>
        scaled? (exponent + maxPower) fuel (Binary64.nearest (Binary64.units m * Binary64.unit)
          (Binary64.units (powerOfTen maxPower)))

def real? (negative : Bool) (significand : Nat) (exponent : Int) : Option Binary64 :=
  (scaled? exponent 4 (Binary64.nearest (significand * Binary64.unit) 1)).map (.number negative)

def word : Nat := twoTo 64

def digitValue (c : Char) : Nat := c.toNat - 48

def leadingDigits (n : Nat) : List Char → Nat × Nat
  | [] => (n,0)
  | c :: cs =>
    if n * 10 + digitValue c < word then leadingDigits (n * 10 + digitValue c) cs
    else (n,cs.length + 1)

structure Parts where
  whole : List Char
  fraction : List Char
  exponent : Int
  isReal : Bool
  deriving DecidableEq, Repr

/-- The value of a number, or a fault if it is too large. The digits of the fraction count only as long
as they fit. -/
def Parts.value (p : Parts) (negative : Bool) : Value :=
  let (significand,dropped) := leadingDigits 0 p.whole
  if !p.isReal && dropped = 0 then
    if !negative then .integer significand
    else if 0 < significand ∧ significand ≤ twoTo 63 then .integer (-significand)
    else .real (.number true (Binary64.nearest (significand * Binary64.unit) 1))
  else
    let (significand,rest) :=
      if dropped = 0 then leadingDigits significand p.fraction
      else if (p.fraction.head?.any fun c => significand * 10 + digitValue c < word) then
        leadingDigits significand p.fraction
      else (significand,p.fraction.length)
    let places : Nat := p.fraction.length - rest
    match real? negative significand (dropped + p.exponent - places) with
    | some x => .real x
    | none => .faulty .scalar .malformed none

def exponentValue (ds : List Char) : Nat :=
  min (ds.foldl (fun n c => min (n * 10 + digitValue c) 100000000000) 0) 100000000000

abbrev Reading := Except (Fault × Fault) (Parts × List Char)

def noDigit : List Char → Fault × Fault
  | [] => (.ended,.malformed)
  | _ => (.malformed,.malformed)

def exponent (p : Parts) : List Char → Reading
  | c :: cs =>
    if c = 'e' ∨ c = 'E' then
      let (sign,cs) : Int × List Char :=
        match cs with
        | '+' :: cs => (1,cs)
        | '-' :: cs => (-1,cs)
        | cs => (1,cs)
      let ds := cs.takeWhile Char.isDigit
      if ds.isEmpty then .error (noDigit cs)
      else .ok ({ p with exponent := sign * exponentValue ds, isReal := true },cs.drop ds.length)
    else .ok (p,c :: cs)
  | [] => .ok (p,[])

def fraction (p : Parts) : List Char → Reading
  | '.' :: cs =>
    let ds := cs.takeWhile Char.isDigit
    if ds.isEmpty then .error (noDigit cs)
    else exponent { p with fraction := ds, isReal := true } (cs.drop ds.length)
  | cs => exponent p cs

def parts (cs : List Char) : Reading :=
  let ds := cs.takeWhile Char.isDigit
  if ds.isEmpty then .error (noDigit cs)
  else if 1 < ds.length ∧ ds.head? = some '0' then .error (.malformed,.malformed)
  else fraction ⟨ds,[],0,false⟩ (cs.drop ds.length)

end VoiceCommand.Document.Json
