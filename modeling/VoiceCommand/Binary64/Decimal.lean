import VoiceCommand.Binary64.Basic

/-! Decimal texts of floating-point numbers: the number nearest to a decimal, and the decimal with
the fewest digits that is nearest to a number. -/
namespace VoiceCommand

structure Decimal where
  digits : Nat
  exponent : Int
  deriving DecidableEq, Repr

namespace Decimal

def digitCount (n : Nat) : Nat := (Nat.toDigits 10 n).length

def magnitude (d : Decimal) : Nat :=
  if d.digits = 0 then 0
  else if 400 < d.exponent then Binary64.infinity
  else if d.exponent + digitCount d.digits < -400 then 0
  else Binary64.nearest (d.digits * tenTo d.exponent.toNat * Binary64.unit) (tenTo (-d.exponent).toNat)

def toBinary64 (negative : Bool) (d : Decimal) : Binary64 := .number negative d.magnitude

def dropZeros : Nat → Decimal → Decimal
  | 0, d => d
  | fuel + 1, d =>
    if d.digits ≠ 0 ∧ d.digits % 10 = 0 then dropZeros fuel ⟨d.digits / 10,d.exponent + 1⟩ else d

def leading (value : Nat) : Nat → Int → Int
  | 0, e => e
  | fuel + 1, e =>
    if value * tenTo (-(e + 1)).toNat < tenTo (e + 1).toNat * Binary64.unit then e
    else leading value fuel (e + 1)

/-- The decimal with its last place at `place` that reads back as the number of rank `m`, if one of
the two neighbours of the number does; of two the nearer one, or the even one. -/
def onGrid? (m : Nat) (place : Int) : Option Decimal :=
  let up := tenTo (-place).toNat
  let step := tenTo place.toNat * (2 * Binary64.unit)
  let value := 2 * Binary64.units m * up
  let low := (Binary64.units (m - 1) + Binary64.units m) * up
  let high := (Binary64.units m + Binary64.units (m + 1)) * up
  let floor := value / step
  let closed := m % 2 == 0
  let lowFits := low < floor * step || (closed && low == floor * step)
  let highFits := (floor + 1) * step < high || (closed && (floor + 1) * step == high)
  if lowFits && highFits then some ⟨Binary64.halfEven value step,place⟩
  else if lowFits then some ⟨floor,place⟩
  else if highFits then some ⟨floor + 1,place⟩
  else none

/-- The fewest digits that read back as the finite number of rank `m`, and of those the nearest. -/
def shortest (m : Nat) : Decimal :=
  if m = 0 then ⟨0,0⟩
  else
    let top := leading (Binary64.units m) 640 (-325)
    let found := (List.range 17).findSome? fun (count : Nat) => onGrid? m (top - count)
    dropZeros 20 (found.getD ⟨0,0⟩)

def digitText (n : Nat) : List Char := Nat.toDigits 10 n

def plain (d : Decimal) : List Char :=
  let ds := digitText d.digits
  if 0 ≤ d.exponent then ds ++ List.replicate d.exponent.toNat '0'
  else
    let places := (-d.exponent).toNat
    if places < ds.length then
      ds.take (ds.length - places) ++ '.' :: ds.drop (ds.length - places)
    else '0' :: '.' :: List.replicate (places - ds.length) '0' ++ ds

end Decimal

end VoiceCommand
