import VoiceCommand.Power

/-! Floating-point numbers of 64 bits, computed exactly. A number is a sign and a magnitude, the
rank of its absolute value among all of them in ascending order; the rank is also the bit pattern.
Every operation rounds the exact result to the nearest number, a tie to the even rank. -/
namespace VoiceCommand

inductive Binary64 where
  | nan
  | number (negative : Bool) (magnitude : Nat)
  deriving DecidableEq, Repr

namespace Binary64

def unit : Nat := twoTo 1074

def infinity : Nat := 0x7FF0000000000000

/-- The value of the finite number of a rank, counted in units. -/
def units (magnitude : Nat) : Nat :=
  if magnitude < twoTo 52 then magnitude
  else (twoTo 52 + magnitude % twoTo 52) * twoTo (magnitude / twoTo 52 - 1)

def halfEven (n d : Nat) : Nat :=
  if 2 * (n % d) < d then n / d
  else if d < 2 * (n % d) then n / d + 1
  else n / d + n / d % 2

def nearest (n d : Nat) : Nat :=
  let shift := (n / d).log2 - 52
  min infinity (shift * twoTo 52 + halfEven n (d * twoTo shift))

def zero : Binary64 := .number false 0

def one : Binary64 := .number false 0x3FF0000000000000

def ofRatio (n d : Nat) : Binary64 := .number false (nearest (n * unit) d)

def ofInt (i : Int) : Binary64 := .number (i < 0) (nearest (i.natAbs * unit) 1)

def scale : Binary64 → Nat → Binary64
  | .nan, _ => .nan
  | .number s m, k => .number s (if m = infinity then infinity else nearest (units m * k) 1)

def complement : Binary64 → Binary64
  | .nan => .nan
  | .number _ m => .number false (nearest (unit - units m) 1)

def rank (s : Bool) (m : Nat) : Int := if s then -m else m

def lt : Binary64 → Binary64 → Bool
  | .number s m, .number t n => rank s m < rank t n
  | _, _ => false

def le : Binary64 → Binary64 → Bool
  | .number s m, .number t n => rank s m ≤ rank t n
  | _, _ => false

def clamp (x : Binary64) : Binary64 :=
  if x.lt zero then zero else if one.lt x then one else x

/-- A confidence from zero to one; what is no number gives none. -/
def confidence : Binary64 → Binary64
  | .nan => zero
  | x => x.clamp

def max (x y : Binary64) : Binary64 := if x.lt y then y else x

def toBits : Binary64 → Nat
  | .nan => 0x7FF8000000000000
  | .number s m => (if s then twoTo 63 else 0) + m

end Binary64

end VoiceCommand
