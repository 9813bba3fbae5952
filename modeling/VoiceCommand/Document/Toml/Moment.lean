import VoiceCommand.Document.Toml.Digits
import VoiceCommand.Timestamp

/-! Dates and times of the TOML notation. The seconds of a time may be left out; a fraction counts to
its ninth place. -/
namespace VoiceCommand.Document.Toml

structure Clock where
  hour : Nat
  minute : Nat
  second : Nat
  nanos : Nat
  deriving DecidableEq, Repr

inductive Zone where
  | universal
  | ahead (minutes : Int)
  deriving DecidableEq, Repr

inductive Moment where
  | date (date : Timestamp.Date)
  | clock (clock : Clock)
  | both (date : Timestamp.Date) (clock : Clock) (zone : Option Zone)
  deriving DecidableEq, Repr

namespace Moment

def two? : List Char → Option (Nat × List Char)
  | a :: b :: rest => do some ((← digitOf? 10 a) * 10 + (← digitOf? 10 b),rest)
  | _ => none

def date? (cs : List Char) : Option (Timestamp.Date × List Char) := do
  let (century,cs) ← two? cs
  let (year,cs) ← two? cs
  match cs with
  | '-' :: cs =>
    let (month,cs) ← two? cs
    match cs with
    | '-' :: cs =>
      let (day,cs) ← two? cs
      let found : Timestamp.Date := ⟨(century * 100 + year : Nat),month,day⟩
      if found.valid then some (found,cs) else none
    | _ => none
  | _ => none

def fraction? : List Char → Option (Nat × List Char)
  | '.' :: cs =>
    let ds := cs.takeWhile Char.isDigit
    (natural? 10 (ds.take 9)).map fun n => (n * tenTo (9 - ds.length),cs.drop ds.length)
  | cs => some (0,cs)

def seconds? : List Char → Option ((Nat × Nat) × List Char)
  | ':' :: cs => do
    let (second,cs) ← two? cs
    let (nanos,cs) ← fraction? cs
    if second ≤ 60 then some ((second,nanos),cs) else none
  | cs => some ((0,0),cs)

def clock? (cs : List Char) : Option (Clock × List Char) := do
  let (hour,cs) ← two? cs
  match cs with
  | ':' :: cs =>
    let (minute,cs) ← two? cs
    let ((second,nanos),cs) ← seconds? cs
    if hour < 24 ∧ minute < 60 then some (⟨hour,minute,second,nanos⟩,cs) else none
  | _ => none

def zone? : List Char → Option (Option Zone)
  | [] => some none
  | ['Z'] => some (some .universal)
  | ['z'] => some (some .universal)
  | sign :: cs => do
    let (hour,cs) ← two? cs
    match cs with
    | ':' :: cs =>
      let (minute,cs) ← two? cs
      let minutes : Int := hour * 60 + minute
      if (sign = '+' ∨ sign = '-') ∧ hour < 24 ∧ minute < 60 ∧ cs.isEmpty then
        some (some (.ahead (if sign = '-' then -minutes else minutes)))
      else none
    | _ => none

def read? (cs : List Char) : Option Moment :=
  match date? cs with
  | some (day,[]) => some (.date day)
  | some (day,c :: cs) =>
    if c = 'T' ∨ c = 't' ∨ c = ' ' then do
      let (time,cs) ← clock? cs
      some (.both day time (← zone? cs))
    else none
  | none =>
    match clock? cs with
    | some (time,[]) => some (.clock time)
    | _ => none

def dateText (d : Timestamp.Date) : List Char :=
  Timestamp.padded 4 d.year.toNat ++ '-' :: Timestamp.padded 2 d.month ++
    '-' :: Timestamp.padded 2 d.day

def clockText (c : Clock) : List Char :=
  let places := Text.dropEnd (· == '0') (Timestamp.padded 9 c.nanos)
  Timestamp.padded 2 c.hour ++ ':' :: Timestamp.padded 2 c.minute ++
    ':' :: Timestamp.padded 2 c.second ++ if places.isEmpty then [] else '.' :: places

def zoneText : Zone → List Char
  | .universal => ['Z']
  | .ahead minutes =>
    (if minutes < 0 then '-' else '+') :: Timestamp.padded 2 (minutes.natAbs / 60) ++
      ':' :: Timestamp.padded 2 (minutes.natAbs % 60)

/-- The full form: with seconds, and without zeros at the end of their fraction. -/
def text : Moment → String
  | date d => String.ofList (dateText d)
  | clock c => String.ofList (clockText c)
  | both d c zone =>
    String.ofList (dateText d ++ 'T' :: clockText c ++ (zone.map zoneText).getD [])

end Moment

end VoiceCommand.Document.Toml
