import VoiceCommand.Power
import VoiceCommand.Text.Blank

/-! Instants in universal time, and their texts after RFC 3339. Reading is lenient about blanks,
separators and digit counts; writing gives the fraction in three, six or nine places as needed. -/
namespace VoiceCommand

/-- Seconds since 1970 and nanoseconds; a leap second counts on above 999999999. -/
structure Timestamp where
  seconds : Int
  nanos : Nat
  deriving DecidableEq, Repr

namespace Timestamp

structure Date where
  year : Int
  month : Nat
  day : Nat
  deriving DecidableEq, Repr

def isLeapYear (y : Int) : Bool := y % 4 == 0 && (y % 100 != 0 || y % 400 == 0)

def monthLength (y : Int) (m : Nat) : Nat :=
  if m = 2 then (if isLeapYear y then 29 else 28)
  else if m = 4 ∨ m = 6 ∨ m = 9 ∨ m = 11 then 30 else 31

def yearInRange (y : Int) : Bool := -262143 ≤ y && y ≤ 262142

def Date.valid (d : Date) : Bool :=
  yearInRange d.year && 1 ≤ d.month && d.month ≤ 12 && 1 ≤ d.day && d.day ≤ monthLength d.year d.month

/-- Days since 1970; years are counted from March, so that the leap day is the last. -/
def Date.toDays (d : Date) : Int :=
  let y := if d.month ≤ 2 then d.year - 1 else d.year
  let fromMarch := (d.month + 9) % 12
  y * 365 + y.fdiv 4 - y.fdiv 100 + y.fdiv 400 + (153 * fromMarch + 2) / 5 + d.day - 1 - 719468

def Date.ofDays (days : Int) : Date :=
  let z := days + 719468
  let era := z.fdiv 146097
  let inEra := (z - era * 146097).toNat
  let inYears := (inEra - inEra / 1460 + inEra / 36524 - inEra / 146096) / 365
  let inYear := inEra - (365 * inYears + inYears / 4 - inYears / 100)
  let fromMarch := (5 * inYear + 2) / 153
  let month := if fromMarch < 10 then fromMarch + 3 else fromMarch - 9
  let year := era * 400 + inYears + if month ≤ 2 then 1 else 0
  ⟨year,month,inYear - (153 * fromMarch + 2) / 5 + 1⟩

def number? (most : Nat) (cs : List Char) : Option (Nat × List Char) :=
  let digits := (cs.take most).takeWhile Char.isDigit
  if digits.isEmpty then none
  else some (digits.foldl (fun n c => n * 10 + (c.toNat - 48)) 0,cs.drop digits.length)

def dropBlanks (cs : List Char) : List Char := cs.dropWhile Text.isBlank

def field? (most : Nat) (cs : List Char) : Option (Nat × List Char) := number? most (dropBlanks cs)

def mark? (c : Char) (cs : List Char) : Option (List Char) :=
  match dropBlanks cs with
  | d :: rest => if c = d then some rest else none
  | [] => none

def year? (cs : List Char) : Option (Int × List Char) :=
  match dropBlanks cs with
  | '-' :: rest => (number? rest.length rest).map fun (n,rest) => (-(n : Int),rest)
  | '+' :: rest => (number? rest.length rest).map fun (n,rest) => ((n : Int),rest)
  | cs => (number? 4 cs).map fun (n,rest) => ((n : Int),rest)

def date? (cs : List Char) : Option (Date × List Char) := do
  let (year,cs) ← year? cs
  let cs ← mark? '-' cs
  let (month,cs) ← field? 2 cs
  let cs ← mark? '-' cs
  let (day,cs) ← field? 2 cs
  if Date.valid ⟨year,month,day⟩ then some (⟨year,month,day⟩,cs) else none

def fraction? : List Char → Option (Nat × List Char)
  | '.' :: cs => do
    let digits := (cs.take 9).takeWhile Char.isDigit
    let (n,rest) ← number? 9 cs
    some (n * tenTo (9 - digits.length),rest.dropWhile Char.isDigit)
  | cs => some (0,cs)

def clock? (cs : List Char) : Option ((Nat × Nat) × List Char) := do
  let (hour,cs) ← field? 2 cs
  let cs ← mark? ':' cs
  let (minute,cs) ← field? 2 cs
  let cs ← mark? ':' cs
  let (second,cs) ← field? 2 cs
  let (nanos,cs) ← fraction? cs
  if hour < 24 ∧ minute < 60 ∧ second ≤ 60 then
    if second = 60 then some ((hour * 3600 + minute * 60 + 59,1000000000 + nanos),cs)
    else some ((hour * 3600 + minute * 60 + second,nanos),cs)
  else none

def pair? : List Char → Option (Nat × List Char)
  | a :: b :: rest =>
    if a.isDigit ∧ b.isDigit then some ((a.toNat - 48) * 10 + (b.toNat - 48),rest) else none
  | _ => none

def offset? (cs : List Char) : Option (Int × List Char) :=
  let distance (sign : Int) (cs : List Char) : Option (Int × List Char) := do
    let (hours,cs) ← pair? cs
    let (minutes,cs) ← pair? (cs.dropWhile fun c => c == ':' || Text.isBlank c)
    if minutes < 60 ∧ hours < 24 then some (sign * (hours * 3600 + minutes * 60 : Nat),cs) else none
  match dropBlanks cs with
  | 'Z' :: cs => some (0,cs)
  | 'z' :: cs => some (0,cs)
  | '+' :: cs => distance 1 cs
  | '-' :: cs => distance (-1) cs
  | '−' :: cs => distance (-1) cs
  | u :: t :: c :: cs =>
    if u.toUpper = 'U' ∧ t.toUpper = 'T' ∧ c.toUpper = 'C' then some (0,cs) else none
  | _ => none

def read? (s : String) : Option Timestamp := do
  let (date,cs) ← date? s.toList
  let cs ← match cs with
    | c :: cs => if c = 't' ∨ c = 'T' ∨ c = ' ' then some cs else none
    | [] => none
  let ((seconds,nanos),cs) ← clock? cs
  let (offset,cs) ← offset? cs
  let total := date.toDays * 86400 + seconds - offset
  if (dropBlanks cs).isEmpty ∧ yearInRange (Date.ofDays (total.fdiv 86400)).year then
    some ⟨total,nanos⟩
  else none

def padded (width n : Nat) : List Char :=
  let ds := Nat.toDigits 10 n
  List.replicate (width - ds.length) '0' ++ ds

def yearText (y : Int) : List Char :=
  if 0 ≤ y ∧ y ≤ 9999 then padded 4 y.toNat
  else (if y < 0 then '-' else '+') :: padded 4 y.natAbs

def fractionText (nanos : Nat) : List Char :=
  if nanos = 0 then []
  else if nanos % 1000000 = 0 then '.' :: padded 3 (nanos / 1000000)
  else if nanos % 1000 = 0 then '.' :: padded 6 (nanos / 1000)
  else '.' :: padded 9 nanos

def text (t : Timestamp) : String :=
  let days := t.seconds.fdiv 86400
  let inDay := (t.seconds - days * 86400).toNat
  let date := Date.ofDays days
  let leap := t.nanos / 1000000000
  String.ofList (yearText date.year ++ '-' :: padded 2 date.month ++ '-' :: padded 2 date.day ++
    'T' :: padded 2 (inDay / 3600) ++ ':' :: padded 2 (inDay / 60 % 60) ++
    ':' :: padded 2 (inDay % 60 + leap) ++ fractionText (t.nanos % 1000000000) ++ ['Z'])

def later (t : Timestamp) (ms : Nat) : Timestamp :=
  let nanos := t.nanos + ms * 1000000
  ⟨t.seconds + nanos / 1000000000,nanos % 1000000000⟩

end Timestamp

end VoiceCommand
