import VoiceCommand.Document.Json.Number

/-! Reading the JSON notation. Reading stops at the first fault, and what was read up to there is the
value; a string with an unpaired surrogate and a number out of range are faulty only for those who
read them. -/
namespace VoiceCommand.Document.Json

def isSpace (c : Char) : Bool := c == ' ' || c == '\n' || c == '\t' || c == '\r'

def dropSpace (cs : List Char) : List Char := cs.dropWhile isSpace

def hexValue? (c : Char) : Option Nat :=
  if '0' ≤ c ∧ c ≤ '9' then some (c.toNat - 48)
  else if 'a' ≤ c ∧ c ≤ 'f' then some (c.toNat - 87)
  else if 'A' ≤ c ∧ c ≤ 'F' then some (c.toNat - 55)
  else none

def nearEnd (cs : List Char) : Bool := (cs.take 4).foldl (fun n c => n + c.utf8Size) 0 < 4

def hex4 : List Char → Except Fault (Nat × List Char)
  | cs =>
    if nearEnd cs then .error .ended
    else match (cs.take 4).mapM hexValue? with
      | some ds => .ok (ds.foldl (fun n d => n * 16 + d) 0,cs.drop 4)
      | none => .error .malformed

abbrev StringReading := Except (Fault × Option Fault) (Option (List Char) × List Char)

def isHighSurrogate (n : Nat) : Bool := 0xD800 ≤ n && n ≤ 0xDBFF

def isLowSurrogate (n : Nat) : Bool := 0xDC00 ≤ n && n ≤ 0xDFFF

/-- The character behind a backslash and the rest. No character stands for an unpaired surrogate; what
follows it is then read as text of its own. -/
def escape : List Char → Except Fault (Option Char × List Char)
  | [] => .error .ended
  | 'u' :: cs => do
    let (n,rest) ← hex4 cs
    if isLowSurrogate n then .ok (none,rest)
    else if isHighSurrogate n then
      match rest with
      | '\\' :: 'u' :: more =>
        match hex4 more with
        | .ok (m,more) =>
          if isLowSurrogate m then
            .ok (some (Char.ofNat ((n - 0xD800) * 0x400 + (m - 0xDC00) + 0x10000)),more)
          else .ok (none,rest)
        | .error fault => .error fault
      | ['\\'] => .error .ended
      | [] => .error .ended
      | _ => .ok (none,rest)
    else .ok (some (Char.ofNat n),rest)
  | c :: cs =>
    match c with
    | '"' => .ok (some '"',cs)
    | '\\' => .ok (some '\\',cs)
    | '/' => .ok (some '/',cs)
    | 'b' => .ok (some '\x08',cs)
    | 'f' => .ok (some '\x0c',cs)
    | 'n' => .ok (some '\n',cs)
    | 'r' => .ok (some '\r',cs)
    | 't' => .ok (some '\t',cs)
    | _ => .error .malformed

/-- The rest of a string behind its opening quote; `got` are the characters so far, last first, or none
behind an unpaired surrogate. -/
def stringFrom : Nat → Option (List Char) → List Char → StringReading
  | 0, _, _ => .error (.ended,some .ended)
  | fuel + 1, got, cs =>
    let fail (fault : Fault) : StringReading :=
      .error (if got.isSome then fault else .malformed,some fault)
    match cs with
    | [] => fail .ended
    | '"' :: rest => .ok (got.map List.reverse,rest)
    | '\\' :: rest =>
      match escape rest with
      | .ok (some c,rest) => stringFrom fuel (got.map (c :: ·)) rest
      | .ok (none,rest) => stringFrom fuel none rest
      | .error fault => fail fault
    | c :: rest => if c.toNat < 32 then fail .malformed else stringFrom fuel (got.map (c :: ·)) rest

def string (cs : List Char) : StringReading := stringFrom (cs.length + 1) (some []) cs

def word? : List Char → List Char → Except Fault (List Char)
  | [], cs => .ok cs
  | _ :: _, [] => .error .ended
  | w :: ws, c :: cs => if w = c then word? ws cs else .error .malformed

abbrev ValueReading := Value × Option (List Char)

def literal (v : Value) (w : List Char) (cs : List Char) : ValueReading :=
  match word? w cs with
  | .ok rest => (v,some rest)
  | .error fault => (.faulty .scalar fault (some fault),none)

def number (negative : Bool) (cs : List Char) : ValueReading :=
  match parts cs with
  | .ok (p,rest) => (p.value negative,some rest)
  | .error (read,skipped) => (.faulty .scalar read (some skipped),none)

def textValue (cs : List Char) : ValueReading :=
  match string cs with
  | .ok (some s,rest) => (.text (String.ofList s),some rest)
  | .ok (none,rest) => (.faulty .text .malformed none,some rest)
  | .error (read,skipped) => (.faulty .text read skipped,none)

def stopped : Ending := .broken false .malformed

mutual

def value : Nat → List Char → ValueReading
  | 0, _ => (.faulty .nothing .ended (some .ended),none)
  | fuel + 1, cs =>
    match dropSpace cs with
    | [] => (.faulty .nothing .ended (some .ended),none)
    | 'n' :: cs => literal .null ['u','l','l'] cs
    | 't' :: cs => literal (.bool true) ['r','u','e'] cs
    | 'f' :: cs => literal (.bool false) ['a','l','s','e'] cs
    | '-' :: cs => number true cs
    | '"' :: cs => textValue cs
    | '[' :: cs =>
      let (items,ending,rest) := items fuel true cs
      (.list items ending,rest)
    | '\x7b' :: cs =>
      let (members,ending,rest) := members fuel true cs
      (.table members ending,rest)
    | c :: cs =>
      if c.isDigit then number false (c :: cs)
      else (.faulty .scalar .malformed (some .malformed),none)

def items : Nat → Bool → List Char → List Value × Ending × Option (List Char)
  | 0, _, _ => ([],.broken false .ended,none)
  | fuel + 1, first, cs =>
    let next (cs : List Char) : List Value × Ending × Option (List Char) :=
      match value fuel cs with
      | (v,some rest) =>
        let (vs,ending,rest) := items fuel false rest
        (v :: vs,ending,rest)
      | (v,none) => ([v],stopped,none)
    match dropSpace cs with
    | [] => ([],.broken false .ended,none)
    | ']' :: rest => ([],.closed,some rest)
    | c :: rest =>
      if first then next (c :: rest)
      else if c = ',' then
        match dropSpace rest with
        | [] => ([],.broken true .ended,none)
        | ']' :: _ => ([],.broken true .malformed,none)
        | rest => next rest
      else ([],.broken false .malformed,none)

def members : Nat → Bool → List Char → List (Option String × Value) × Ending × Option (List Char)
  | 0, _, _ => ([],.broken false .ended,none)
  | fuel + 1, first, cs =>
    let next (cs : List Char) : List (Option String × Value) × Ending × Option (List Char) :=
      match string cs with
      | .error (read,_) => ([],.broken true read,none)
      | .ok (key,rest) =>
        let key := key.map String.ofList
        match dropSpace rest with
        | [] => ([(key,.faulty .nothing .ended (some .ended))],stopped,none)
        | ':' :: rest =>
          match value fuel rest with
          | (v,some rest) =>
            let (ms,ending,rest) := members fuel false rest
            ((key,v) :: ms,ending,rest)
          | (v,none) => ([(key,v)],stopped,none)
        | _ => ([(key,.faulty .scalar .malformed (some .malformed))],stopped,none)
    match dropSpace cs with
    | [] => ([],.broken false .ended,none)
    | '\x7d' :: rest => ([],.closed,some rest)
    | c :: rest =>
      if first then
        if c = '"' then next rest else ([],.broken false .malformed,none)
      else if c = ',' then
        match dropSpace rest with
        | [] => ([],.broken true .ended,none)
        | '"' :: rest => next rest
        | _ => ([],.broken true .malformed,none)
      else ([],.broken false .malformed,none)

end

def decode (d : Value → Except Fault α) (s : String) : Except Fault α := do
  let cs := s.toList
  let (v,rest) := value (2 * cs.length + 2) cs
  let a ← d v
  match rest with
  | some rest => if (dropSpace rest).isEmpty then .ok a else .error .malformed
  | none => .ok a

end VoiceCommand.Document.Json
