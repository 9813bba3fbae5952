import VoiceCommand.Document.Json.Reader

/-! Writing the JSON notation over several lines, two blanks for each level. -/
namespace VoiceCommand.Document.Json

def escaped (c : Char) : List Char :=
  if c = '"' then ['\\','"'] else if c = '\\' then ['\\','\\']
  else if c = '\x08' then ['\\','b'] else if c = '\x0c' then ['\\','f']
  else if c = '\n' then ['\\','n'] else if c = '\r' then ['\\','r']
  else if c = '\t' then ['\\','t']
  else if c.toNat < 32 then
    ['\\','u','0','0',Nat.digitChar (c.toNat / 16),Nat.digitChar (c.toNat % 16)]
  else [c]

def textLiteral (s : String) : List Char := '"' :: s.toList.flatMap escaped ++ ['"']

/-- The fewest digits, positional from 0.00001 up to sixteen places before the point, and otherwise
with one digit before the point and an exponent. -/
def magnitudeText (m : Nat) : List Char :=
  let d := Decimal.shortest m
  let ds := Decimal.digitText d.digits
  let point : Int := ds.length + d.exponent
  if 0 ≤ d.exponent ∧ point ≤ 16 then d.plain ++ ['.','0']
  else if -5 < point ∧ point ≤ 16 then d.plain
  else
    let fraction := if ds.length = 1 then [] else '.' :: ds.drop 1
    ds.take 1 ++ fraction ++ 'e' :: (toString (point - 1)).toList

def realText : Binary64 → List Char
  | .nan => "null".toList
  | .number negative m =>
    if m = Binary64.infinity then "null".toList
    else (if negative then ['-'] else []) ++ magnitudeText m

def indentation (level : Nat) : List Char := '\n' :: List.replicate (2 * level) ' '

/-- The parts of a list or table, each on a line of its own. -/
def block (level : Nat) (opening closing : Char) (parts : List (List Char)) : List Char :=
  if parts.isEmpty then [opening,closing]
  else
    opening :: [','].intercalate (parts.map (indentation (level + 1) ++ ·)) ++ indentation level ++
      [closing]

mutual

def pretty (level : Nat) : Value → List Char
  | .null => "null".toList
  | .bool b => (toString b).toList
  | .integer i => (toString i).toList
  | .real x => realText x
  | .text s => textLiteral s
  | .list items _ => block level '[' ']' (prettyItems (level + 1) items)
  | .table members _ => block level '\x7b' '\x7d' (prettyMembers (level + 1) members)
  | .faulty _ _ _ => "null".toList

def prettyItems (level : Nat) : List Value → List (List Char)
  | [] => []
  | v :: vs => pretty level v :: prettyItems level vs

def prettyMembers (level : Nat) : List (Option String × Value) → List (List Char)
  | [] => []
  | (key,v) :: ms =>
    (textLiteral (key.getD "") ++ ':' :: ' ' :: pretty level v) :: prettyMembers level ms

end

def write (v : Value) : String := String.ofList (pretty 0 v)

end VoiceCommand.Document.Json
