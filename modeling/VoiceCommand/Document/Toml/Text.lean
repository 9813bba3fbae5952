import VoiceCommand.Document.Toml.Scalar

/-! Strings of the TOML notation: basic ones with escapes and literal ones without, each on one line
between single marks or over several lines between triple ones. -/
namespace VoiceCommand.Document.Toml

def isPlain (c : Char) : Bool := c == '\t' || (32 ≤ c.toNat && c.toNat != 127)

def newline? : List Char → Option (List Char)
  | '\n' :: cs => some cs
  | '\r' :: '\n' :: cs => some cs
  | _ => none

def isSpace (c : Char) : Bool := c == ' ' || c == '\t'

def coded? (count : Nat) (cs : List Char) : Option (Char × List Char) := do
  let ds := cs.take count
  let n := valueOf 16 (← ds.mapM (digitOf? 16))
  if ds.length = count ∧ n.isValidChar then some (Char.ofNat n,cs.drop count) else none

def escaped? : List Char → Option (Char × List Char)
  | 'b' :: cs => some ('\x08',cs)
  | 't' :: cs => some ('\t',cs)
  | 'n' :: cs => some ('\n',cs)
  | 'f' :: cs => some ('\x0c',cs)
  | 'r' :: cs => some ('\r',cs)
  | 'e' :: cs => some ('\x1b',cs)
  | '"' :: cs => some ('"',cs)
  | '\\' :: cs => some ('\\',cs)
  | 'x' :: cs => coded? 2 cs
  | 'u' :: cs => coded? 4 cs
  | 'U' :: cs => coded? 8 cs
  | _ => none

def line? (quote : Char) (escapes : Bool) : Nat → List Char → List Char → Option (List Char × List Char)
  | 0, _, _ => none
  | _, _, [] => none
  | fuel + 1, got, c :: cs =>
    if c = quote then some (got.reverse,cs)
    else if escapes ∧ c = '\\' then do
      let (d,rest) ← escaped? cs
      line? quote escapes fuel (d :: got) rest
    else if isPlain c then line? quote escapes fuel (c :: got) cs
    else none

def endsLine (cs : List Char) : Bool := (newline? (cs.dropWhile isSpace)).isSome

def dropBlankLines : Nat → List Char → List Char
  | 0, cs => cs
  | fuel + 1, cs =>
    match newline? (cs.dropWhile isSpace) with
    | some rest => dropBlankLines fuel rest
    | none => cs.dropWhile isSpace

/-- The rest of a string over several lines. Up to two quotes can stand before the closing three. -/
def lines? (quote : Char) (escapes : Bool) : Nat → List Char → List Char → Option (List Char × List Char)
  | 0, _, _ => none
  | _, _, [] => none
  | fuel + 1, got, c :: cs =>
    if c = quote then
      let run := 1 + (cs.takeWhile (· == quote)).length
      if run < 3 then lines? quote escapes fuel (c :: got) cs
      else if run ≤ 5 then
        some (got.reverse ++ List.replicate (run - 3) quote,cs.drop (run - 1))
      else none
    else if escapes ∧ c = '\\' then
      if endsLine cs then lines? quote escapes fuel got (dropBlankLines cs.length cs)
      else do
        let (d,rest) ← escaped? cs
        lines? quote escapes fuel (d :: got) rest
    else if isPlain c ∨ (newline? (c :: cs)).isSome then lines? quote escapes fuel (c :: got) cs
    else none

def several? (quote : Char) (escapes : Bool) (cs : List Char) : Option (List Char × List Char) :=
  lines? quote escapes (cs.length + 1) [] ((newline? cs).getD cs)

def string? : List Char → Option (List Char × List Char)
  | '"' :: '"' :: '"' :: cs => several? '"' true cs
  | '\'' :: '\'' :: '\'' :: cs => several? '\'' false cs
  | '"' :: cs => line? '"' true (cs.length + 1) [] cs
  | '\'' :: cs => line? '\'' false (cs.length + 1) [] cs
  | _ => none

end VoiceCommand.Document.Toml
