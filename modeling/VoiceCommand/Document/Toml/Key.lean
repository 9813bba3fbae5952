import VoiceCommand.Document.Toml.Text

/-! Keys of the TOML notation, and what may stand between its parts: blanks, comments and ends of
lines. -/
namespace VoiceCommand.Document.Toml

def dropSpace (cs : List Char) : List Char := cs.dropWhile isSpace

def dropComment : List Char → List Char
  | '#' :: cs => cs.dropWhile isPlain
  | cs => cs

def dropGap : Nat → List Char → List Char
  | 0, cs => cs
  | fuel + 1, cs =>
    let rest := dropComment (dropSpace cs)
    match newline? rest with
    | some rest => dropGap fuel rest
    | none => rest

def endLine? (cs : List Char) : Option (List Char) :=
  match dropComment (dropSpace cs) with
  | [] => some []
  | rest => newline? rest

def isBare (c : Char) : Bool := c.isAlphanum || c == '_' || c == '-'

def key? : List Char → Option (String × List Char)
  | '"' :: cs => (line? '"' true (cs.length + 1) [] cs).map fun r => (String.ofList r.1,r.2)
  | '\'' :: cs => (line? '\'' false (cs.length + 1) [] cs).map fun r => (String.ofList r.1,r.2)
  | cs =>
    let key := cs.takeWhile isBare
    if key.isEmpty then none else some (String.ofList key,cs.drop key.length)

def maxPath : Nat := 80

/-- A path of at most so many keys with dots between them: those before the last, the last, and the
rest behind blanks. -/
def path? : Nat → List Char → Option (List String × String × List Char)
  | 0, _ => none
  | most + 1, cs => do
    let (key,rest) ← key? (dropSpace cs)
    match dropSpace rest with
    | '.' :: rest =>
      let (keys,last,rest) ← path? most rest
      some (key :: keys,last,rest)
    | rest => some ([],key,rest)

end VoiceCommand.Document.Toml
