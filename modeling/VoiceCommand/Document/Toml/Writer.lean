import VoiceCommand.Binary64.Decimal
import VoiceCommand.Document.Toml.Key

/-! Writing the TOML notation: tables one after another, each under its header, with the values of
their keys on lines of their own. A text is written in the plainest of the forms that can hold it. -/
namespace VoiceCommand.Document.Toml

inductive Entry where
  | flag (b : Bool)
  | whole (n : Nat)
  | real (x : Binary64)
  | text (s : String)
  | texts (list : List String)
  deriving DecidableEq, Repr

inductive Header where
  | root
  | table (path : List String)
  | item (path : List String)
  deriving DecidableEq, Repr

structure Section where
  header : Header
  entries : List (String × Entry)
  deriving DecidableEq, Repr

def isControl (c : Char) : Bool := (c.toNat < 32 && c != '\t') || c.toNat == 127

def longestRun (q : Char) (longest current : Nat) : List Char → Nat
  | [] => max longest current
  | c :: cs =>
    if c = q then longestRun q longest (current + 1) cs
    else longestRun q (max longest current) 0 cs

def hex4Text (n : Nat) : List Char :=
  let ds := (Nat.toDigits 16 n).map Char.toUpper
  List.replicate (4 - ds.length) '0' ++ ds

def escape (multiline : Bool) (c : Char) : List Char :=
  if c = '\x08' then ['\\','b'] else if c = '\t' then ['\\','t']
  else if c = '\n' then (if multiline then ['\n'] else ['\\','n'])
  else if c = '\x0c' then ['\\','f'] else if c = '\r' then ['\\','r']
  else if c = '\\' then ['\\','\\']
  else if isControl c then '\\' :: 'u' :: hex4Text c.toNat
  else [c]

/-- The inside of a string with escapes; `quotes` marks have just been written. No mark is written
bare on a single line, nor a third one in a row on several. -/
def escapedFrom (multiline : Bool) (quotes : Nat) : List Char → List Char
  | [] => []
  | c :: cs =>
    if c = '"' then
      if multiline ∧ quotes < 2 then '"' :: escapedFrom multiline (quotes + 1) cs
      else '\\' :: '"' :: escapedFrom multiline 0 cs
    else escape multiline c ++ escapedFrom multiline 0 cs

def basic (cs : List Char) : List Char := '"' :: escapedFrom false 0 cs ++ ['"']

def literal (cs : List Char) : List Char := '\'' :: cs ++ ['\'']

/-- A text of several lines begins on a line of its own. -/
def opening (cs : List Char) : List Char := if cs.contains '\n' then ['\n'] else []

def basicLines (cs : List Char) : List Char :=
  ['"','"','"'] ++ opening cs ++ escapedFrom true 0 cs ++ ['"','"','"']

def literalLines (cs : List Char) : List Char :=
  ['\'','\'','\''] ++ opening cs ++ cs ++ ['\'','\'','\'']

def textLiteral (s : String) : List Char :=
  let cs := s.toList
  let lines := cs.contains '\n'
  let bare := !cs.any fun c => isControl c && c != '\n'
  let double := longestRun '"' 0 0 cs
  let single := longestRun '\'' 0 0 cs
  let straight := bare && !cs.contains '\\'
  if straight && double = 0 && !lines then basic cs
  else if bare && single = 0 && !lines then literal cs
  else if straight && double ≤ 2 then basicLines cs
  else if bare && single ≤ 2 then literalLines cs
  else if lines then basicLines cs
  else basic cs

def keyText (key : String) : List Char :=
  let cs := key.toList
  let bare := !cs.any isControl
  if !cs.isEmpty && cs.all isBare then cs
  else if bare && !cs.contains '\\' && !cs.contains '"' then basic cs
  else if bare && !cs.contains '\'' then literal cs
  else basic cs

def pathText (path : List String) : List Char := ['.'].intercalate (path.map keyText)

def realText : Binary64 → List Char
  | .nan => ['n','a','n']
  | .number negative m =>
    (if negative then ['-'] else []) ++
      if m = Binary64.infinity then ['i','n','f']
      else
        let digits := (Decimal.shortest m).plain
        if digits.contains '.' then digits else digits ++ ['.','0']

def listText : List String → List Char
  | [] => ['[',']']
  | [s] => '[' :: textLiteral s ++ [']']
  | list => '[' :: '\n' :: list.flatMap (fun s => "    ".toList ++ textLiteral s ++ [',','\n']) ++ [']']

def Entry.write : Entry → List Char
  | flag b => (toString b).toList
  | whole n => Nat.toDigits 10 n
  | real x => realText x
  | text s => textLiteral s
  | texts list => listText list

def Header.write : Header → List Char
  | root => []
  | table path => '\n' :: '[' :: pathText path ++ [']','\n']
  | item path => '\n' :: '[' :: '[' :: pathText path ++ [']',']','\n']

def Section.write (s : Section) : List Char :=
  s.header.write ++ s.entries.flatMap fun (key,entry) =>
    keyText key ++ ' ' :: '=' :: ' ' :: entry.write ++ ['\n']

def write (sections : List Section) : String := String.ofList (sections.flatMap Section.write)

end VoiceCommand.Document.Toml
