import VoiceCommand.Document.Toml.Key
import VoiceCommand.Document.Toml.Tree

/-! Reading the TOML notation. A text is a list of statements: headers, which choose a table, and keys
that get values in it. -/
namespace VoiceCommand.Document.Toml

inductive Statement where
  | header (path : List String) (key : String)
  | item (path : List String) (key : String)
  | assign (path : List String) (key : String) (v : Value)

def valueLevels : Nat := 80

def isScalar (c : Char) : Bool :=
  !(isSpace c || c == ',' || c == '=' || c == '[' || c == ']' || c == '\x7b' || c == '\x7d' ||
    c == '#' || c == '\n' || c == '\r')

/-- The characters of a scalar and the rest. One blank may stand between a date and a time. -/
def scalarText (cs : List Char) : List Char × List Char :=
  let first := cs.takeWhile isScalar
  match cs.drop first.length with
  | ' ' :: d :: rest =>
    if (Moment.date? first).any (·.2.isEmpty) && d.isDigit then
      let second := (d :: rest).takeWhile isScalar
      (first ++ ' ' :: second,(d :: rest).drop second.length)
    else (first,' ' :: d :: rest)
  | rest => (first,rest)

def inlineTable? (bindings : List (List String × String × Value)) : Option Value :=
  (bindings.foldlM (fun members (path,key,v) => Members.set path key v members) []).map
    Members.toValue

mutual

def value? (levels : Nat) : Nat → List Char → Option (Value × List Char)
  | 0, _ => none
  | fuel + 1, '[' :: cs =>
    match levels with
    | 0 => none
    | levels + 1 => do
      let (items,rest) ← items? levels fuel cs
      some (.list items .closed,rest)
  | fuel + 1, '\x7b' :: cs =>
    match levels with
    | 0 => none
    | levels + 1 => do
      let (bindings,rest) ← bindings? levels fuel cs
      some (← inlineTable? bindings,rest)
  | _ + 1, cs =>
    match string? cs with
    | some (s,rest) => some (.text (String.ofList s),rest)
    | none => do
      let (scalar,rest) := scalarText cs
      some (← scalar? scalar,rest)

def items? (levels : Nat) : Nat → List Char → Option (List Value × List Char)
  | 0, _ => none
  | fuel + 1, cs =>
    match dropGap cs.length cs with
    | ']' :: rest => some ([],rest)
    | cs => do
      let (v,rest) ← value? levels fuel cs
      match dropGap rest.length rest with
      | ',' :: rest =>
        let (vs,rest) ← items? levels fuel rest
        some (v :: vs,rest)
      | ']' :: rest => some ([v],rest)
      | _ => none

def bindings? (levels : Nat) : Nat → List Char → Option (List (List String × String × Value) × List Char)
  | 0, _ => none
  | fuel + 1, cs =>
    match dropGap cs.length cs with
    | '\x7d' :: rest => some ([],rest)
    | cs => do
      let (path,key,rest) ← path? maxPath cs
      match dropGap rest.length rest with
      | '=' :: rest =>
        let (v,rest) ← value? levels fuel (dropGap rest.length rest)
        match dropGap rest.length rest with
        | ',' :: rest =>
          let (bs,rest) ← bindings? levels fuel rest
          some ((path,key,v) :: bs,rest)
        | '\x7d' :: rest => some ([(path,key,v)],rest)
        | _ => none
      | _ => none

end

def statement? (fuel : Nat) : List Char → Option (Option Statement × List Char)
  | '[' :: '[' :: cs => do
    let (path,key,rest) ← path? maxPath cs
    match rest with
    | ']' :: ']' :: rest => some (some (.item path key),rest)
    | _ => none
  | '[' :: cs => do
    let (path,key,rest) ← path? maxPath cs
    match rest with
    | ']' :: rest => some (some (.header path key),rest)
    | _ => none
  | cs =>
    if (endLine? cs).isSome then some (none,cs)
    else do
      let (path,key,rest) ← path? maxPath cs
      match rest with
      | '=' :: rest =>
        let (v,rest) ← value? valueLevels fuel (dropSpace rest)
        some (some (.assign path key v),rest)
      | _ => none

def statements? : Nat → List Char → Option (List Statement)
  | 0, _ => none
  | _, [] => some []
  | fuel + 1, cs => do
    let (statement,rest) ← statement? (fuel + 1) (dropSpace cs)
    let statements ← statements? fuel (← endLine? rest)
    some (statement.toList ++ statements)

def build? (header : List String) (root : Members) : List Statement → Option Members
  | [] => some root
  | .header path key :: rest => do
    let root ← Members.descend false (fun _ members => members.openTable key) path .header root
    build? (path ++ [key]) root rest
  | .item path key :: rest => do
    let root ← Members.descend false (fun _ members => members.addTable key) path .header root
    build? (path ++ [key]) root rest
  | .assign path key v :: rest => do build? header (← root.setBelow header path key v) rest

def read? (s : String) : Option Value := do
  let cs := match s.toList with
    | '\uFEFF' :: cs => cs
    | cs => cs
  let root ← build? [] [] (← statements? (2 * cs.length + 2) cs)
  some root.toValue

def decode (d : Value → Except Fault α) (s : String) : Except Fault α :=
  match read? s with
  | some v => d v
  | none => .error .malformed

end VoiceCommand.Document.Toml
