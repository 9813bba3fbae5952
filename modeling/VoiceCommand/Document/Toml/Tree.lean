import VoiceCommand.Document.Value

/-! The tree of tables that the statements of a TOML text build up. Every table is defined in one
place only: under a header, or by the dotted keys of one other table. -/
namespace VoiceCommand.Document.Toml

inductive Origin where
  | header
  | implied
  | dotted
  deriving DecidableEq, Repr

inductive Node where
  | value (v : Value)
  | table (origin : Origin) (members : List (String × Node))
  | tables (earlier : List (List (String × Node))) (last : List (String × Node))

abbrev Members := List (String × Node)

namespace Node

mutual

def toValue : Node → Value
  | value v => v
  | table _ members => .table (toMembers members) .closed
  | tables earlier last => .list (toTables earlier ++ [.table (toMembers last) .closed]) .closed

def toMembers : List (String × Node) → List (Option String × Value)
  | [] => []
  | (key,node) :: ms => (some key,node.toValue) :: toMembers ms

def toTables : List (List (String × Node)) → List Value
  | [] => []
  | ms :: rest => .table (toMembers ms) .closed :: toTables rest

end

end Node

namespace Members

def toValue (members : Members) : Value := .table (Node.toMembers members) .closed

def put (key : String) (node : Node) : Members → Members
  | [] => [(key,node)]
  | (k,n) :: rest => if k = key then (k,node) :: rest else (k,n) :: put key node rest

/-- Changes the table at the end of a path, for several tables of one name in the last of them. Tables
that are missing come to be on the way. A path of dotted keys does not lead into a table that has a
header of its own name. -/
def descend (dotted : Bool) (change : Origin → Members → Option Members) :
    List String → Origin → Members → Option Members
  | [], origin, members => change origin members
  | key :: path, _, members =>
    match members.lookup key with
    | none => do
      let origin := if dotted then Origin.dotted else .implied
      some (members.put key (.table origin (← descend dotted change path origin [])))
    | some (.table origin inner) =>
      if dotted ∧ origin = .header then none
      else do some (members.put key (.table origin (← descend dotted change path origin inner)))
    | some (.tables earlier last) => do
      some (members.put key (.tables earlier (← descend dotted change path .header last)))
    | some (.value _) => none

/-- Gives a new key a value. A table of dotted keys takes keys from its own dotted paths alone, and
those paths end in no other table. -/
def insertNew (path : List String) (key : String) (v : Value) (origin : Origin) (members : Members) :
    Option Members :=
  if (origin == .dotted) == path.isEmpty then none
  else if (members.lookup key).isSome then none
  else some (members.put key (.value v))

def set (path : List String) (key : String) (v : Value) (members : Members) : Option Members :=
  descend true (insertNew path key v) path .header members

def setBelow (header path : List String) (key : String) (v : Value) (members : Members) :
    Option Members :=
  descend false (fun _ inner => inner.set path key v) header .header members

def openTable (key : String) (members : Members) : Option Members :=
  match members.lookup key with
  | none => some (members.put key (.table .header []))
  | some (.table .implied inner) => some (members.put key (.table .header inner))
  | some _ => none

def addTable (key : String) (members : Members) : Option Members :=
  match members.lookup key with
  | none => some (members.put key (.tables [] []))
  | some (.tables earlier last) => some (members.put key (.tables (earlier ++ [last]) []))
  | some _ => none

end Members

end VoiceCommand.Document.Toml
