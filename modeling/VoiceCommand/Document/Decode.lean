import VoiceCommand.Document.Value
import VoiceCommand.KeyMap
import VoiceCommand.Timestamp

/-! Reading values of a given shape from documents. Members are read in their order, so that the first
problem decides; unknown members are passed over. -/
namespace VoiceCommand.Document

inductive Format where
  | json
  | toml
  deriving DecidableEq, Repr

abbrev Decoder (α : Type) := Value → Except Fault α

namespace Decoder

def mismatch : Value → Fault
  | .faulty _ read _ => read
  | _ => .shape

def bool : Decoder Bool
  | .bool b => .ok b
  | v => .error (mismatch v)

def text : Decoder String
  | .text s => .ok s
  | v => .error (mismatch v)

def natural (bits : Nat) : Decoder Nat
  | .integer i => if 0 ≤ i ∧ i < twoTo bits then .ok i.toNat else .error .shape
  | v => .error (mismatch v)

def real : Decoder Binary64
  | .real x => .ok x
  | .integer i => .ok (.ofInt i)
  | v => .error (mismatch v)

def optional (d : Decoder α) : Decoder (Option α)
  | .null => .ok none
  | v => (d v).map some

def list (d : Decoder α) : Decoder (List α)
  | .list items ending => do
    let decoded ← items.mapM d
    match ending.fault? with
    | some fault => .error fault
    | none => .ok decoded
  | v => .error (mismatch v)

def entry (member : Option String × Value) : Except Fault (String × String) :=
  match member with
  | (some key,v) => (text v).map (key,·)
  | (none,_) => .error .malformed

def entities : Decoder Entities
  | .table members ending => do
    let decoded ← members.mapM entry
    match ending.fault? with
    | some fault => .error fault
    | none => .ok (.ofList decoded)
  | v => .error (mismatch v)

def timestamp : Decoder Timestamp := fun v => do
  match Timestamp.read? (← text v) with
  | some t => .ok t
  | none => .error .shape

def nothing (format : Format) : Decoder Unit
  | .null => if format = .json then .ok () else .error .shape
  | .list [] .closed => if format = .toml then .ok () else .error .shape
  | .table [] .closed => if format = .toml then .ok () else .error .shape
  | v => .error (mismatch v)

def name (format : Format) (ofName? : String → Option α) : Decoder α
  | .text s =>
    match ofName? s with
    | some a => .ok a
    | none => .error .shape
  | .table ((some key,v) :: rest) ending =>
    match ofName? key with
    | none => .error .shape
    | some a => do
      nothing format v
      if rest.isEmpty then
        match ending.overrun? with
        | some fault => .error fault
        | none => .ok a
      else .error .malformed
  | .table [] (.broken _ fault) => .error fault
  | .faulty .nothing read _ => .error read
  | .faulty .text read _ => .error read
  | _ => .error .malformed

end Decoder

/-- How a record of type `ρ` is read: what it is before any field is read, and the fields in order.
A field changes the record. -/
structure Record (ρ : Type) where
  start : ρ
  required : List String
  fields : List (String × (Value → ρ → Except Fault ρ))
  closed : Bool := false
  valid : ρ → Bool := fun _ => true

namespace Record

def field (name : String) (d : Decoder α) (set : ρ → α → ρ) :
    String × (Value → ρ → Except Fault ρ) :=
  (name,fun v r => (d v).map (set r))

def readMembers (shape : Record ρ) (record : ρ) (seen : List String) :
    List (Option String × Value) → Except Fault (ρ × List String)
  | [] => .ok (record,seen)
  | (none,_) :: _ => .error .malformed
  | (some key,v) :: rest =>
    match shape.fields.lookup key with
    | some read =>
      if seen.contains key then .error .shape
      else do
        let record ← read v record
        shape.readMembers record (key :: seen) rest
    | none =>
      if shape.closed then .error .shape
      else match v.skipped? with
        | some fault => .error fault
        | none => shape.readMembers record seen rest

/-- Reads the fields from a list, in order; where it ends the other fields must be dispensable. The
items that are left over come with the record. -/
def readItems (required : List String) (ending : Ending) (record : ρ) :
    List (String × (Value → ρ → Except Fault ρ)) → List Value → Except Fault (ρ × List Value)
  | [], items => .ok (record,items)
  | (_,read) :: fields, v :: items => do
    let record ← read v record
    readItems required ending record fields items
  | (name,_) :: fields, [] =>
    match ending.fault? with
    | some fault => .error fault
    | none =>
      if required.contains name then .error .shape
      else readItems required ending record fields []

def leftover? (format : Format) (ending : Ending) (items : List Value) : Option Fault :=
  if format = .toml then none
  else if items.isEmpty then ending.overrun?
  else some .malformed

def decode (shape : Record ρ) (format : Format) : Decoder ρ
  | .table members ending => do
    let (record,seen) ← shape.readMembers shape.start [] members
    match ending.fault? with
    | some fault => .error fault
    | none =>
      if shape.required.all seen.contains ∧ shape.valid record then .ok record else .error .shape
  | .list items ending => do
    let (record,items) ← readItems shape.required ending shape.start shape.fields items
    if !shape.valid record then .error .shape
    else match leftover? format ending items with
      | some fault => .error fault
      | none => .ok record
  | v => .error (Decoder.mismatch v)

end Record

end VoiceCommand.Document
