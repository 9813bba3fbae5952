import VoiceCommand.Intent
import VoiceCommand.KeyMap
import VoiceCommand.Text.Case
import VoiceCommand.Timestamp

/-! The user's own commands: a trigger phrase and the steps that it runs. A store is the list of
them; it is searched from the front, so of two commands with one name or trigger the earlier one
counts. -/
namespace VoiceCommand

structure Step where
  intent : Intent
  parameters : Entities
  deriving DecidableEq, Repr

structure CustomCommand where
  name : String
  trigger : String
  steps : List Step
  enabled : Bool
  useCount : UInt64
  lastUsedAt : Option Timestamp
  deriving DecidableEq, Repr

namespace CustomCommand

def new (name trigger : String) : CustomCommand := ⟨name,trigger,[],true,0,none⟩

/-- Whether the text is the trigger phrase, up to case and surrounding blanks. A blank trigger
matches nothing. -/
def isTriggeredBy (c : CustomCommand) (text : String) : Bool :=
  !Text.allBlank c.trigger && Text.lower (Text.trim c.trigger) == Text.lower (Text.trim text)

def recordUse (c : CustomCommand) (time : Timestamp) : CustomCommand :=
  { c with useCount := c.useCount + 1, lastUsedAt := some time }

end CustomCommand

abbrev Store := List CustomCommand

namespace Store

def modifyFirst (p : CustomCommand → Bool) (f : CustomCommand → CustomCommand) : Store → Store
  | [] => []
  | c :: cs => if p c then f c :: cs else c :: modifyFirst p f cs

/-- Notes a use of the first command of exactly this name. -/
def recordUse (store : Store) (name : String) (time : Timestamp) : Store :=
  store.modifyFirst (·.name == name) (·.recordUse time)

def hasName (store : Store) (name : String) : Bool := store.any fun c => Text.sameName c.name name

def setEnabled (store : Store) (name : String) (enabled : Bool) : Store :=
  store.modifyFirst (fun c => Text.sameName c.name name) fun c => { c with enabled := enabled }

def triggered? (store : Store) (text : String) : Option CustomCommand :=
  store.find? fun c => c.enabled && c.isTriggeredBy text

end Store

end VoiceCommand
