import VoiceCommand.Collaborators
import VoiceCommand.CustomCommand
import VoiceCommand.Text.Hidden

/-! The catalogue of what can be executed: one built-in entry for each intent, and extensions under
names of their own. Only the flag and the handler of a built-in entry can change; the rest is the
intent's own. -/
namespace VoiceCommand

structure Entry where
  intent : Intent
  name : String
  isBuiltIn : Bool
  enabled : Bool
  category : Category
  required : List String
  optional : List String
  needsConfirmation : Bool
  handler : Option Handler

structure BuiltIn where
  enabled : Bool
  handler : Option Handler

namespace BuiltIn

def entry (b : BuiltIn) (intent : Intent) : Entry :=
  ⟨intent,intent.name,true,b.enabled,intent.category,intent.required,intent.optional,
    intent.needsConfirmation,b.handler⟩

end BuiltIn

namespace Entry

def extension (name : String) (category : Category) (handler : Handler) : Entry :=
  ⟨.customAlias,name,false,true,category,[],[],false,some handler⟩

def quoted (s : String) : String :=
  let escape (c : Char) : List Char :=
    if c = '"' then ['\\','"'] else if c = '\\' then ['\\','\\']
    else if c = '\n' then ['\\','n'] else if c = '\r' then ['\\','r']
    else if c = '\t' then ['\\','t'] else if c = '\x00' then ['\\','0']
    else if Text.isHidden c then
      ['\\','u','\x7b'] ++ Nat.toDigits 16 c.toNat ++ ['\x7d']
    else [c]
  String.ofList ('"' :: s.toList.flatMap escape ++ ['"'])

def describe (e : Entry) : String :=
  let list (keys : List String) := "[" ++ ", ".intercalate (keys.map quoted) ++ "]"
  let fields := [
    ("intent",e.intent.constructorName),("name",quoted e.name),
    ("built_in",toString e.isBuiltIn),("enabled",toString e.enabled),
    ("category",e.category.constructorName),("required_entities",list e.required),
    ("optional_entities",list e.optional),
    ("requires_confirmation",toString e.needsConfirmation),
    ("has_handler",toString e.handler.isSome)]
  "CommandRegistryEntry \x7b " ++ ", ".intercalate (fields.map fun f => f.1 ++ ": " ++ f.2) ++ " \x7d"

end Entry

structure Registry where
  builtIn : Intent → BuiltIn
  extensions : KeyMap Entry

namespace Registry

def new : Registry := ⟨fun _ => ⟨true,none⟩,.empty⟩

def extensionName (name : String) : String := Text.lower (Text.trim name)

def entry (r : Registry) (intent : Intent) : Entry := (r.builtIn intent).entry intent

def extension? (r : Registry) (name : String) : Option Entry := r.extensions.get? (extensionName name)

def entryFor? (r : Registry) (c : Command) : Option Entry :=
  match c.extension? with
  | some name => r.extension? name
  | none => some (r.entry c.intent)

def isEnabled (r : Registry) (intent : Intent) : Bool := (r.builtIn intent).enabled

def modify (r : Registry) (intent : Intent) (f : BuiltIn → BuiltIn) : Registry :=
  { r with builtIn := fun i => if i = intent then f (r.builtIn i) else r.builtIn i }

def setHandler (r : Registry) (intent : Intent) (handler : Handler) : Registry :=
  r.modify intent fun b => { b with handler := some handler }

def setEnabled (r : Registry) (intent : Intent) (enabled : Bool) : Registry :=
  r.modify intent fun b => { b with enabled := enabled }

/-- Adds an extension, unless its name is blank, that of an intent, or taken. The entry is filed under
the intent of custom commands, whatever it says itself. -/
def register (r : Registry) (e : Entry) : Option Registry :=
  let key := extensionName e.name
  if key.isEmpty || (Intent.parse? key).isSome || (r.extensions.get? key).isSome then none
  else
    some { r with
      extensions := r.extensions.insert key { e with intent := .customAlias, isBuiltIn := false } }

def hasExtension (r : Registry) (name : String) : Bool := (r.extension? name).isSome

def setExtensionEnabled (r : Registry) (name : String) (enabled : Bool) : Registry :=
  match r.extension? name with
  | some e =>
    { r with extensions := r.extensions.insert (extensionName name) { e with enabled := enabled } }
  | none => r

def entries (r : Registry) : List Entry := Intent.all.map r.entry ++ r.extensions.values

def entriesIn (r : Registry) (category : Category) : List Entry :=
  r.entries.filter fun e => e.category == category

def size (_ : Registry) : Nat := Intent.all.length

def sortNames (names : List String) : List String := names.mergeSort fun a b => a ≤ b

def disabledNames (r : Registry) : List String :=
  sortNames ((Intent.all.filter fun i => !r.isEnabled i).map Intent.name)

/-- Disables the intents that the list names and enables all others; unknown names are passed over. -/
def loadDisabled (r : Registry) (names : List String) : Registry :=
  let disabled := names.filterMap Intent.parse?
  { r with builtIn := fun i => { r.builtIn i with enabled := !disabled.contains i } }

def extensionNames (r : Registry) : List String :=
  (r.entries.filter fun e => !e.isBuiltIn).map (·.name)

end Registry

end VoiceCommand
