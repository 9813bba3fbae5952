import VoiceCommand.Registry
import VoiceCommand.Settings

/-! The list of intents and custom commands that the program prints. -/
namespace VoiceCommand.CommandLine

def column (name : String) : String := name ++ String.ofList (List.replicate (24 - name.length) ' ')

def marker (enabled : Bool) : String := if enabled then "+" else "-"

def notes (e : Entry) : List String :=
  (if e.enabled then [] else ["disabled"]) ++ (if e.needsConfirmation then ["asks first"] else []) ++
    if e.required.isEmpty then [] else ["needs " ++ ", ".intercalate e.required]

def entryLine (e : Entry) : String :=
  let line := "  " ++ marker e.enabled ++ " " ++ column e.name ++ " " ++ e.intent.label
  if (notes e).isEmpty then line else line ++ " (" ++ "; ".intercalate (notes e) ++ ")"

def categoryLines (r : Registry) (c : Category) : List String :=
  (c.name ++ ":") :: (r.entriesIn c).map entryLine ++ [""]

def customLine (c : CustomCommand) : String :=
  "  " ++ marker c.enabled ++ " " ++ column c.name ++ " \"" ++ c.trigger ++ "\" (" ++
    toString c.steps.length ++ " steps, used " ++ toString c.useCount.toNat ++ " times)"

def categoriesOf : Option String → Except String (List Category)
  | none => .ok Category.all
  | some name =>
    match Category.parse? name with
    | some c => .ok [c]
    | none => .error ("Unknown category: " ++ name)

def listing (c : Config) (categories : List Category) : List String :=
  let registry := Registry.new.loadDisabled c.disabledIntents
  categories.flatMap (categoryLines registry) ++
    if c.customCommands.isEmpty then [] else "custom commands:" :: c.customCommands.map customLine

end VoiceCommand.CommandLine
