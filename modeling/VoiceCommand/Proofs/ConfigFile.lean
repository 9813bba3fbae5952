import VoiceCommand.ConfigFile
import VoiceCommand.Files.Disk

/-! Reading a configuration. What comes of it depends on what is in the place of the file alone, and of a text that was
written on its characters. -/
namespace VoiceCommand

namespace Document.Toml

/-- The table that characters stand for. -/
def table? (cs : List Char) : Option Value := do
  let cs := match cs with
    | '\uFEFF' :: cs => cs
    | cs => cs
  let root ← build? [] [] (← statements? (2 * cs.length + 2) cs)
  some root.toValue

theorem readWritten (sections : List Section) : read? (write sections) = table? (sections.flatMap Section.write) := by
  unfold read? write
  rw [String.toList_ofList]
  rfl

end Document.Toml

namespace Config
open Document

theorem ofTextWritten (c : Config) : ofText? c.text =
    (Toml.table? ((configSections c).flatMap Toml.Section.write)).bind fun v =>
      (config .toml v).toOption := by
  unfold ofText? text Toml.decode
  rw [Toml.readWritten]
  cases Toml.table? ((configSections c).flatMap Toml.Section.write) <;> rfl

/-- What is made of a file that was read. -/
def understood (path : String) : Option String → Except String Config
  | none => .error ("Failed to read config file: " ++ path)
  | some text =>
    match ofText? text with
    | some c => .ok c
    | none => .error ("Failed to parse config file: " ++ path)

theorem readProgram (path : String) :
    (ofFile path).run = .step (.read path) fun text => .done (understood path text) := by
  refine congrArg (Program.step _) (funext fun (text : Option String) => ?_)
  cases text with
  | none => rfl
  | some text =>
    change ExceptT.run (match ofText? text with
      | some c => return c
      | none => FileTask.fail ("Failed to parse config file: " ++ path)) = .done (understood path (some text))
    simp only [understood]
    cases ofText? text <;> rfl

theorem loadedRun (path : String) (d : Disk) : ((ofFileOrDefault path).run.run d).1 =
    match d.node? path with
    | none => .ok {}
    | some (.file text) => understood path text
    | some .folder => understood path none := by
  have looked : ((ofFileOrDefault path).run.run d).1 =
      if (d.node? path).isSome then ((ofFile path).run.run d).1 else .ok {} := by
    change (Program.run (ExceptT.run (if (d.node? path).isSome then ofFile path else return {})) d).1 = _
    split <;> rfl
  have read : ((ofFile path).run.run d).1 = understood path (d.text? path) := by
    rw [readProgram]
    rfl
  rw [looked,read,Disk.text?]
  rcases d.node? path with _ | _ | text <;> rfl

/-- The configuration that holds for a path: that of its file, or the default where there is nothing. -/
inductive InForce (d : Disk) (path : String) : Config → Prop
  | default (absent : d.node? path = none) : InForce d path {}
  | written {text c} (held : d.node? path = some (.file (some text))) (parsed : ofText? text = some c) :
      InForce d path c

theorem loadedInForce {path : String} {d : Disk} {c : Config} :
    ((ofFileOrDefault path).run.run d).1 = .ok c ↔ InForce d path c := by
  rw [loadedRun]
  constructor
  · intro loads
    rcases held : d.node? path with _ | _ | _ | text
    · rw [held] at loads
      exact Except.ok.inj loads ▸ .default held
    · rw [held] at loads
      cases loads
    · rw [held] at loads
      cases loads
    · simp only [held,understood] at loads
      cases parsed : ofText? text with
      | none => simp [parsed] at loads
      | some current =>
        rw [parsed] at loads
        exact Except.ok.inj loads ▸ .written held parsed
  · rintro (absent | ⟨held,parsed⟩)
    · rw [absent]
    · simp only [held,understood,parsed]

theorem loadedText {path text : String} {d : Disk} {c : Config} (node : d.node? path = some (.file (some text)))
    (parsed : ofText? text = some c) : ((ofFileOrDefault path).run.run d).1 = .ok c := by
  rw [loadedRun,node]
  simp only [understood,parsed]

end Config

end VoiceCommand
