import VoiceCommand.Document.ConfigText
import VoiceCommand.Files.Path
import VoiceCommand.Files.Program

/-! Configurations in files. A file is replaced as a whole: the new text goes into a second file, which
then takes the place of the first, under a lock that writers share. -/
namespace VoiceCommand
open FileTask (perform require fail)

namespace Config

def defaultPath (home : String) : String := Path.join (Path.join home ".vaultype") "config.toml"

def ofFile (path : String) : FileTask Config := do
  match ← perform (.read path) with
  | none => fail ("Failed to read config file: " ++ path)
  | some text =>
    match ofText? text with
    | some c => return c
    | none => fail ("Failed to parse config file: " ++ path)

def ofFileOrDefault (path : String) : FileTask Config := do
  if ← perform (.present path) then ofFile path else return {}

def lockPath (path : String) : String := Path.withExtension path "toml.lock"

def draftPath (path : String) : String := Path.withExtension path "toml.tmp"

def replaceText (path text : String) : FileTask Unit := do
  let draft := draftPath path
  require (← perform (.create draft)) ("Failed to create temp file: " ++ draft)
  require (← perform (.write draft text)) "Failed to write config content"
  require (← perform (.sync draft)) "Failed to sync config file"
  require (← perform (.rename draft path)) ("Failed to replace config file: " ++ path)

/-- Runs a task under a lock, and gives the lock back however the task ends. -/
def locked (path : String) (task : FileTask α) : FileTask α := do
  require (← perform (.lock path)) "Failed to acquire config lock"
  let result ← ExceptT.lift task.run
  let _ ← perform (.unlock path)
  ExceptT.mk (pure result)

-- There is no message for a configuration that has no text: every one has.
def save (c : Config) (path : String) : FileTask Unit := do
  if let some folder := Path.parent? path then
    if folder ≠ "" then
      require (← perform (.makeFolders folder)) ("Failed to create config directory: " ++ folder)
  require (← perform (.create (lockPath path))) ("Failed to create lock file: " ++ lockPath path)
  locked (lockPath path) (replaceText path c.text)

def saveDisabled (path : String) (names : List String) : FileTask Unit := do
  let c ← ofFileOrDefault path
  save { c with disabledIntents := names } path

end Config

end VoiceCommand
