import VoiceCommand.Text.Blank
import VoiceCommand.Text.Case

/-! The closed set of actions that a spoken command can ask for. Each intent knows its stable name,
its label, its category, the values it needs and the intent that reverses it. -/
namespace VoiceCommand

def appNameKey : String := "appName"
def levelKey : String := "level"
def shortcutKey : String := "shortcutName"
def aliasNameKey : String := "name"
def triggerKey : String := "trigger"
def extensionKey : String := "extension"

inductive Category where
  | app
  | window
  | system
  | workflow
  deriving DecidableEq, Repr, Inhabited

namespace Category

def all : List Category := [.app,.window,.system,.workflow]

def name : Category → String
  | .app => "app"
  | .window => "window"
  | .system => "system"
  | .workflow => "workflow"

def constructorName : Category → String
  | .app => "App"
  | .window => "Window"
  | .system => "System"
  | .workflow => "Workflow"

def ofName? (s : String) : Option Category := all.find? fun c => c.name == s

def parse? (s : String) : Option Category := all.find? fun c => Text.sameName c.name (Text.trim s)

end Category

inductive Intent where
  | openApp
  | switchToApp
  | closeApp
  | quitApp
  | hideApp
  | moveWindowLeft
  | moveWindowRight
  | maximizeWindow
  | minimizeWindow
  | centerWindow
  | fullScreenWindow
  | moveWindowToNextScreen
  | volumeUp
  | volumeDown
  | volumeMute
  | volumeSet
  | brightnessUp
  | brightnessDown
  | toggleDarkMode
  | toggleDoNotDisturb
  | lockScreen
  | takeScreenshot
  | runShortcut
  | chainedCommand
  | customAlias
  deriving DecidableEq, Repr, Inhabited

namespace Intent

def all : List Intent := [
  .openApp,.switchToApp,.closeApp,.quitApp,.hideApp,.moveWindowLeft,.moveWindowRight,
  .maximizeWindow,.minimizeWindow,.centerWindow,.fullScreenWindow,.moveWindowToNextScreen,
  .volumeUp,.volumeDown,.volumeMute,.volumeSet,.brightnessUp,.brightnessDown,.toggleDarkMode,
  .toggleDoNotDisturb,.lockScreen,.takeScreenshot,.runShortcut,.chainedCommand,.customAlias]

def name : Intent → String
  | .openApp => "openApp"
  | .switchToApp => "switchToApp"
  | .closeApp => "closeApp"
  | .quitApp => "quitApp"
  | .hideApp => "hideApp"
  | .moveWindowLeft => "moveWindowLeft"
  | .moveWindowRight => "moveWindowRight"
  | .maximizeWindow => "maximizeWindow"
  | .minimizeWindow => "minimizeWindow"
  | .centerWindow => "centerWindow"
  | .fullScreenWindow => "fullScreenWindow"
  | .moveWindowToNextScreen => "moveWindowToNextScreen"
  | .volumeUp => "volumeUp"
  | .volumeDown => "volumeDown"
  | .volumeMute => "volumeMute"
  | .volumeSet => "volumeSet"
  | .brightnessUp => "brightnessUp"
  | .brightnessDown => "brightnessDown"
  | .toggleDarkMode => "toggleDarkMode"
  | .toggleDoNotDisturb => "toggleDoNotDisturb"
  | .lockScreen => "lockScreen"
  | .takeScreenshot => "takeScreenshot"
  | .runShortcut => "runShortcut"
  | .chainedCommand => "chainedCommand"
  | .customAlias => "customAlias"

def label : Intent → String
  | .openApp => "Open App"
  | .switchToApp => "Switch to App"
  | .closeApp => "Close App"
  | .quitApp => "Quit App"
  | .hideApp => "Hide App"
  | .moveWindowLeft => "Move Window Left"
  | .moveWindowRight => "Move Window Right"
  | .maximizeWindow => "Maximize Window"
  | .minimizeWindow => "Minimize Window"
  | .centerWindow => "Center Window"
  | .fullScreenWindow => "Toggle Full Screen"
  | .moveWindowToNextScreen => "Move Window to Next Screen"
  | .volumeUp => "Volume Up"
  | .volumeDown => "Volume Down"
  | .volumeMute => "Toggle Mute"
  | .volumeSet => "Set Volume"
  | .brightnessUp => "Brightness Up"
  | .brightnessDown => "Brightness Down"
  | .toggleDarkMode => "Toggle Dark Mode"
  | .toggleDoNotDisturb => "Toggle Do Not Disturb"
  | .lockScreen => "Lock Screen"
  | .takeScreenshot => "Take Screenshot"
  | .runShortcut => "Run Shortcut"
  | .chainedCommand => "Chained Command"
  | .customAlias => "Custom Command"

def category : Intent → Category
  | .openApp | .switchToApp | .closeApp | .quitApp | .hideApp => .app
  | .moveWindowLeft | .moveWindowRight | .maximizeWindow | .minimizeWindow | .centerWindow
  | .fullScreenWindow | .moveWindowToNextScreen => .window
  | .volumeUp | .volumeDown | .volumeMute | .volumeSet | .brightnessUp | .brightnessDown
  | .toggleDarkMode | .toggleDoNotDisturb | .lockScreen | .takeScreenshot => .system
  | .runShortcut | .chainedCommand | .customAlias => .workflow

def required : Intent → List String
  | .openApp | .switchToApp | .closeApp | .quitApp | .hideApp => [appNameKey]
  | .volumeSet => [levelKey]
  | .runShortcut => [shortcutKey]
  | _ => []

def optional : Intent → List String
  | .customAlias => [aliasNameKey,triggerKey,extensionKey]
  | _ => []

def needsConfirmation : Intent → Bool
  | .quitApp | .lockScreen => true
  | _ => false

def inverse? : Intent → Option Intent
  | .openApp => some .closeApp
  | .hideApp => some .switchToApp
  | .moveWindowLeft => some .moveWindowRight
  | .moveWindowRight => some .moveWindowLeft
  | .volumeUp => some .volumeDown
  | .volumeDown => some .volumeUp
  | .brightnessUp => some .brightnessDown
  | .brightnessDown => some .brightnessUp
  | .volumeMute => some .volumeMute
  | .toggleDarkMode => some .toggleDarkMode
  | .toggleDoNotDisturb => some .toggleDoNotDisturb
  | .fullScreenWindow => some .fullScreenWindow
  | _ => none

def ofName? (s : String) : Option Intent := all.find? fun i => i.name == s

/-- Reads a name without regard to surrounding blanks and ASCII case. -/
def parse? (s : String) : Option Intent := all.find? fun i => Text.sameName i.name (Text.trim s)

def constructorName (i : Intent) : String :=
  match i.name.toList with
  | c :: cs => String.ofList (c.toUpper :: cs)
  | [] => ""

def ordinal (i : Intent) : Nat := all.idxOf i

theorem mem_all (i : Intent) : i ∈ all := by cases i <;> decide

end Intent

end VoiceCommand
