import VoiceCommand.Intent
import VoiceCommand.Pattern.Basic

/-! The built-in phrasings, one row of data each. Of rows that fit equally well the earlier one is
taken. -/
namespace VoiceCommand

structure PatternRow where
  intent : Intent
  pattern : Pattern
  keys : List String
  priority : Nat
  template : String
  deriving DecidableEq, Repr

namespace PatternRow
open Pattern

def remainder : Pattern := capture (many .any 1 none)

def the : Pattern := maybe (word "the" ++ blanks)

def toThe : Pattern := maybe (word "to" ++ blanks ++ the)

def perhapsWindow : Pattern := maybe (blanks ++ the ++ word "window")

def onOff : Pattern := word "turn" ++ blanks ++ words ["on","off"]

def moveWindow (direction : String) : Pattern :=
  start ++ words ["move","snap","tile"] ++ blanks ++ the ++ word "window" ++ blanks ++ toThe ++
    word direction ++ boundary

def adjust (what direction single verb : String) (others : List Pattern) : Pattern :=
  start ++ choice ([
    word what ++ blanks ++ word direction,
    word "turn" ++ blanks ++ the ++ word what ++ blanks ++ word direction] ++ others ++ [
    word single,
    word verb ++ blanks ++ the ++ word what]) ++ boundary

def turnIt (direction : String) : Pattern :=
  word "turn" ++ blanks ++ word "it" ++ blanks ++ word direction

def all : List PatternRow := [
  ⟨.openApp,start ++ words ["open","launch"] ++ blanks ++ remainder,
    [appNameKey],5,"Open \x7bappName\x7d"⟩,
  ⟨.switchToApp,start ++ choice [
      word "switch" ++ blanks ++ word "to",
      word "go" ++ blanks ++ word "to",
      word "focus" ++ maybe (blanks ++ word "on"),
      word "activate"] ++ blanks ++ remainder,
    [appNameKey],6,"Switch to \x7bappName\x7d"⟩,
  ⟨.closeApp,start ++ word "close" ++ blanks ++ remainder,
    [appNameKey],5,"Close \x7bappName\x7d"⟩,
  ⟨.quitApp,start ++ words ["quit","exit"] ++ blanks ++ remainder,
    [appNameKey],6,"Quit \x7bappName\x7d"⟩,
  ⟨.hideApp,start ++ word "hide" ++ blanks ++ remainder,
    [appNameKey],5,"Hide \x7bappName\x7d"⟩,
  ⟨.moveWindowLeft,moveWindow "left",[],7,"Move window left"⟩,
  ⟨.moveWindowRight,moveWindow "right",[],7,"Move window right"⟩,
  ⟨.maximizeWindow,
    start ++ word "maximi" ++ oneOf ['s','z'] ++ word "e" ++ perhapsWindow ++ boundary,
    [],7,"Maximize window"⟩,
  ⟨.minimizeWindow,
    start ++ word "minimi" ++ oneOf ['s','z'] ++ word "e" ++ perhapsWindow ++ boundary,
    [],7,"Minimize window"⟩,
  ⟨.centerWindow,start ++ word "cent" ++ words ["er","re"] ++ perhapsWindow ++ boundary,
    [],7,"Center window"⟩,
  ⟨.fullScreenWindow,
    start ++ maybe (words ["toggle","enter","exit"] ++ blanks) ++ word "full" ++ perhapsBlanks ++
      word "screen" ++ boundary,
    [],7,"Toggle full screen"⟩,
  ⟨.moveWindowToNextScreen,
    start ++ words ["move","send"] ++ blanks ++ the ++ word "window" ++ blanks ++ word "to" ++
      blanks ++ the ++ words ["next","other"] ++ blanks ++ words ["screen","display","monitor"] ++
      boundary,
    [],8,"Move window to next screen"⟩,
  ⟨.volumeUp,adjust "volume" "up" "louder" "increase" [turnIt "up"],[],8,"Volume up"⟩,
  ⟨.volumeDown,adjust "volume" "down" "quieter" "decrease" [turnIt "down"],[],8,"Volume down"⟩,
  ⟨.volumeMute,
    start ++ choice [
      maybe (word "un") ++ word "mute" ++
        maybe (blanks ++ the ++ words ["volume","sound","audio"]),
      word "toggle" ++ blanks ++ word "mute"] ++ boundary,
    [],8,"Toggle mute"⟩,
  ⟨.volumeSet,
    start ++ maybe (word "set" ++ blanks ++ the) ++ word "volume" ++ blanks ++
      maybe (word "to" ++ blanks) ++ capture (many .digit 1 (some 3)) ++
      maybe (perhapsBlanks ++ words ["%","percent"]),
    [levelKey],9,"Set volume to \x7blevel\x7d%"⟩,
  ⟨.brightnessUp,adjust "brightness" "up" "brighter" "increase" [],[],8,"Brightness up"⟩,
  ⟨.brightnessDown,adjust "brightness" "down" "dimmer" "decrease" [],[],8,"Brightness down"⟩,
  ⟨.toggleDarkMode,
    start ++ maybe (choice [word "toggle",word "enable",word "disable",onOff,
      word "switch" ++ blanks ++ word "to"] ++ blanks) ++ word "dark" ++ blanks ++ word "mode" ++
      boundary,
    [],7,"Toggle dark mode"⟩,
  ⟨.toggleDoNotDisturb,
    start ++ maybe (choice [word "toggle",word "enable",word "disable",onOff] ++ blanks) ++
      choice [word "do" ++ blanks ++ word "not" ++ blanks ++ word "disturb",
        word "focus" ++ blanks ++ word "mode"] ++ boundary,
    [],8,"Toggle Do Not Disturb"⟩,
  ⟨.lockScreen,
    start ++ word "lock" ++ maybe (blanks ++ the ++ words ["screen","computer","mac"]) ++ boundary,
    [],7,"Lock screen"⟩,
  ⟨.takeScreenshot,
    start ++ maybe (word "take" ++ blanks ++ maybe (word "a" ++ blanks)) ++ word "screen" ++
      perhapsBlanks ++ word "shot" ++ boundary,
    [],7,"Take screenshot"⟩,
  ⟨.runShortcut,start ++ word "run" ++ blanks ++ the ++ word "shortcut" ++ blanks ++ remainder,
    [shortcutKey],8,"Run shortcut \x7bshortcutName\x7d"⟩]

def ofIntent? (intent : Intent) : Option PatternRow := all.find? fun row => row.intent == intent

end PatternRow

end VoiceCommand
