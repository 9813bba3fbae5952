/-! The commands of the program, and the texts that explain them. -/
namespace VoiceCommand.CommandLine

def programName : String := "vaultype"

def programVersion : String := "0.3.2"

inductive Verb where
  | parse
  | listen
  | intents
  | enable
  | disable
  | init
  deriving DecidableEq, Repr

namespace Verb

def all : List Verb := [.parse,.listen,.intents,.enable,.disable,.init]

def name : Verb → String
  | parse => "parse"
  | listen => "listen"
  | intents => "intents"
  | enable => "enable"
  | disable => "disable"
  | init => "init"

def ofName? (s : String) : Option Verb := all.find? fun verb => verb.name == s

def about : Verb → String
  | parse => "Parse text into command(s) and print them as JSON"
  | listen => "Read transcript lines from stdin and run them in a dry-run session"
  | intents => "List known intents and whether they are enabled"
  | enable => "Enable a disabled intent"
  | disable => "Disable an intent so it is never executed"
  | init => "Write a default ~/.vaultype/config.toml"

def argument? : Verb → Option (String × String)
  | parse => some ("<TEXT>...","The command text, e.g. \"open Safari and then mute\"")
  | enable | disable => some ("<INTENT>","Intent name, e.g. lockScreen")
  | _ => none

end Verb

inductive Topic where
  | overview
  | help
  | verb (v : Verb)
  deriving DecidableEq, Repr

def Topic.ofVerb : Option Verb → Topic
  | none => .overview
  | some v => .verb v

def configHelp : String × String :=
  ("-c, --config <CONFIG>","Path to the config file (defaults to ~/.vaultype/config.toml)")

def verboseHelp : String × String := ("-v, --verbose","Enable verbose logging")

def helpHelp : String × String := ("-h, --help","Print help")

def helpAbout : String := "Print this message or the help of the given subcommand(s)"

def optionHelp : Option Verb → List (String × String)
  | none => [configHelp,verboseHelp,helpHelp,("-V, --version","Print version")]
  | some .listen =>
    [("    --assume-yes","Answer yes to every confirmation prompt"),configHelp,verboseHelp,helpHelp]
  | some .intents =>
    [configHelp,("    --category <CATEGORY>","Only show one category (app, window, system, workflow)"),
      verboseHelp,helpHelp]
  | some .init => [configHelp,("    --force","Overwrite existing config file"),verboseHelp,helpHelp]
  | some _ => [configHelp,verboseHelp,helpHelp]

def table (heading : String) (rows : List (String × String)) : List String :=
  let width := (rows.map fun r => r.1.length).foldl max 0
  "" :: heading :: rows.map fun r =>
    "  " ++ r.1 ++ String.ofList (List.replicate (width - r.1.length) ' ') ++ "  " ++ r.2

def usage (parts : List String) : String := " ".intercalate ("Usage:" :: programName :: parts)

def Topic.lines : Topic → List String
  | overview =>
    ["Voice command mode - say the wake phrase, then a command","",usage ["[OPTIONS]","[COMMAND]"]] ++
      table "Commands:" (Verb.all.map (fun v => (v.name,v.about)) ++ [("help",helpAbout)]) ++
      table "Options:" (optionHelp none)
  | help =>
    [helpAbout,"",usage ["help","[COMMAND]..."]] ++
      table "Arguments:" [("[COMMAND]...","Print help for the subcommand(s)")]
  | verb v =>
    let argument := v.argument?.toList
    [v.about,"",usage ([v.name,"[OPTIONS]"] ++ argument.map (·.1))] ++
      (if argument.isEmpty then [] else table "Arguments:" argument) ++
      table "Options:" (optionHelp (some v))

end VoiceCommand.CommandLine
