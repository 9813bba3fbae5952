import VoiceCommand.Files.Path
import VoiceCommand.Files.Program

/-! The configuration file that a new user gets. Everything in it is the default, with comments that
explain it. -/
namespace VoiceCommand.CommandLine
open FileTask (perform require fail)

def ruler : String := "# ============================================================================"

def starterLines : List String := [
  "# Vaultype Configuration",
  "# =======================",
  "#",
  "# Say the wake phrase, then a command: \"hey type, open Safari and then mute\".",
  "",
  "# Intents that are never executed (see `vaultype intents`)",
  "disabled_intents = []",
  "",
  ruler,
  "# WAKE WORD",
  ruler,
  "#",
  "#   phrase          - Phrase that starts command mode",
  "#   case_sensitive  - Match the phrase case-sensitively (default: false)",
  "#   fuzzy_threshold - Minimum similarity (0.0-1.0) for near misses like \"hey tipe\"",
  "#   cooldown_ms     - Ignore repeated wake words within this window",
  "",
  "[wake_word]",
  "phrase = \"hey type\"",
  "case_sensitive = false",
  "fuzzy_threshold = 0.8",
  "cooldown_ms = 2000",
  "",
  ruler,
  "# COMMAND MODE",
  ruler,
  "",
  "[command_mode]",
  "# Seconds to wait for a command after the wake word",
  "listening_timeout_secs = 10",
  "# How long the result stays visible (ms)",
  "result_display_ms = 1500",
  "# Pause between chained commands (ms)",
  "chain_step_delay_ms = 300",
  "# Give up on a command or chain after this many seconds",
  "execution_timeout_secs = 30",
  "# Split \"X and then Y\" into two commands",
  "chaining_enabled = true",
  "",
  ruler,
  "# PARSER",
  ruler,
  "",
  "[parser]",
  "min_confidence = 0.5",
  "",
  "# Optional: ask a local Ollama model when no pattern matches",
  "# [parser.semantic]",
  "# model = \"llama3.2:1b\"",
  "# endpoint = \"http://127.0.0.1:11434\"",
  "# min_confidence = 0.6",
  "# timeout_ms = 1500",
  "",
  ruler,
  "# CUSTOM COMMANDS",
  ruler,
  "#",
  "# A trigger phrase mapped to one or more steps. Steps use intent names from",
  "# `vaultype intents` and the entity keys they need (appName, level, shortcutName).",
  "#",
  "# [[custom_commands]]",
  "# name = \"Morning\"",
  "# trigger_phrase = \"start my day\"",
  "#",
  "# [[custom_commands.steps]]",
  "# intent = \"openApp\"",
  "# parameters = \x7b appName = \"Mail\" \x7d",
  "#",
  "# [[custom_commands.steps]]",
  "# intent = \"volumeSet\"",
  "# parameters = \x7b level = \"30\" \x7d"]

def starterText : String := String.join (starterLines.map (· ++ "\n"))

/-- Writes the starter file; only force replaces what is already there. -/
def writeStarter (path : String) (force : Bool) : FileTask (List String) := do
  if (← perform (.present path)) ∧ !force then
    fail ("Configuration already exists: " ++ path ++ "\nUse --force to overwrite.")
  if let some folder := Path.parent? path then
    if folder ≠ "" then
      if !(← perform (.present folder)) then
        require (← perform (.makeFolders folder)) ("Failed to create " ++ folder)
  let failure := "Failed to write " ++ path
  require (← perform (.create path)) failure
  require (← perform (.write path starterText)) failure
  return ["Created: " ++ path]

end VoiceCommand.CommandLine
