import VoiceCommand.Collaborators
import VoiceCommand.Document.Decode
import VoiceCommand.Settings

/-! The shapes in which commands, results, phases and settings are stored. -/
namespace VoiceCommand.Document
open Record (field)

def intent (format : Format) : Decoder Intent := Decoder.name format Intent.ofName?

def category (format : Format) : Decoder Category := Decoder.name format Category.ofName?

def source (format : Format) : Decoder Source := Decoder.name format Source.ofName?

def command (format : Format) : Decoder Command :=
  Record.decode {
    start := Command.new .openApp "" .pattern
    required := ["intent","entities","raw_text","confidence","display_name","source"]
    fields := [
      field "intent" (intent format) fun c x => { c with intent := x },
      field "entities" Decoder.entities fun c x => { c with entities := x },
      field "raw_text" Decoder.text fun c x => { c with rawText := x },
      field "confidence" Decoder.real fun c x => { c with confidence := x },
      field "display_name" Decoder.text fun c x => { c with displayName := x },
      field "source" (source format) fun c x => { c with source := x }] } format

def undoAction (format : Format) : Decoder UndoAction :=
  Record.decode {
    start := ⟨.openApp,.empty,""⟩
    required := ["intent","description"]
    fields := [
      field "intent" (intent format) fun u x => { u with intent := x },
      field "entities" Decoder.entities fun u x => { u with entities := x },
      field "description" Decoder.text fun u x => { u with description := x }] } format

/-- A number of seconds and one of nanoseconds, together in nanoseconds. The seconds must fit into 64
bits, also with the full seconds among the nanoseconds. -/
def duration (format : Format) : Decoder Nat := fun v =>
  (Record.decode {
    start := ((0,0) : Nat × Nat)
    required := ["secs","nanos"]
    fields := [
      field "secs" (Decoder.natural 64) fun d x => (x,d.2),
      field "nanos" (Decoder.natural 32) fun d x => (d.1,x)]
    closed := true
    valid := fun d => d.1 + d.2 / 1000000000 < twoTo 64 } format v).map
    fun d => d.1 * 1000000000 + d.2

def outcome (format : Format) : Decoder Outcome :=
  Record.decode {
    start := Outcome.failed ""
    required := ["success","message"]
    fields := [
      field "success" Decoder.bool fun o x => { o with success := x },
      field "message" Decoder.text fun o x => { o with message := x },
      field "duration" (duration format) fun o x => { o with nanoseconds := x },
      field "undo" (Decoder.optional (undoAction format)) fun o x => { o with undo := x }] } format

def classification (format : Format) : Decoder Classification :=
  Record.decode {
    start := ⟨"",.empty,.zero⟩
    required := ["intent"]
    fields := [
      field "intent" Decoder.text fun c x => { c with intent := x },
      field "entities" Decoder.entities fun c x => { c with entities := x },
      field "confidence" Decoder.real fun c x => { c with confidence := x }] } format

def step (format : Format) : Decoder Step :=
  Record.decode {
    start := ⟨.openApp,.empty⟩
    required := ["intent"]
    fields := [
      field "intent" (intent format) fun s x => { s with intent := x },
      field "parameters" Decoder.entities fun s x => { s with parameters := x }] } format

def customCommand (format : Format) : Decoder CustomCommand :=
  Record.decode {
    start := CustomCommand.new "" ""
    required := ["name","trigger_phrase"]
    fields := [
      field "name" Decoder.text fun c x => { c with name := x },
      field "trigger_phrase" Decoder.text fun c x => { c with trigger := x },
      field "steps" (Decoder.list (step format)) fun c x => { c with steps := x },
      field "enabled" Decoder.bool fun c x => { c with enabled := x },
      field "use_count" (Decoder.natural 64) fun c x => { c with useCount := .ofNat x },
      field "last_used_at" (Decoder.optional Decoder.timestamp)
        fun c x => { c with lastUsedAt := x }] } format

def wakeWordSettings (format : Format) : Decoder WakeWordSettings :=
  Record.decode {
    start := {}
    required := []
    fields := [
      field "phrase" Decoder.text fun s x => { s with phrase := x },
      field "case_sensitive" Decoder.bool fun s x => { s with caseSensitive := x },
      field "fuzzy_threshold" Decoder.real fun s x => { s with fuzzyThreshold := x },
      field "cooldown_ms" (Decoder.natural 64) fun s x => { s with cooldown := x }] } format

def sessionSettings (format : Format) : Decoder SessionSettings :=
  Record.decode {
    start := {}
    required := []
    fields := [
      field "listening_timeout_secs" (Decoder.natural 64) fun s x => { s with listeningTimeout := x },
      field "result_display_ms" (Decoder.natural 64) fun s x => { s with resultDisplay := x },
      field "chain_step_delay_ms" (Decoder.natural 64) fun s x => { s with stepDelay := x },
      field "execution_timeout_secs" (Decoder.natural 64) fun s x => { s with executionTimeout := x },
      field "chaining_enabled" Decoder.bool fun s x => { s with chaining := x }] } format

def semanticSettings (format : Format) : Decoder SemanticSettings :=
  Record.decode {
    start := { model := "" }
    required := ["model"]
    fields := [
      field "model" Decoder.text fun s x => { s with model := x },
      field "endpoint" Decoder.text fun s x => { s with endpoint := x },
      field "min_confidence" Decoder.real fun s x => { s with minConfidence := x },
      field "timeout_ms" (Decoder.natural 64) fun s x => { s with timeout := x }] } format

def parserSettings (format : Format) : Decoder ParserSettings :=
  Record.decode {
    start := {}
    required := []
    fields := [
      field "min_confidence" Decoder.real fun s x => { s with minConfidence := x },
      field "semantic" (Decoder.optional (semanticSettings format))
        fun s x => { s with semantic := x }] } format

def config (format : Format) : Decoder Config :=
  Record.decode {
    start := {}
    required := []
    fields := [
      field "wake_word" (wakeWordSettings format) fun c x => { c with wakeWord := x },
      field "command_mode" (sessionSettings format) fun c x => { c with session := x },
      field "parser" (parserSettings format) fun c x => { c with parser := x },
      field "disabled_intents" (Decoder.list Decoder.text) fun c x => { c with disabledIntents := x },
      field "custom_commands" (Decoder.list (customCommand format))
        fun c x => { c with customCommands := x }] } format

def phaseNames : List String :=
  ["inactive","listening","processing","executing","completed","error"]

def phaseContent (name : String) : Record Phase :=
  let one (key : String) (make : String → Phase) : Record Phase :=
    { start := make "", required := [key], fields := [field key Decoder.text fun _ x => make x] }
  match name with
  | "listening" =>
    { start := .listening ⟨0,0⟩
      required := ["since"]
      fields := [field "since" Decoder.timestamp fun _ x => .listening x] }
  | "processing" => one "text" .processing
  | "executing" => one "display_name" .executing
  | "completed" =>
    { start := .completed false ""
      required := ["success","message"]
      fields := [
        field "success" Decoder.bool fun p x =>
          match p with | .completed _ m => .completed x m | p => p,
        field "message" Decoder.text fun p x =>
          match p with | .completed s _ => .completed s x | p => p] }
  | "error" => one "message" .error
  | _ => { start := .inactive, required := [], fields := [] }

def contentLevels : Nat := 126

def phaseName : Decoder String := fun v => do
  let name ← Decoder.text v
  if phaseNames.contains name then .ok name else .error .shape

def phaseMembers (name : Option String) :
    List (Option String × Value) → Except Fault (Option String × List (Option String × Value))
  | [] => .ok (name,[])
  | (none,_) :: _ => .error .malformed
  | (some "state",v) :: rest =>
    if name.isSome then .error .shape
    else do phaseMembers (some (← phaseName v)) rest
  | (some key,v) :: rest =>
    match v.held? contentLevels with
    | some fault => .error fault
    | none => do
      let (name,held) ← phaseMembers name rest
      .ok (name,(some key,v) :: held)

/-- A phase, written as a table with its name under "state", or as a list that begins with it. The
whole document is read before its content is looked at. -/
def phase : Decoder Phase
  | .table members ending => do
    let (name,held) ← phaseMembers none members
    match ending.fault? with
    | some fault => .error fault
    | none =>
      match name with
      | some name => (phaseContent name).decode .json (.table held .closed)
      | none => .error .shape
  | .list [] ending => .error (ending.fault?.getD .shape)
  | .list (v :: items) ending => do
    let name ← phaseName v
    match Value.heldItems? contentLevels items <|> ending.fault? with
    | some fault => .error fault
    | none =>
      let content := phaseContent name
      if content.fields.length < items.length then .error .shape
      else content.decode .json (.list items .closed)
  | v => .error (Decoder.mismatch v)

end VoiceCommand.Document
