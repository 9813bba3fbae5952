import Std.Time.DateTime.Timestamp
import VoiceCommand.CommandLine.Basic

/-! The program itself: it connects the command line with the arguments, the files, the input, the
output and the clock of the machine. -/
namespace VoiceCommand.Machine
open CommandLine (Invocation Report)

def succeeds (action : IO α) : IO Bool := do
  match ← action.toBaseIO with
  | .ok _ => return true
  | .error _ => return false

abbrev Locks := IO.Ref (List (String × IO.FS.Handle))

def perform (locks : Locks) : (op : FileOp) → IO op.Reply
  | .present path => succeeds (IO.FS.realPath path)
  | .read path => do
    match ← (IO.FS.readFile path).toBaseIO with
    | .ok text => return some text
    | .error _ => return none
  | .makeFolders path => succeeds (IO.FS.createDirAll path)
  | .create path => succeeds (IO.FS.writeFile path "")
  | .lock path => succeeds do
    let file ← IO.FS.Handle.mk path .append
    file.lock
    locks.modify ((path,file) :: ·)
  | .unlock path => succeeds do
    let held ← locks.get
    locks.set (held.filter fun entry => entry.1 != path)
    for entry in held do
      if entry.1 = path then entry.2.unlock
  | .write path text => succeeds (IO.FS.writeFile path text)
  | .sync path => succeeds do (← IO.FS.Handle.mk path .append).flush
  | .rename source target => succeeds (IO.FS.rename source target)

def run (locks : Locks) : Program α → IO α
  | .done a => return a
  | .step op next => do run locks (next (← perform locks op))

def now : IO Timestamp := do
  let instant ← Std.Time.Timestamp.now
  let nanos := instant.toNanosecondsSinceUnixEpoch.val
  return ⟨nanos / 1000000000,(nanos % 1000000000).toNat⟩

structure Inbox where
  segments : List Segment
  isOpen : Bool

partial def readLines (input : IO.FS.Stream) (inbox : IO.Ref Inbox) (start : Nat) : IO Unit := do
  match ← input.getLine.toBaseIO with
  | .error _ => inbox.modify ({ · with isOpen := false })
  | .ok "" => inbox.modify ({ · with isOpen := false })
  | .ok line =>
    let text := (CommandLine.inputLines line.toUTF8.toList).headD ""
    let received := (← IO.monoMsNow) - start
    while Session.queueSize ≤ (← inbox.get).segments.length do IO.sleep 5
    inbox.modify fun box => { box with segments := box.segments ++ [⟨text,received⟩] }
    readLines input inbox start

def play (output : IO.FS.Stream) (actions : List Action) : IO Unit := do
  for action in actions do
    match action with
    | .elapse ms => IO.sleep (.ofNat ms)
    | action =>
      if let some line := (Event.ofAction? action).bind CommandLine.eventLine? then
        output.putStrLn line
        output.flush

partial def serve (s : Session) (output : IO.FS.Stream) (inbox : IO.Ref Inbox) (start : Nat) :
    IO Session := do
  match (← inbox.get).segments with
  | [] =>
    if (← inbox.get).isOpen then
      IO.sleep 5
      serve s output inbox start
    else return s
  | segment :: _ =>
    inbox.modify fun box => { box with segments := box.segments.drop 1 }
    let idle := (s.follow (s.idleUntil ((← IO.monoMsNow) - start))).1
    let (actions,()) := idle.hearSegment segment idle.past
    play output actions
    serve (idle.after actions) output inbox start

/-- A session over the lines of the input, in the time in which they come. -/
def listen (locks : Locks) (path : String) (assumeYes : Bool) : IO Report := do
  match ← run locks (Config.ofFileOrDefault path).run with
  | .error message => return ⟨[],some message⟩
  | .ok c =>
    let output ← IO.getStdout
    output.putStrLn (CommandLine.greeting c)
    output.flush
    let inbox ← IO.mkRef (⟨[],true⟩ : Inbox)
    let start ← IO.monoMsNow
    let reader ← IO.asTask (readLines (← IO.getStdin) inbox start) .dedicated
    let s ← serve (CommandLine.drySession c .offline assumeYes (← now)) output inbox start
    let _ ← IO.wait reader
    match ← run locks (CommandLine.saveUse path c.customCommands s.store).run with
    | .ok _ => return ⟨CommandLine.undoLines s.undo,none⟩
    | .error message => return ⟨CommandLine.undoLines s.undo,some message⟩

def report (inv : Invocation) (home : String) : IO Report := do
  let locks ← IO.mkRef []
  match inv.task with
  | .listen assumeYes => listen locks (inv.path home) assumeYes
  | _ => run locks (inv.report home [] (← now))

def homeFolder : IO String := do
  match ← IO.getEnv "HOME" with
  | none | some "" => return "."
  | some home => return home

end VoiceCommand.Machine

open VoiceCommand in
def main (args : List String) : IO UInt32 := do
  match CommandLine.Invocation.ofArguments args with
  | .ok inv =>
    let report ← Machine.report inv (← Machine.homeFolder)
    for line in report.lines do IO.println line
    match report.failure with
    | none => return 0
    | some message =>
      IO.eprintln ("Error: " ++ message)
      return 1
  | .error (.help topic) =>
    for line in topic.lines do IO.println line
    return 0
  | .error .version =>
    IO.println (CommandLine.programName ++ " " ++ CommandLine.programVersion)
    return 0
  | .error .misuse =>
    IO.eprintln (CommandLine.usage ["[OPTIONS]","[COMMAND]"])
    return 2
