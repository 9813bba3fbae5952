import VoiceCommand.CommandLine.Toggle
import VoiceCommand.Proofs.Files.Program
import VoiceCommand.Proofs.Registry.Disabled

/-! The course of a toggle, one operation on files after another. It looks into the configuration twice, first for the
flags and then for what it has to keep; only after that does it take the lock. -/
namespace VoiceCommand.CommandLine
open Config (lockPath draftPath)

def flags (c : Config) : Registry := Registry.new.loadDisabled c.disabledIntents

abbrev Reply := Except String (List String)

/-- A toggle of an intent that is known. -/
structure Toggle where
  path : String
  intent : Intent
  enabled : Bool

namespace Toggle

/-- The names to be written by a toggle that has seen this configuration. -/
def names (t : Toggle) (c : Config) : List String := ((flags c).setEnabled t.intent t.enabled).disabledNames

def line (t : Toggle) : String := toggledLine t.intent t.enabled

def idle (t : Toggle) : String := t.intent.name ++ " is already " ++ stateName t.enabled

theorem lineNotIdle (t : Toggle) : t.line ≠ t.idle := by
  have all : ∀ i ∈ Intent.all, ∀ enabled : Bool,
      toggledLine i enabled ≠ i.name ++ " is already " ++ stateName enabled := by decide +kernel
  exact all t.intent (Intent.mem_all _) t.enabled

def unlocking (t : Toggle) (result : Except String Unit) : Program Reply :=
  .step (.unlock (lockPath t.path)) fun _ => .done (result.map fun _ => [t.line])

def replacing (t : Toggle) : Program Reply :=
  .step (.rename (draftPath t.path) t.path) fun (done : Bool) =>
    t.unlocking (if done then .ok () else .error ("Failed to replace config file: " ++ t.path))

def syncing (t : Toggle) : Program Reply :=
  .step (.sync (draftPath t.path)) fun (done : Bool) =>
    if done then t.replacing else t.unlocking (.error "Failed to sync config file")

def writing (t : Toggle) (next : Config) : Program Reply :=
  .step (.write (draftPath t.path) next.text) fun (done : Bool) =>
    if done then t.syncing else t.unlocking (.error "Failed to write config content")

def drafting (t : Toggle) (next : Config) : Program Reply :=
  .step (.create (draftPath t.path)) fun (done : Bool) =>
    if done then t.writing next
    else t.unlocking (.error ("Failed to create temp file: " ++ draftPath t.path))

def locking (t : Toggle) (next : Config) : Program Reply :=
  .step (.lock (lockPath t.path)) fun (done : Bool) =>
    if done then t.drafting next else .done (.error "Failed to acquire config lock")

def preparing (t : Toggle) (next : Config) : Program Reply :=
  .step (.create (lockPath t.path)) fun (done : Bool) =>
    if done then t.locking next else .done (.error ("Failed to create lock file: " ++ lockPath t.path))

def enclosing (t : Toggle) (folder : String) (next : Config) : Program Reply :=
  .step (.makeFolders folder) fun (done : Bool) =>
    if done then t.preparing next else .done (.error ("Failed to create config directory: " ++ folder))

def saving (t : Toggle) (next : Config) : Program Reply :=
  match Path.parent? t.path with
  | none => t.preparing next
  | some folder => if folder = "" then t.preparing next else t.enclosing folder next

def understanding (t : Toggle) (use : Config → Program Reply) : Option String → Program Reply
  | none => .done (.error ("Failed to read config file: " ++ t.path))
  | some text =>
    match Config.ofText? text with
    | some c => use c
    | none => .done (.error ("Failed to parse config file: " ++ t.path))

def reading (t : Toggle) (use : Config → Program Reply) : Program Reply :=
  .step (.read t.path) (t.understanding use)

def looking (t : Toggle) (use : Config → Program Reply) : Program Reply :=
  .step (.present t.path) fun (there : Bool) => if there then t.reading use else use {}

def renewing (t : Toggle) (c current : Config) : Program Reply :=
  t.saving { current with disabledIntents := t.names c }

def deciding (t : Toggle) (c : Config) : Program Reply :=
  if (flags c).isEnabled t.intent = t.enabled then .done (.ok [t.idle]) else t.looking (t.renewing c)

theorem sameStep {op : FileOp} {f g : op.Reply → Program Reply} (same : ∀ reply, f reply = g reply) :
    Program.step op f = .step op g := congrArg _ (funext same)

theorem lockingRun (t : Toggle) (next : Config) : (Config.locked (lockPath t.path)
    (Config.replaceText t.path next.text) >>= fun _ => pure [t.line] : FileTask (List String)).run =
      t.locking next := by
  refine sameStep fun (done : Bool) => ?_
  cases done with
  | false => rfl
  | true =>
    refine sameStep fun (done : Bool) => ?_
    cases done with
    | false => rfl
    | true =>
      refine sameStep fun (done : Bool) => ?_
      cases done with
      | false => rfl
      | true =>
        refine sameStep fun (done : Bool) => ?_
        cases done with
        | false => rfl
        | true =>
          refine sameStep fun (done : Bool) => ?_
          cases done <;> rfl

theorem savingRun (t : Toggle) (next : Config) :
    (Config.save next t.path >>= fun _ => pure [t.line] : FileTask (List String)).run = t.saving next := by
  have prepared : ((do
      FileTask.require (← FileTask.perform (.create (lockPath t.path)))
        ("Failed to create lock file: " ++ lockPath t.path)
      Config.locked (lockPath t.path) (Config.replaceText t.path next.text) : FileTask Unit) >>= fun _ =>
        pure [t.line]).run = t.preparing next := by
    refine sameStep fun (done : Bool) => ?_
    cases done with
    | false => rfl
    | true => exact t.lockingRun next
  unfold saving
  simp only [Config.save]
  cases Path.parent? t.path with
  | none => exact prepared
  | some folder =>
    by_cases root : folder = ""
    · simp only [root,ne_eq,not_true_eq_false,if_false,if_true]
      exact prepared
    · simp only [root,ne_eq,not_false_eq_true,if_false,if_true]
      refine sameStep fun (done : Bool) => ?_
      cases done with
      | false => rfl
      | true => exact prepared

theorem lookingRun (t : Toggle) (task : Config → FileTask (List String)) :
    (Config.ofFileOrDefault t.path >>= task).run = t.looking fun c => (task c).run := by
  refine sameStep fun (there : Bool) => ?_
  cases there with
  | false => rfl
  | true =>
    refine sameStep fun (text : Option String) => ?_
    cases text with
    | none => rfl
    | some text =>
      change ((match Config.ofText? text with
        | some c => return c
        | none => FileTask.fail ("Failed to parse config file: " ++ t.path) : FileTask Config) >>= task).run = _
      simp only [understanding]
      cases Config.ofText? text <;> rfl

theorem toggleRun (t : Toggle) {name : String} (named : Intent.parse? name = some t.intent) :
    (toggle t.path name t.enabled).run = t.looking t.deciding := by
  have known : intentOf name = .ok t.intent := by simp only [intentOf,named]
  have decided (c : Config) : t.deciding c = ((do
      let registry := flags c
      if registry.isEnabled t.intent = t.enabled then
        return [t.intent.name ++ " is already " ++ stateName t.enabled]
      else
        Config.saveDisabled t.path (registry.setEnabled t.intent t.enabled).disabledNames
        return [toggledLine t.intent t.enabled]) : FileTask (List String)).run := by
    unfold deciding
    simp only
    split
    · rfl
    · have saved := t.lookingRun fun current =>
        Config.save { current with disabledIntents := t.names c } t.path >>= fun _ => pure [t.line]
      have shared : (fun current : Config => (Config.save { current with disabledIntents := t.names c } t.path >>=
          fun _ => pure [t.line] : FileTask (List String)).run) = t.renewing c :=
        funext fun current => t.savingRun _
      rw [shared] at saved
      rw [← saved]
      simp only [Config.saveDisabled,bind_assoc]
      rfl
  have whole := t.lookingRun fun c => (do
      let registry := flags c
      if registry.isEnabled t.intent = t.enabled then
        return [t.intent.name ++ " is already " ++ stateName t.enabled]
      else
        Config.saveDisabled t.path (registry.setEnabled t.intent t.enabled).disabledNames
        return [toggledLine t.intent t.enabled])
  rw [show t.deciding = _ from funext decided,← whole]
  unfold toggle
  rw [known]
  rfl

/-- Where a toggle stands. It carries what it has seen of the file, and then what it is going to write. -/
inductive Stage where
  | looking
  | reading
  | lookingAgain (seen : Config)
  | readingAgain (seen : Config)
  | enclosing (folder : String) (next : Config)
  | preparing (next : Config)
  | locking (next : Config)
  | drafting (next : Config)
  | writing (next : Config)
  | syncing (next : Config)
  | replacing (next : Config)
  | unlocking (result : Except String Unit)
  | ended (reply : Reply)

namespace Stage

def program (t : Toggle) : Stage → Program Reply
  | looking => t.looking t.deciding
  | reading => t.reading t.deciding
  | lookingAgain seen => t.looking (t.renewing seen)
  | readingAgain seen => t.reading (t.renewing seen)
  | enclosing folder next => t.enclosing folder next
  | preparing next => t.preparing next
  | locking next => t.locking next
  | drafting next => t.drafting next
  | writing next => t.writing next
  | syncing _ => t.syncing
  | replacing _ => t.replacing
  | unlocking result => t.unlocking result
  | ended reply => .done reply

/-- Where the lock is held. -/
def holds : Stage → Bool
  | drafting _ | writing _ | syncing _ | replacing _ | unlocking _ => true
  | _ => false

/-- What the draft holds as a whole. -/
def drafted? : Stage → Option Config
  | syncing next | replacing next => some next
  | _ => none

end Stage

def decided (t : Toggle) (seen : Config) : Stage :=
  if (flags seen).isEnabled t.intent = t.enabled then .ended (.ok [t.idle]) else .lookingAgain seen

def renewed (t : Toggle) (seen current : Config) : Stage :=
  let next := { current with disabledIntents := t.names seen }
  match Path.parent? t.path with
  | none => .preparing next
  | some folder => if folder = "" then .preparing next else .enclosing folder next

/-- The operation that a toggle performs next, and where each reply leads. -/
inductive Led (t : Toggle) : Stage → (op : FileOp) → op.Reply → Stage → Prop
  | absent : Led t .looking (.present t.path) false (t.decided {})
  | there : Led t .looking (.present t.path) true .reading
  | unread {reply message} : Led t .reading (.read t.path) reply (.ended (.error message))
  | understood {text c} (parsed : Config.ofText? text = some c) :
      Led t .reading (.read t.path) (some text) (t.decided c)
  | absentAgain {seen} : Led t (.lookingAgain seen) (.present t.path) false (t.renewed seen {})
  | thereAgain {seen} : Led t (.lookingAgain seen) (.present t.path) true (.readingAgain seen)
  | unreadAgain {seen reply message} : Led t (.readingAgain seen) (.read t.path) reply (.ended (.error message))
  | understoodAgain {seen text c} (parsed : Config.ofText? text = some c) :
      Led t (.readingAgain seen) (.read t.path) (some text) (t.renewed seen c)
  | unenclosed {folder next message} :
      Led t (.enclosing folder next) (.makeFolders folder) false (.ended (.error message))
  | enclosed {folder next} : Led t (.enclosing folder next) (.makeFolders folder) true (.preparing next)
  | unprepared {next message} : Led t (.preparing next) (.create (lockPath t.path)) false (.ended (.error message))
  | prepared {next} : Led t (.preparing next) (.create (lockPath t.path)) true (.locking next)
  | unlocked {next message} : Led t (.locking next) (.lock (lockPath t.path)) false (.ended (.error message))
  | locked {next} : Led t (.locking next) (.lock (lockPath t.path)) true (.drafting next)
  | undrafted {next message} :
      Led t (.drafting next) (.create (draftPath t.path)) false (.unlocking (.error message))
  | drafted {next} : Led t (.drafting next) (.create (draftPath t.path)) true (.writing next)
  | unwritten {next message} :
      Led t (.writing next) (.write (draftPath t.path) next.text) false (.unlocking (.error message))
  | written {next} : Led t (.writing next) (.write (draftPath t.path) next.text) true (.syncing next)
  | unsynced {next message} :
      Led t (.syncing next) (.sync (draftPath t.path)) false (.unlocking (.error message))
  | synced {next} : Led t (.syncing next) (.sync (draftPath t.path)) true (.replacing next)
  | unreplaced {next message} :
      Led t (.replacing next) (.rename (draftPath t.path) t.path) false (.unlocking (.error message))
  | replaced {next} : Led t (.replacing next) (.rename (draftPath t.path) t.path) true (.unlocking (.ok ()))
  | released {result reply} : Led t (.unlocking result) (.unlock (lockPath t.path)) reply
      (.ended (result.map fun _ => [t.line]))

theorem decidedProgram (t : Toggle) (seen : Config) : t.deciding seen = (t.decided seen).program t := by
  simp only [deciding,decided]
  split <;> rfl

theorem renewedProgram (t : Toggle) (seen current : Config) :
    t.renewing seen current = (t.renewed seen current).program t := by
  simp only [renewing,renewed,saving]
  cases Path.parent? t.path with
  | none => rfl
  | some folder =>
    simp only
    split <;> rfl

theorem led (t : Toggle) (s : Stage) : (∃ reply, s = .ended reply) ∨
    ∃ op next, s.program t = .step op next ∧ ∀ reply, ∃ after, next reply = after.program t ∧ Led t s op reply after := by
  cases s with
  | ended reply => exact .inl ⟨reply,rfl⟩
  | looking => exact .inr ⟨_,_,rfl,Bool.forall_bool.mpr ⟨⟨_,t.decidedProgram {},.absent⟩,⟨_,rfl,.there⟩⟩⟩
  | reading =>
    refine .inr ⟨_,_,rfl,fun text => ?_⟩
    rcases text with _ | text
    · exact ⟨_,rfl,.unread⟩
    · simp only [understanding]
      cases parsed : Config.ofText? text with
      | none => exact ⟨_,rfl,.unread⟩
      | some c => exact ⟨_,t.decidedProgram c,.understood parsed⟩
  | lookingAgain seen =>
    exact .inr ⟨_,_,rfl,Bool.forall_bool.mpr ⟨⟨_,t.renewedProgram seen {},.absentAgain⟩,⟨_,rfl,.thereAgain⟩⟩⟩
  | readingAgain seen =>
    refine .inr ⟨_,_,rfl,fun text => ?_⟩
    rcases text with _ | text
    · exact ⟨_,rfl,.unreadAgain⟩
    · simp only [understanding]
      cases parsed : Config.ofText? text with
      | none => exact ⟨_,rfl,.unreadAgain⟩
      | some c => exact ⟨_,t.renewedProgram seen c,.understoodAgain parsed⟩
  | enclosing folder next =>
    exact .inr ⟨_,_,rfl,Bool.forall_bool.mpr ⟨⟨_,rfl,.unenclosed⟩,⟨.preparing next,rfl,.enclosed⟩⟩⟩
  | preparing next => exact .inr ⟨_,_,rfl,Bool.forall_bool.mpr ⟨⟨_,rfl,.unprepared⟩,⟨.locking next,rfl,.prepared⟩⟩⟩
  | locking next => exact .inr ⟨_,_,rfl,Bool.forall_bool.mpr ⟨⟨_,rfl,.unlocked⟩,⟨.drafting next,rfl,.locked⟩⟩⟩
  | drafting next => exact .inr ⟨_,_,rfl,Bool.forall_bool.mpr ⟨⟨_,rfl,.undrafted⟩,⟨.writing next,rfl,.drafted⟩⟩⟩
  | writing next => exact .inr ⟨_,_,rfl,Bool.forall_bool.mpr ⟨⟨_,rfl,.unwritten⟩,⟨.syncing next,rfl,.written⟩⟩⟩
  | syncing next => exact .inr ⟨_,_,rfl,Bool.forall_bool.mpr ⟨⟨_,rfl,.unsynced⟩,⟨.replacing next,rfl,.synced⟩⟩⟩
  | replacing next => exact .inr ⟨_,_,rfl,Bool.forall_bool.mpr ⟨⟨_,rfl,.unreplaced⟩,⟨_,rfl,.replaced⟩⟩⟩
  | unlocking result => exact .inr ⟨_,_,rfl,fun reply => ⟨_,rfl,.released⟩⟩

end Toggle

end VoiceCommand.CommandLine
