import VoiceCommand.Proofs.CommandLine.Alteration
import VoiceCommand.Proofs.Files.Race

/-! Two toggles of different intents at a time on one file. What a side is going to write is settled when it first
looks into the file, before it takes the lock; if the other side has replaced the file by then, both changes last, and
otherwise the later of the two undoes the earlier one. -/
namespace VoiceCommand.CommandLine
open Config (lockPath draftPath)
open Race (looked replaced heeded)

theorem lockBeside (path : String) : Path.Apart (lockPath path) path :=
  Path.extensionApart (show "toml.lock".toList = "toml".toList ++ '.' :: "lock".toList from rfl) (by decide)
    (by decide) path

theorem draftBeside (path : String) : Path.Apart (draftPath path) path :=
  Path.extensionApart (show "toml.tmp".toList = "toml".toList ++ '.' :: "tmp".toList from rfl) (by decide)
    (by decide) path

theorem lockFromDraft (path : String) : Path.Apart (lockPath path) (draftPath path) :=
  Path.extensionsApart (by decide) (by decide) (by decide) path

namespace Toggle
variable {t : Toggle} {stage after : Stage} {op : FileOp} {reply : op.Reply} {d : Disk}

theorem decidedFree (t : Toggle) (seen : Config) : (t.decided seen).holds = false := by
  unfold decided
  split <;> rfl

theorem renewedFree (t : Toggle) (seen current : Config) : (t.renewed seen current).holds = false := by
  simp only [renewed]
  split
  · rfl
  · split <;> rfl

/- Until the file is replaced, the most that can happen in its place is that a folder is made. -/
theorem ledBeside (tree : d.Tree) (reached : d.Reached t.path) (led : t.Led stage op reply after)
    (performed : (d.perform op).1 = reply) {side : Side} (quiet : Deed.replaces t.path ⟨side,op,reply⟩ = false) :
    (d.perform op).2.node? t.path = d.node? t.path ∨
      d.node? t.path = none ∧ (d.perform op).2.node? t.path = some .folder := by
  cases led with
  | absent | there | absentAgain | thereAgain => exact .inl rfl
  | unread | understood | unreadAgain | understoodAgain => exact .inl rfl
  | unenclosed | enclosed => exact Disk.grownNode tree (Disk.makeFoldersGrown tree _) reached
  | unprepared | prepared => exact .inl (Disk.writtenBeside tree (lockBeside t.path) (some ""))
  | unlocked | locked | released => exact .inl rfl
  | undrafted | drafted => exact .inl (Disk.writtenBeside tree (draftBeside t.path) (some ""))
  | @unwritten next | @written next => exact .inl (Disk.writtenBeside tree (draftBeside t.path) (some next.text))
  | unsynced | synced => exact .inl rfl
  | replaced => simp [Deed.replaces] at quiet
  | unreplaced =>
    have done := Disk.renamed d (draftPath t.path) t.path
    generalize d.perform (.rename (draftPath t.path) t.path) = result at done performed
    cases done with
    | refused => exact .inl rfl
    | moved => cases performed

/- Who does not hold the lock leaves the draft alone. -/
theorem ledDraft (tree : d.Tree) (led : t.Led stage op reply after) (free : stage.holds = false) {node : FileNode}
    (held : d.node? (draftPath t.path) = some node) : (d.perform op).2.node? (draftPath t.path) = some node := by
  cases led with
  | absent | there | absentAgain | thereAgain => exact held
  | unread | understood | unreadAgain | understoodAgain => exact held
  | unenclosed | enclosed => exact (Disk.makeFoldersGrown tree _).nodeKept held
  | unprepared | prepared => exact (Disk.writtenBeside tree (lockFromDraft t.path) (some "")).trans held
  | unlocked | locked => exact held
  | undrafted | drafted | unwritten | written | unsynced | synced | unreplaced | replaced | released => cases free

/-- What a step does to the lock. -/
inductive Locking (t : Toggle) (d : Disk) (stage after : Stage) : FileOp → Prop
  | kept {any : FileOp} (same : after.holds = stage.holds) (locked : (d.perform any).2.locked = d.locked) :
      Locking t d stage after any
  | taken (free : stage.holds = false) : Locking t d stage after (.lock (lockPath t.path))
  | released (held : stage.holds = true) (free : after.holds = false) :
      Locking t d stage after (.unlock (lockPath t.path))

theorem ledLocking (tree : d.Tree) (led : t.Led stage op reply after) : Locking t d stage after op := by
  cases led with
  | absent => exact .kept (t.decidedFree _) rfl
  | understood => exact .kept (t.decidedFree _) rfl
  | absentAgain => exact .kept (t.renewedFree _ _) rfl
  | understoodAgain => exact .kept (t.renewedFree _ _) rfl
  | there | thereAgain | unread | unreadAgain => exact .kept rfl rfl
  | unenclosed | enclosed | unprepared | prepared | undrafted | drafted => exact .kept rfl (Disk.performLocked tree _)
  | unwritten | written | unsynced | synced | unreplaced | replaced => exact .kept rfl (Disk.performLocked tree _)
  | unlocked | locked => exact .taken rfl
  | released => exact .released rfl rfl

theorem draftedHolds {next : Config} (ready : stage.drafted? = some next) : stage.holds = true := by
  cases stage <;> first | rfl | cases ready

theorem ledDrafted (led : t.Led stage op reply after) (performed : (d.perform op).1 = reply)
    (draft : ∀ next, stage.drafted? = some next → d.node? (draftPath t.path) = some (.file (some next.text)))
    {next : Config} (ready : after.drafted? = some next) :
    (d.perform op).2.node? (draftPath t.path) = some (.file (some next.text)) := by
  have held := draftedHolds ready
  cases led with
  | synced => exact draft next ready
  | written =>
    cases ready
    have done : (d.change (draftPath t.path) fun place => d.put place (.file (some next.text))).1 = true := performed
    have there := Disk.written done
    exact there
  | absent | understood => exact absurd held (by simp [t.decidedFree])
  | absentAgain | understoodAgain => exact absurd held (by simp [t.renewedFree])
  | _ => cases ready

theorem ledReplaced (led : t.Led stage op reply after) {side : Side}
    (replaces : Deed.replaces t.path ⟨side,op,reply⟩ = true) : ∃ next, stage = .replacing next := by
  cases led with
  | unreplaced => simp [Deed.replaces] at replaces
  | @replaced next => exact ⟨next,rfl⟩
  | _ => cases replaces

end Toggle

/-- The race after two turns of a side that looked into its file and read a text, and has a program to go on with. -/
def Toggle.informed (t : Toggle) (r : Race Reply) (s : Side) (text : String) (onward : Program Reply) : Race Reply :=
  ⟨fun other => if other = s then onward else r.program other,r.disk,
    r.log ++ [⟨s,.present t.path,true⟩,⟨s,.read t.path,some text⟩]⟩

theorem Toggle.lookedUndisturbed {t : Toggle} {r : Race Reply} {s : Side} {use : Config → Program Reply}
    {text : String} {c : Config} (looks : r.program s = t.looking use)
    (held : r.disk.node? t.path = some (.file (some text))) (parsed : Config.ofText? text = some c) :
    r.run [s,s] = t.informed r s text (use c) := by
  have first : r.turn s = ⟨fun other => if other = s then t.reading use else r.program other,r.disk,
      r.log ++ [⟨s,.present t.path,true⟩]⟩ := by
    simp [Race.turn,looks,Toggle.looking,Disk.blocks,Disk.perform,held]
  have later : r.disk.text? t.path = some text := by rw [Disk.text?,held]
  have known : t.understanding use (some text) = use c := by simp only [Toggle.understanding,parsed]
  change (r.turn s).turn s = _
  rw [first,Toggle.informed]
  simp only [Race.turn,if_pos,Toggle.reading,Disk.blocks,Bool.false_eq_true,if_false,Disk.perform,later,known,
    List.append_assoc]
  congr 1
  funext other
  split <;> rfl

structure Rivals where
  path : String
  intent : Side → Intent
  enabled : Side → Bool
  different : intent .left ≠ intent .right

namespace Rivals
variable (v : Rivals) (c : Config)

def toggle (s : Side) : Toggle := ⟨v.path,v.intent s,v.enabled s⟩

/-- The configuration with the change of one side. -/
def alone (s : Side) : Config := { c with disabledIntents := (v.toggle s).names c }

def both : Config :=
  let left := (flags c).setEnabled (v.intent .left) (v.enabled .left)
  { c with disabledIntents := (left.setEnabled (v.intent .right) (v.enabled .right)).disabledNames }

/-- The configurations that the two sides can write are read back as they are. -/
structure ReadsBack : Prop where
  alone : ∀ s, Config.ofText? (v.alone c s).text = some (v.alone c s)
  both : Config.ofText? (v.both c).text = some (v.both c)

theorem apart (s : Side) : v.intent s ≠ v.intent s.other := by
  cases s with
  | left => exact v.different
  | right => exact v.different.symm

theorem aloneFlags (s : Side) : (flags (v.alone c s)).isEnabled =
    ((flags c).setEnabled (v.intent s) (v.enabled s)).isEnabled := Registry.loadedFlags _ _

theorem bothFlags (i : Intent) : (flags (v.both c)).isEnabled i =
    if i = v.intent .right then v.enabled .right
    else if i = v.intent .left then v.enabled .left else (flags c).isEnabled i := by
  have loaded : (flags (v.both c)).isEnabled = (((flags c).setEnabled (v.intent .left) (v.enabled .left)).setEnabled
      (v.intent .right) (v.enabled .right)).isEnabled := Registry.loadedFlags _ _
  simp only [loaded,Registry.setFlag]

theorem bothKept (s : Side) : (flags (v.both c)).isEnabled (v.intent s) = v.enabled s := by
  rw [bothFlags]
  cases s with
  | left => rw [if_neg v.different,if_pos rfl]
  | right => rw [if_pos rfl]

theorem aloneOther (s : Side) :
    (flags (v.alone c s)).isEnabled (v.intent s.other) = (flags c).isEnabled (v.intent s.other) := by
  rw [aloneFlags,Registry.setFlag,if_neg (v.apart s).symm]

/- The order of two changes does not matter. -/
theorem namesAfter (s : Side) : (v.toggle s).names (v.alone c s.other) = (v.both c).disabledIntents := by
  refine Registry.sameDisabled (funext fun i => ?_)
  rw [Registry.setFlag,aloneFlags,Registry.setFlag,Registry.setFlag,Registry.setFlag]
  cases s with
  | right => rfl
  | left =>
    change (if i = v.intent .left then v.enabled .left else if i = v.intent .right then v.enabled .right else _) = _
    split
    · rename_i own
      rw [if_neg (own ▸ v.different)]
    · rfl

/-- What a side has seen when it looked into the file for the first time. -/
def seen (log : List Deed) (s : Side) : Config := if heeded v.path log s.other then v.alone c s.other else c

/-- What a side is going to write after that. -/
def due (log : List Deed) (s : Side) : Config := if heeded v.path log s.other then v.both c else v.alone c s

structure Fresh (log : List Deed) (s : Side) : Prop where
  unlooked : looked v.path log s = false
  unreplaced : replaced v.path log s = false

structure Decided (log : List Deed) (s : Side) : Prop where
  looked : looked v.path log s = true
  changes : heeded v.path log s.other = false → (flags c).isEnabled (v.intent s) ≠ v.enabled s

structure Informed (log : List Deed) (s : Side) : Prop extends v.Decided c log s where
  unreplaced : replaced v.path log s = false

structure Finished (log : List Deed) (s : Side) : Prop extends v.Decided c log s where
  replaced : replaced v.path log s = true

/-- How the deeds so far bear on a side at its stage. -/
def Standing (log : List Deed) (s : Side) : Toggle.Stage → Prop
  | .looking | .reading => v.Fresh log s
  | .lookingAgain seen | .readingAgain seen => v.Informed c log s ∧ seen = v.seen c log s
  | .enclosing _ next | .preparing next | .locking next | .drafting next | .writing next | .syncing next
  | .replacing next => v.Informed c log s ∧ next = v.due c log s
  | .unlocking result => result = .ok () → v.Finished c log s
  | .ended reply => reply = .ok [(v.toggle s).line] → v.Finished c log s

/-- Which configuration the file can hold. -/
inductive Content (log : List Deed) : Config → Prop
  | original (untouched : ∀ s, replaced v.path log s = false) : Content log c
  | once {s} (own : replaced v.path log s = true) (other : replaced v.path log s.other = false) :
      Content log (v.alone c s)
  | twice {s} (all : ∀ t, replaced v.path log t = true) (last : heeded v.path log s = false) :
      Content log (v.due c log s)

/-- What can be in the place of the file. -/
inductive Held (log : List Deed) : Option FileNode → Prop
  | absent (untouched : ∀ s, replaced v.path log s = false) (default : c = {}) : Held log none
  | obstructed (untouched : ∀ s, replaced v.path log s = false) : Held log (some .folder)
  | file {text current} (content : v.Content c log current) (parsed : Config.ofText? text = some current) :
      Held log (some (.file (some text)))

section
variable {v c} {log : List Deed} {deed : Deed} {s : Side}

theorem seenKept (known : looked v.path log s = true) :
    v.seen c (log ++ [deed]) s = v.seen c log s ∧ v.due c (log ++ [deed]) s = v.due c log s := by
  simp only [seen,due,Race.heededOther known,and_self]

theorem Decided.kept (h : v.Decided c log s) : v.Decided c (log ++ [deed]) s := by
  refine ⟨by rw [Race.lookedMore,h.looked,Bool.true_or],?_⟩
  rw [Race.heededOther h.looked]
  exact h.changes

theorem Informed.kept (quiet : deed.side ≠ s ∨ deed.replaces v.path = false) (h : v.Informed c log s) :
    v.Informed c (log ++ [deed]) s := by
  refine ⟨h.toDecided.kept,?_⟩
  rw [Race.replacedMore,h.unreplaced]
  rcases quiet with foreign | quiet
  · simp [foreign]
  · simp [quiet]

theorem Finished.kept (h : v.Finished c log s) : v.Finished c (log ++ [deed]) s :=
  ⟨h.toDecided.kept,by rw [Race.replacedMore,h.replaced,Bool.true_or]⟩

theorem Fresh.kept (h : v.Fresh log s)
    (quiet : deed.side ≠ s ∨ deed.looksInto v.path = false ∧ deed.replaces v.path = false) :
    v.Fresh (log ++ [deed]) s := by
  refine ⟨?_,?_⟩
  · rw [Race.lookedMore,h.unlooked]
    rcases quiet with foreign | quiet
    · simp [foreign]
    · simp [quiet.1]
  · rw [Race.replacedMore,h.unreplaced]
    rcases quiet with foreign | quiet
    · simp [foreign]
    · simp [quiet.2]

/- What the other side does leaves a side where it stands. -/
theorem Standing.kept {stage : Toggle.Stage} (foreign : deed.side ≠ s) (h : v.Standing c log s stage) :
    v.Standing c (log ++ [deed]) s stage := by
  cases stage with
  | looking | reading => exact Fresh.kept h (.inl foreign)
  | lookingAgain | readingAgain => exact ⟨h.1.kept (.inl foreign),h.2.trans (seenKept h.1.looked).1.symm⟩
  | enclosing | preparing | locking | drafting | writing | syncing | replacing =>
    exact ⟨h.1.kept (.inl foreign),h.2.trans (seenKept h.1.looked).2.symm⟩
  | unlocking result => exact fun succeeded => (h succeeded).kept
  | ended reply => exact fun succeeded => (h succeeded).kept

theorem Held.kept {node : Option FileNode} (quiet : deed.replaces v.path = false) (h : v.Held c log node) :
    v.Held c (log ++ [deed]) node := by
  have same (t : Side) : replaced v.path (log ++ [deed]) t = replaced v.path log t := by
    simp [Race.replacedMore,quiet]
  have heed (t : Side) : heeded v.path (log ++ [deed]) t = heeded v.path log t := Race.heededKept (.inr quiet)
  cases h with
  | absent untouched default => exact .absent (fun t => (same t).trans (untouched t)) default
  | obstructed untouched => exact .obstructed fun t => (same t).trans (untouched t)
  | file content parsed =>
    refine .file ?_ parsed
    cases content with
    | original untouched => exact .original fun t => (same t).trans (untouched t)
    | once own other => exact .once ((same _).trans own) ((same _).trans other)
    | @twice t all last =>
      have due : v.due c (log ++ [deed]) t = v.due c log t := by simp only [Rivals.due,heed]
      rw [← due]
      exact .twice (fun t => (same t).trans (all t)) ((heed _).trans last)

theorem Content.shape {current : Config} (h : v.Content c log current) :
    ∃ names, current = { c with disabledIntents := names } := by
  cases h with
  | original => exact ⟨c.disabledIntents,rfl⟩
  | @once t => exact ⟨(v.toggle t).names c,rfl⟩
  | @twice t =>
    unfold due
    split
    · exact ⟨(v.both c).disabledIntents,rfl⟩
    · exact ⟨(v.toggle t).names c,rfl⟩

theorem seenNow {current : Config} (fresh : v.Fresh log s) (h : v.Content c log current) :
    current = v.seen c log s := by
  have heed : heeded v.path log s.other = replaced v.path log s.other :=
    Race.heededUnlooked (by rw [Side.otherTwice]; exact fresh.unlooked)
  unfold seen
  rw [heed]
  cases h with
  | original untouched => rw [untouched s.other,if_neg Bool.false_ne_true]
  | @once t own other =>
    have foreign : t ≠ s := fun same => by
      rw [same,fresh.unreplaced] at own
      cases own
    rw [← Side.isOther foreign,own,if_pos rfl]
  | twice all last =>
    have own := all s
    rw [fresh.unreplaced] at own
    cases own

theorem dueRenewed {current : Config} (shape : ∃ names, current = { c with disabledIntents := names }) :
    { current with disabledIntents := (v.toggle s).names (v.seen c log s) } = v.due c log s := by
  obtain ⟨names,rfl⟩ := shape
  unfold seen due
  split
  · rw [namesAfter]
    rfl
  · rfl

theorem decidedStanding {current : Config} (fresh : v.Fresh log s) (content : v.Content c log current)
    (own : deed.side = s) (looks : deed.looksInto v.path = true) (quiet : deed.replaces v.path = false) :
    v.Standing c (log ++ [deed]) s ((v.toggle s).decided current) := by
  have heed : heeded v.path (log ++ [deed]) s.other = heeded v.path log s.other := Race.heededKept (.inr quiet)
  have same : current = v.seen c (log ++ [deed]) s := by
    rw [seenNow fresh content]
    simp only [seen,heed]
  unfold Toggle.decided
  split
  · intro changed
    exact absurd (List.singleton_inj.mp (Except.ok.inj changed)).symm (v.toggle s).lineNotIdle
  · rename_i changes
    refine ⟨⟨⟨?_,fun unheeded => ?_⟩,?_⟩,same⟩
    · simp [Race.lookedMore,own,looks]
    · rw [same] at changes
      simpa only [seen,unheeded,Bool.false_eq_true,if_false,toggle] using changes
    · simp [Race.replacedMore,fresh.unreplaced,quiet]

theorem renewedStanding {current : Config} (informed : v.Informed c log s) (content : v.Content c log current)
    (quiet : deed.replaces v.path = false) :
    v.Standing c (log ++ [deed]) s ((v.toggle s).renewed (v.seen c log s) current) := by
  have same : { current with disabledIntents := (v.toggle s).names (v.seen c log s) } =
      v.due c (log ++ [deed]) s := (dueRenewed content.shape).trans (seenKept informed.looked).2.symm
  have later : v.Informed c (log ++ [deed]) s := informed.kept (.inr quiet)
  simp only [Toggle.renewed]
  split
  · exact ⟨later,same⟩
  · split
    · exact ⟨later,same⟩
    · exact ⟨later,same⟩

theorem heldAbsent {node : Option FileNode} (held : v.Held c log node) (missing : node.isSome = false) :
    v.Content c log {} := by
  cases held with
  | absent untouched default => exact default ▸ .original untouched
  | obstructed untouched => cases missing
  | file content parsed => cases missing

theorem Held.lone {node : Option FileNode} (held : v.Held c log node) (own : replaced v.path log s = true)
    (other : replaced v.path log s.other = false) :
    ∃ text, node = some (.file (some text)) ∧ Config.ofText? text = some (v.alone c s) := by
  cases held with
  | absent untouched _ => cases (untouched s).symm.trans own
  | obstructed untouched => cases (untouched s).symm.trans own
  | @file text current content parsed =>
    cases content with
    | original untouched => cases (untouched s).symm.trans own
    | @once first replaced _ =>
      by_cases same : first = s
      · exact ⟨text,rfl,same ▸ parsed⟩
      · cases (Side.isOther same ▸ replaced).symm.trans other
    | twice all _ => cases (all s.other).symm.trans other

theorem heldText {d : Disk} {text : String} {current : Config} (held : v.Held c log (d.node? v.path))
    (read : d.text? v.path = some text) (parsed : Config.ofText? text = some current) : v.Content c log current := by
  unfold Disk.text? at read
  generalize d.node? v.path = node at held read
  cases held with
  | absent untouched default => cases read
  | obstructed untouched => cases read
  | file content known =>
    cases Option.some.inj read
    cases Option.some.inj (parsed.symm.trans known)
    exact content

/- One case for each step of a toggle. -/
theorem Standing.step {d : Disk} {stage after : Toggle.Stage} {op : FileOp} {reply : op.Reply}
    (standing : v.Standing c log s stage) (held : v.Held c log (d.node? v.path))
    (led : (v.toggle s).Led stage op reply after) (performed : (d.perform op).1 = reply) :
    v.Standing c (log ++ [⟨s,op,reply⟩]) s after := by
  cases led with
  | absent => exact decidedStanding standing (heldAbsent held performed) rfl (by simp [Deed.looksInto,toggle]) rfl
  | understood parsed =>
    exact decidedStanding standing (heldText held performed parsed) rfl (by simp [Deed.looksInto,toggle]) rfl
  | there => exact Fresh.kept standing (.inr ⟨by simp [Deed.looksInto],rfl⟩)
  | absentAgain =>
    obtain ⟨informed,rfl⟩ := standing
    exact renewedStanding informed (heldAbsent held performed) rfl
  | understoodAgain parsed =>
    obtain ⟨informed,rfl⟩ := standing
    exact renewedStanding informed (heldText held performed parsed) rfl
  | thereAgain =>
    exact ⟨standing.1.kept (.inr rfl),standing.2.trans (seenKept standing.1.looked).1.symm⟩
  | enclosed | prepared | locked | drafted | written | synced =>
    exact ⟨standing.1.kept (.inr rfl),standing.2.trans (seenKept standing.1.looked).2.symm⟩
  | unread | unreadAgain | unenclosed | unprepared | unlocked => exact fun succeeded => nomatch succeeded
  | undrafted | unwritten | unsynced | unreplaced => exact fun succeeded => nomatch succeeded
  | replaced =>
    obtain ⟨informed,_⟩ := standing
    exact fun _ => ⟨informed.toDecided.kept,by simp [Race.replacedMore,Deed.replaces,toggle]⟩
  | @released result reply =>
    intro succeeded
    cases result with
    | error message => cases succeeded
    | ok _ => exact (standing rfl).kept

/- The side that replaces the file has what it is due in its draft. If the other side has done so before, then it had
looked before, too. -/
theorem heldReplaced {d : Disk} {next : Config} (readsBack : v.ReadsBack c) (informed : v.Informed c log s)
    (isDue : next = v.due c log s) (draft : d.node? (draftPath v.path) = some (.file (some next.text)))
    (lookedFirst : replaced v.path log s.other = true → looked v.path log s.other = true)
    (performed : (d.perform (.rename (draftPath v.path) v.path)).1 = true) :
    v.Held c (log ++ [⟨s,.rename (draftPath v.path) v.path,true⟩])
      ((d.perform (.rename (draftPath v.path) v.path)).2.node? v.path) := by
  obtain ⟨text,moved,there⟩ := Disk.renamedNode performed
  cases Option.some.inj (moved.symm.trans draft)
  rw [there]
  have own : replaced v.path (log ++ [⟨s,.rename (draftPath v.path) v.path,true⟩]) s = true := by
    simp [Race.replacedMore,Deed.replaces]
  have foreign : replaced v.path (log ++ [⟨s,.rename (draftPath v.path) v.path,true⟩]) s.other =
      replaced v.path log s.other := by
    simp [Race.replacedMore,(Side.otherNot s).symm]
  have same : v.due c (log ++ [⟨s,.rename (draftPath v.path) v.path,true⟩]) s = v.due c log s :=
    (seenKept informed.looked).2
  have parsed : Config.ofText? next.text = some next := by
    rw [isDue]
    unfold due
    split
    · exact readsBack.both
    · exact readsBack.alone s
  refine .file ?_ parsed
  cases other : replaced v.path log s.other with
  | false =>
    have lone : next = v.alone c s := by
      rw [isDue,due,Race.unreplacedUnheeded other]
      rfl
    exact lone ▸ .once own (foreign.trans other)
  | true =>
    have last : heeded v.path (log ++ [⟨s,.rename (draftPath v.path) v.path,true⟩]) s = false := by
      rw [Race.heededSettled (lookedFirst other)]
      exact Race.unreplacedUnheeded informed.unreplaced
    rw [isDue,← same]
    refine .twice (fun t => ?_) last
    by_cases mine : t = s
    · exact mine ▸ own
    · exact Side.isOther mine ▸ foreign.trans other

theorem Held.step {d : Disk} {stage after : Toggle.Stage} {op : FileOp} {reply : op.Reply} (tree : d.Tree)
    (reached : d.Reached v.path) (readsBack : v.ReadsBack c) (standing : v.Standing c log s stage)
    (draft : ∀ next, stage.drafted? = some next → d.node? (draftPath v.path) = some (.file (some next.text)))
    (lookedFirst : replaced v.path log s.other = true → looked v.path log s.other = true)
    (held : v.Held c log (d.node? v.path)) (led : (v.toggle s).Led stage op reply after)
    (performed : (d.perform op).1 = reply) :
    v.Held c (log ++ [⟨s,op,reply⟩]) ((d.perform op).2.node? v.path) := by
  cases quiet : Deed.replaces v.path ⟨s,op,reply⟩ with
  | false =>
    rcases Toggle.ledBeside (t := v.toggle s) tree reached led performed quiet with same | ⟨before,after⟩
    · exact same ▸ held.kept quiet
    · change (d.perform op).2.node? v.path = some .folder at after
      change d.node? v.path = none at before
      rw [after]
      rw [before] at held
      cases held.kept quiet with
      | absent untouched _ => exact .obstructed untouched
  | true =>
    cases led with
    | unreplaced => simp [Deed.replaces] at quiet
    | replaced =>
      obtain ⟨informed,due⟩ := standing
      exact heldReplaced readsBack informed due (draft _ rfl) lookedFirst performed
    | _ => cases quiet

end

/-- Who holds the lock has taken it, and is alone with it. -/
structure Exclusive (path : String) (stage : Side → Toggle.Stage) (d : Disk) : Prop where
  locked : ∀ s, (stage s).holds = true → lockPath path ∈ d.locked
  alone : ∀ s, (stage s).holds = true → (stage s.other).holds = false

section
variable {v} {stage : Side → Toggle.Stage} {after : Toggle.Stage} {d : Disk} {op : FileOp} {s : Side}

theorem Exclusive.nobody {path : String} (idle : ∀ t, (stage t).holds = false) : Exclusive path stage d :=
  ⟨fun t holds => absurd ((idle t).symm.trans holds) Bool.false_ne_true,fun t _ => idle t.other⟩

theorem Exclusive.waits {path : String} (h : Exclusive path stage d) {t : Side} (different : t ≠ s)
    (holds : (stage t).holds = true) : (stage s).holds = false := by
  have free := h.alone t holds
  rwa [Side.isOther different,Side.otherTwice] at free

theorem Exclusive.step (h : Exclusive v.path stage d) (locking : (v.toggle s).Locking d (stage s) after op)
    (free : d.blocks op = false) : Exclusive v.path (Function.update stage s after) (d.perform op).2 := by
  cases locking with
  | kept same locked =>
    have alike (t : Side) : (Function.update stage s after t).holds = (stage t).holds := by
      by_cases own : t = s
      · rw [own,Function.update_self,same]
      · rw [Function.update_of_ne own]
    exact ⟨fun t holds => locked ▸ h.locked t (alike t ▸ holds),
      fun t holds => (alike t.other).trans (h.alone t (alike t ▸ holds))⟩
  | taken unheld =>
    have others (t : Side) : (stage t).holds = false := by
      cases held : (stage t).holds with
      | false => rfl
      | true => cases (List.contains_iff_mem.mpr (h.locked t held)).symm.trans free
    refine ⟨fun _ _ => List.mem_cons_self,fun t holds => ?_⟩
    by_cases own : t = s
    · rw [own,Function.update_of_ne s.otherNot]
      exact others s.other
    · rw [Function.update_of_ne own,others] at holds
      cases holds
  | released held left =>
    refine .nobody fun t => ?_
    by_cases own : t = s
    · rw [own,Function.update_self,left]
    · rw [Function.update_of_ne own]
      cases holds : (stage t).holds with
      | false => rfl
      | true => cases (h.waits own holds).symm.trans held

end

/-- Two toggles on their way, each at its stage. -/
structure Running (v : Rivals) (c : Config) (r : Race Reply) (stage : Side → Toggle.Stage) : Prop where
  program : ∀ s, r.program s = (stage s).program (v.toggle s)
  tree : r.disk.Tree
  reached : r.disk.Reached v.path
  exclusive : Exclusive v.path stage r.disk
  draft : ∀ s next, (stage s).drafted? = some next →
    r.disk.node? (draftPath v.path) = some (.file (some next.text))
  standing : ∀ s, v.Standing c r.log s (stage s)
  lookedFirst : ∀ s, replaced v.path r.log s = true → looked v.path r.log s = true
  held : v.Held c r.log (r.disk.node? v.path)

theorem Running.turn {v : Rivals} {c : Config} (readsBack : v.ReadsBack c) {r : Race Reply}
    {stage : Side → Toggle.Stage} (running : v.Running c r stage) (s : Side) :
    ∃ next, v.Running c (r.turn s) next := by
  rcases (v.toggle s).led (stage s) with ⟨reply,ended⟩ | ⟨op,next,program,leads⟩
  · have done : r.program s = .done reply := by rw [running.program s,ended]; rfl
    exact ⟨stage,(Race.turnDone done).symm ▸ running⟩
  · have here := (running.program s).trans program
    cases blocked : r.disk.blocks op with
    | true => exact ⟨stage,(Race.turnBlocked here blocked).symm ▸ running⟩
    | false =>
      obtain ⟨after,same,led⟩ := leads (r.disk.perform op).1
      have stands := Disk.performStands running.tree op
      refine ⟨Function.update stage s after,?_⟩
      rw [Race.turnStep here blocked]
      constructor
      case tree => exact stands.tree
      case reached => exact stands.reached running.reached
      case exclusive => exact running.exclusive.step (Toggle.ledLocking running.tree led) blocked
      case held =>
        exact running.held.step running.tree running.reached readsBack (running.standing s) (running.draft s)
          (running.lookedFirst s.other) led rfl
      case program =>
        intro t
        by_cases own : t = s
        · simp only [own,if_true,Function.update_self,same]
        · simp only [own,if_false,ne_eq,not_false_eq_true,Function.update_of_ne,running.program t]
      case draft =>
        intro t n ready
        by_cases own : t = s
        · rw [own,Function.update_self] at ready
          exact Toggle.ledDrafted (t := v.toggle s) led rfl (running.draft s) ready
        · rw [Function.update_of_ne own] at ready
          have free := running.exclusive.waits own (Toggle.draftedHolds ready)
          exact Toggle.ledDraft (t := v.toggle s) running.tree led free (running.draft t n ready)
      case standing =>
        intro t
        by_cases own : t = s
        · rw [own,Function.update_self]
          exact (running.standing s).step running.held led rfl
        · rw [Function.update_of_ne own]
          exact (running.standing t).kept (Ne.symm own)
      case lookedFirst =>
        intro t replaced
        rw [Race.lookedMore]
        rw [Race.replacedMore,Bool.or_eq_true,Bool.and_eq_true] at replaced
        rcases replaced with before | ⟨own,replaces⟩
        · rw [running.lookedFirst t before,Bool.true_or]
        · obtain ⟨n,ready⟩ := Toggle.ledReplaced (t := v.toggle s) led replaces
          have standing := running.standing s
          rw [ready] at standing
          rw [← beq_iff_eq.mp own,standing.1.looked,Bool.true_or]

theorem Running.run {v : Rivals} {c : Config} (readsBack : v.ReadsBack c) {r : Race Reply}
    {stage : Side → Toggle.Stage} (running : v.Running c r stage) (schedule : List Side) :
    ∃ last, v.Running c (r.run schedule) last := by
  induction schedule generalizing r stage with
  | nil => exact ⟨stage,running⟩
  | cons s rest ih =>
    obtain ⟨next,later⟩ := running.turn readsBack s
    exact ih later

theorem loadedHeld {d : Disk} (loads : ((Config.ofFileOrDefault v.path).run.run d).1 = .ok c) :
    v.Held c [] (d.node? v.path) := by
  cases Config.loadedInForce.mp loads with
  | default absent =>
    rw [absent]
    exact .absent (fun _ => rfl) rfl
  | written held parsed =>
    rw [held]
    exact .file (.original fun _ => rfl) parsed

theorem runningStart {name : Side → String} (named : ∀ s, Intent.parse? (name s) = some (v.intent s)) {d : Disk}
    (tree : d.Tree) (reached : d.Reached v.path) (loads : ((Config.ofFileOrDefault v.path).run.run d).1 = .ok c) :
    v.Running c (Race.start (fun s => (CommandLine.toggle v.path (name s) (v.enabled s)).run) d) fun _ => .looking := by
  refine ⟨fun s => (v.toggle s).toggleRun (named s),tree,reached,.nobody fun _ => rfl,
    fun _ _ ready => (nomatch ready),fun s => ⟨rfl,rfl⟩,fun _ done => (nomatch done),loadedHeld v c loads⟩

/-- How the file ends up: all else is kept, and both changes last exactly if one side replaced the file before the
other looked into it; if not, then one side has undone what the other did. -/
structure Settled (r : Race Reply) (final : Config) : Prop where
  loads : ((Config.ofFileOrDefault v.path).run.run r.disk).1 = .ok final
  rest : ∃ names, final = { c with disabledIntents := names }
  kept : (∀ s, (flags final).isEnabled (v.intent s) = v.enabled s) ↔ ∃ s, heeded v.path r.log s = true
  undone : (∀ s, heeded v.path r.log s = false) → ∃ s, final = v.alone c s

theorem changesSettled {v : Rivals} {c : Config} (name : Side → String)
    (named : ∀ s, Intent.parse? (name s) = some (v.intent s)) {d : Disk} (tree : d.Tree) (reached : d.Reached v.path)
    (loads : ((Config.ofFileOrDefault v.path).run.run d).1 = .ok c) (readsBack : v.ReadsBack c)
    (schedule : List Side) :
    let r := (Race.start (fun s => (CommandLine.toggle v.path (name s) (v.enabled s)).run) d).run schedule
    (∀ s, r.result? s = some (.ok [toggledLine (v.intent s) (v.enabled s)])) → ∃ final, v.Settled c r final := by
  intro r done
  obtain ⟨stage,running⟩ := (runningStart v c named tree reached loads).run readsBack schedule
  change v.Running c r stage at running
  have finished (s : Side) : v.Finished c r.log s := by
    have result := done s
    have standing := running.standing s
    unfold Race.result? at result
    rw [running.program s] at result
    rcases (v.toggle s).led (stage s) with ⟨reply,ended⟩ | ⟨op,next,program,_⟩
    · rw [ended] at result standing
      exact standing (Option.some.inj result)
    · rw [program] at result
      cases result
  have held := running.held
  generalize node : r.disk.node? v.path = found at held
  cases held with
  | absent untouched _ => cases (untouched .left).symm.trans (finished .left).replaced
  | obstructed untouched => cases (untouched .left).symm.trans (finished .left).replaced
  | @file text current content parsed =>
    refine ⟨current,Config.loadedText node parsed,content.shape,?_,?_⟩
    · cases content with
      | original untouched => cases (untouched .left).symm.trans (finished .left).replaced
      | once own other => cases other.symm.trans (finished _).replaced
      | @twice s all last =>
        unfold due
        cases heed : heeded v.path r.log s.other with
        | true =>
          simp only [if_true]
          exact ⟨fun _ => ⟨s.other,heed⟩,fun _ => v.bothKept c⟩
        | false =>
          simp only [Bool.false_eq_true,if_false]
          constructor
          · intro both
            have lost := (finished s.other).changes (by rw [Side.otherTwice]; exact last)
            rw [← v.aloneOther c s] at lost
            exact absurd (both s.other) lost
          · rintro ⟨t,early⟩
            by_cases own : t = s
            · cases (own ▸ early).symm.trans last
            · cases (Side.isOther own ▸ early).symm.trans heed
    · intro unheeded
      cases content with
      | original untouched => cases (untouched .left).symm.trans (finished .left).replaced
      | once own other => cases other.symm.trans (finished _).replaced
      | @twice s all last => exact ⟨s,by rw [due,unheeded,if_neg Bool.false_ne_true]⟩

def lockAndMute : Rivals :=
  ⟨"config.toml",fun | .left => .lockScreen | .right => .volumeMute,fun _ => false,by decide⟩

theorem lockAndMuteBoth : lockAndMute.both {} = { disabledIntents := ["lockScreen","volumeMute"] } := by
  have disabled : (Intent.all.filter fun i => !(((flags {}).setEnabled .lockScreen false).setEnabled
      .volumeMute false).isEnabled i).map Intent.name = ["volumeMute","lockScreen"] := by decide +kernel
  have sorted : Registry.sortNames ["volumeMute","lockScreen"] = ["lockScreen","volumeMute"] := by
    simp [Registry.sortNames,List.mergeSort]
  rw [← sorted,← disabled]
  rfl

set_option maxRecDepth 10000 in
theorem lockAndMuteReads : lockAndMute.ReadsBack {} := by
  constructor
  · intro s
    cases s with
    | left => exact lockScreenReads false
    | right =>
      rw [Config.ofTextWritten]
      decide +kernel
  · rw [lockAndMuteBoth,Config.ofTextWritten]
    decide +kernel

theorem lockAndMuteNamed (s : Side) : Intent.parse? (lockAndMute.intent s).name = some (lockAndMute.intent s) := by
  cases s <;> decide +kernel

theorem lockAndMuteLoads : ((Config.ofFileOrDefault lockAndMute.path).run.run (Disk.new "home")).1 = .ok {} := by
  decide +kernel

/-- The two toggles before their first turns. -/
def lockAndMuteStart : Race Reply := Race.start (fun s => (CommandLine.toggle lockAndMute.path
  (lockAndMute.intent s).name (lockAndMute.enabled s)).run) (Disk.new "home")

/-- The race once the first of the two is done, without a turn of the second. -/
def lockDone : Race Reply := lockAndMuteStart.run (List.replicate 9 .left)

/-- What is in the file by then. -/
def lockText : String := (lockDone.disk.text? lockAndMute.path).getD ""

theorem lockHeld : lockDone.disk.node? lockAndMute.path = some (.file (some lockText)) ∧
    Config.ofText? lockText = some (lockAndMute.alone {} .left) := by
  have first : lockAndMute.Running {} lockAndMuteStart fun _ => .looking :=
    runningStart lockAndMute {} lockAndMuteNamed (Disk.newTree (by decide)) (.inr (by decide)) lockAndMuteLoads
  obtain ⟨_,running⟩ := first.run lockAndMuteReads (List.replicate 9 .left)
  change lockAndMute.Running {} lockDone _ at running
  have own : replaced lockAndMute.path lockDone.log .left = true := by decide +kernel
  obtain ⟨text,held,parsed⟩ := running.held.lone own (by decide +kernel)
  have same : lockText = text := by
    rw [lockText,Disk.text?,held]
    rfl
  rw [same]
  exact ⟨held,parsed⟩

/- That the text is read back is known, so it is not read anew for the results. -/
theorem lockThenMute : let r := lockDone.run (List.replicate 11 .right)
    r.result? .left = some (.ok ["Disabled lockScreen"]) ∧ r.result? .right = some (.ok ["Disabled volumeMute"]) ∧
      heeded lockAndMute.path r.log .left = true := by
  intro r
  let c := lockAndMute.alone {} .left
  let t := lockAndMute.toggle .right
  obtain ⟨held,parsed⟩ := lockHeld
  have looks : lockDone.program .right = t.looking t.deciding := by
    rw [← t.toggleRun (lockAndMuteNamed .right)]
    rfl
  have due : t.deciding c = t.looking (t.renewing c) := if_neg (by decide +kernel)
  have again : (t.informed lockDone .right lockText (t.deciding c)).program .right = t.looking (t.renewing c) := due
  have rest : List.replicate 11 Side.right = [.right,.right] ++ [.right,.right] ++ List.replicate 7 .right := rfl
  have parts : r = ((lockDone.run [.right,.right]).run [.right,.right]).run (List.replicate 7 .right) := by
    simp only [r,rest,Race.run,List.foldl_append]
  rw [parts,Toggle.lookedUndisturbed looks held parsed,Toggle.lookedUndisturbed again held parsed]
  decide +kernel

set_option maxRecDepth 10000 in
theorem bothDisabled : ∃ final, lockAndMute.Settled {} ((Race.start (fun s => (CommandLine.toggle lockAndMute.path
      (lockAndMute.intent s).name (lockAndMute.enabled s)).run) (Disk.new "home")).run
      (List.replicate 9 .left ++ List.replicate 11 .right)) final ∧
    ∀ s, (flags final).isEnabled (lockAndMute.intent s) = false := by
  have whole : lockAndMuteStart.run (List.replicate 9 .left ++ List.replicate 11 .right) =
      lockDone.run (List.replicate 11 .right) := List.foldl_append
  obtain ⟨left,right,heeds⟩ := lockThenMute
  rw [← whole] at left right heeds
  have done (s : Side) : (lockAndMuteStart.run (List.replicate 9 .left ++ List.replicate 11 .right)).result? s =
      some (.ok [toggledLine (lockAndMute.intent s) (lockAndMute.enabled s)]) := by
    cases s with
    | left => exact left
    | right => exact right
  obtain ⟨final,settled⟩ := changesSettled (fun s => (lockAndMute.intent s).name) lockAndMuteNamed
    (Disk.newTree (by decide)) (.inr (by decide)) lockAndMuteLoads lockAndMuteReads _ done
  exact ⟨final,settled,settled.kept.mpr ⟨.left,heeds⟩⟩

/- Both sides look before either of them writes: each is told that it has disabled its intent, and one of the two is
enabled in the end. -/
set_option maxRecDepth 10000 in
theorem changeLost :
    let r := (Race.start (fun s => (CommandLine.toggle lockAndMute.path (lockAndMute.intent s).name
      (lockAndMute.enabled s)).run) (Disk.new "home")).run
      ([.left,.left] ++ List.replicate 9 .right ++ List.replicate 7 .left)
    r.result? .left = some (.ok ["Disabled lockScreen"]) ∧ r.result? .right = some (.ok ["Disabled volumeMute"]) ∧
      ((Config.ofFileOrDefault lockAndMute.path).run.run r.disk).1 = .ok { disabledIntents := ["lockScreen"] } := by
  have alone : lockAndMute.alone {} .left = { disabledIntents := ["lockScreen"] } := by decide +kernel
  exact ⟨by decide +kernel,by decide +kernel,alone ▸ Config.loadedText rfl (lockAndMuteReads.alone .left)⟩

end Rivals

end VoiceCommand.CommandLine
