import VoiceCommand.Proofs.CommandLine.Toggle
import VoiceCommand.Proofs.ConfigFile
import VoiceCommand.Proofs.Files.Disk

/-! A toggle that has the disk for itself. It either refuses before the first write, or it leaves the configuration in
the file as it was but for the one flag, which the opposite toggle sets back. -/
namespace VoiceCommand.CommandLine
open Config (lockPath draftPath)

namespace Toggle
variable {t : Toggle} {d : Disk} {c next : Config}

theorem lookedAbsent (absent : d.node? t.path = none) (use : Config → Program Reply) :
    (t.looking use).run d = (use {}).run d ∧ (t.looking use).succeeds d = (use {}).succeeds d := by
  simp only [looking,Program.run,Program.succeeds,FileOp.succeeds,Disk.perform,absent,Option.isSome_none,
    Bool.false_eq_true,if_false,Bool.true_and,and_self]

theorem lookedThere {node : FileNode} (held : d.node? t.path = some node) (use : Config → Program Reply) :
    (t.looking use).run d = (t.understanding use (d.text? t.path)).run d ∧ (t.looking use).succeeds d =
      ((d.text? t.path).isSome && (t.understanding use (d.text? t.path)).succeeds d) := by
  simp only [looking,reading,Program.run,Program.succeeds,FileOp.succeeds,Disk.perform,held,Option.isSome_some,
    if_true,Bool.true_and,and_self]

theorem lookedInto (inForce : Config.InForce d t.path c) (use : Config → Program Reply) :
    (t.looking use).run d = (use c).run d ∧ (t.looking use).succeeds d = (use c).succeeds d := by
  cases inForce with
  | default absent => exact lookedAbsent absent use
  | @written text c held parsed =>
    have read : d.text? t.path = some text := by rw [Disk.text?,held]
    obtain ⟨run,succeeds⟩ := lookedThere held use
    simp only [read,understanding,parsed,Option.isSome_some,Bool.true_and] at run succeeds
    exact ⟨run,succeeds⟩

theorem lookedInVain (unread : ∀ c, ¬ Config.InForce d t.path c) (use : Config → Program Reply) :
    ∃ message, (t.looking use).run d = (.error message,d) := by
  cases held : d.node? t.path with
  | none => exact absurd (.default held) (unread {})
  | some node =>
    rw [(lookedThere held use).1]
    cases read : d.text? t.path with
    | none => exact ⟨_,rfl⟩
    | some text =>
      have file : node = .file (some text) := by
        rw [Disk.text?,held] at read
        cases node with
        | folder => cases read
        | file other => exact congrArg FileNode.file read
      cases parsed : Config.ofText? text with
      | none => exact ⟨_,by simp only [understanding,parsed]; rfl⟩
      | some c => exact absurd (.written (held.trans (congrArg some file)) parsed) (unread c)

/-- The toggle reports its change, and the text is in the file. -/
structure Saved (t : Toggle) (text : String) (result : Reply × Disk) : Prop where
  told : result.1 = .ok [t.line]
  held : result.2.node? t.path = some (.file (some text))

section
variable {text : String}

theorem replacingSaved (draft : d.node? (draftPath t.path) = some (.file (some text)))
    (succeeds : t.replacing.succeeds d = true) : Saved t text (t.replacing.run d) := by
  unfold replacing at succeeds ⊢
  have accepted : (d.perform (.rename (draftPath t.path) t.path)).1 = true := (Program.stepSucceeds succeeds).1
  obtain ⟨moved,held,replaced⟩ := Disk.renamedNode accepted
  have same : moved = some text := FileNode.file.inj (Option.some.inj (held.symm.trans draft))
  subst same
  rw [Program.stepRun,accepted,if_pos rfl]
  generalize (d.perform (.rename (draftPath t.path) t.path)).2 = after at replaced ⊢
  exact ⟨rfl,replaced⟩

theorem syncingSaved (draft : d.node? (draftPath t.path) = some (.file (some text)))
    (succeeds : t.syncing.succeeds d = true) : Saved t text (t.syncing.run d) := by
  unfold syncing at succeeds ⊢
  have synced : (d.perform (.sync (draftPath t.path))).1 = true := rfl
  obtain ⟨_,later⟩ := Program.stepSucceeds succeeds
  rw [synced,if_pos rfl] at later
  rw [Program.stepRun,synced,if_pos rfl]
  exact replacingSaved draft later

theorem writingSaved (succeeds : (t.writing next).succeeds d = true) :
    Saved t next.text ((t.writing next).run d) := by
  unfold writing at succeeds ⊢
  obtain ⟨written,later⟩ := Program.stepSucceeds succeeds
  change (d.perform (.write (draftPath t.path) next.text)).1 = true at written
  rw [written,if_pos rfl] at later
  rw [Program.stepRun,written,if_pos rfl]
  have put : (d.change (draftPath t.path) fun place => d.put place (.file (some next.text))).1 = true := written
  have draft := Disk.written put
  exact syncingSaved draft later

theorem draftingSaved (succeeds : (t.drafting next).succeeds d = true) :
    Saved t next.text ((t.drafting next).run d) := by
  unfold drafting at succeeds ⊢
  obtain ⟨created,later⟩ := Program.stepSucceeds succeeds
  change (d.perform (.create (draftPath t.path))).1 = true at created
  rw [created,if_pos rfl] at later
  rw [Program.stepRun,created,if_pos rfl]
  exact writingSaved later

theorem preparingSaved (succeeds : (t.preparing next).succeeds d = true) :
    Saved t next.text ((t.preparing next).run d) := by
  unfold preparing locking at succeeds ⊢
  obtain ⟨created,later⟩ := Program.stepSucceeds succeeds
  change (d.perform (.create (lockPath t.path))).1 = true at created
  rw [created,if_pos rfl] at later
  rw [Program.stepRun,created,if_pos rfl]
  generalize (d.perform (.create (lockPath t.path))).2 = ready at later ⊢
  obtain ⟨_,rest⟩ := Program.stepSucceeds later
  have taken : (ready.perform (.lock (lockPath t.path))).1 = true := rfl
  rw [taken,if_pos rfl] at rest
  rw [Program.stepRun,taken,if_pos rfl]
  exact draftingSaved rest

theorem savingSaved (succeeds : (t.saving next).succeeds d = true) : Saved t next.text ((t.saving next).run d) := by
  unfold saving at succeeds ⊢
  generalize Path.parent? t.path = parent at succeeds ⊢
  cases parent with
  | none => exact preparingSaved succeeds
  | some folder =>
    simp only at succeeds ⊢
    split at succeeds
    · rename_i here
      rw [if_pos here]
      exact preparingSaved succeeds
    · rename_i other
      rw [if_neg other]
      unfold enclosing at succeeds ⊢
      obtain ⟨made,later⟩ := Program.stepSucceeds succeeds
      change (d.perform (.makeFolders folder)).1 = true at made
      rw [made,if_pos rfl] at later
      rw [Program.stepRun,made,if_pos rfl]
      exact preparingSaved later

end

variable (t)

def altered (c : Config) : Config := { c with disabledIntents := t.names c }

def opposite : Toggle := { t with enabled := !t.enabled }

theorem alteredFlags (c : Config) (j : Intent) :
    (flags (t.altered c)).isEnabled j = if j = t.intent then t.enabled else (flags c).isEnabled j := by
  rw [flags,altered,names,Registry.loadedFlags,Registry.setFlag]

theorem oppositeNames (c : Config) :
    t.opposite.names (t.altered c) = ((flags c).setEnabled t.intent !t.enabled).disabledNames := by
  refine Registry.sameDisabled (funext fun j => ?_)
  rw [Registry.setFlag,Registry.setFlag,alteredFlags]
  change (if j = t.intent then !t.enabled else _) = _
  split <;> rfl

/- The other flags were not touched, and a flag has only two values. -/
theorem oppositeFlags (due : (flags c).isEnabled t.intent ≠ t.enabled) :
    (flags (t.opposite.altered (t.altered c))).isEnabled = (flags c).isEnabled := by
  funext j
  rw [alteredFlags,alteredFlags]
  change (if j = t.intent then !t.enabled else _) = _
  split
  · rename_i own
    rw [own]
    exact (Bool.eq_not_of_ne due).symm
  · rfl

section
variable {name : String} (named : Intent.parse? name = some t.intent) (inForce : Config.InForce d t.path c)
include named inForce

theorem toggleIdle (already : (flags c).isEnabled t.intent = t.enabled) :
    (toggle t.path name t.enabled).run.run d = (.ok [t.idle],d) := by
  rw [t.toggleRun named,(lookedInto inForce _).1,deciding,if_pos already]
  rfl

theorem toggleDue (due : (flags c).isEnabled t.intent ≠ t.enabled) :
    (toggle t.path name t.enabled).run.run d = (t.saving (t.altered c)).run d ∧
      (toggle t.path name t.enabled).run.succeeds d = (t.saving (t.altered c)).succeeds d := by
  rw [t.toggleRun named,(lookedInto inForce _).1,(lookedInto inForce _).2,deciding,if_neg due,
    (lookedInto inForce _).1,(lookedInto inForce _).2]
  exact ⟨rfl,rfl⟩

theorem toggleSaved (due : (flags c).isEnabled t.intent ≠ t.enabled)
    (succeeds : (toggle t.path name t.enabled).run.succeeds d = true) :
    ∃ after, (toggle t.path name t.enabled).run.run d = (.ok [t.line],after) ∧
      after.node? t.path = some (.file (some (t.altered c).text)) := by
  obtain ⟨run,same⟩ := t.toggleDue named inForce due
  have saved : Saved t (t.altered c).text ((t.saving (t.altered c)).run d) := savingSaved (same ▸ succeeds)
  rw [run]
  exact ⟨_,Prod.ext saved.told rfl,saved.held⟩

end

end Toggle

theorem toggleRefused {path name : String} (enabled : Bool) {d : Disk}
    (refused : Intent.parse? name = none ∨ ∀ c, ¬ Config.InForce d path c) :
    ∃ message, (toggle path name enabled).run.run d = (.error message,d) := by
  cases parsed : Intent.parse? name with
  | none =>
    refine ⟨"Unknown intent: " ++ Text.trim name,?_⟩
    unfold toggle intentOf
    rw [parsed]
    rfl
  | some i =>
    let t : Toggle := ⟨path,i,enabled⟩
    have run : (toggle path name enabled).run = t.looking t.deciding := t.toggleRun parsed
    rw [run]
    exact Toggle.lookedInVain (refused.resolve_left (by simp [parsed])) _

/-- The text that is written for the configuration is read back as it. -/
def ReadsBack (c : Config) : Prop := Config.ofText? c.text = some c

/-- The flag of the intent is as it was asked for, and all else is as it was. -/
structure Altered (i : Intent) (enabled : Bool) (c final : Config) : Prop where
  flag : (flags final).isEnabled i = enabled
  others : ∀ j, j ≠ i → (flags final).isEnabled j = (flags c).isEnabled j
  rest : final = { c with disabledIntents := final.disabledIntents }

theorem Toggle.alters (t : Toggle) (c : Config) : Altered t.intent t.enabled c (t.altered c) := by
  refine ⟨?_,fun j other => ?_,rfl⟩
  · rw [alteredFlags,if_pos rfl]
  · rw [alteredFlags,if_neg other]

/-- A toggle of what is no intent, or of a file without a configuration, fails and leaves everything as it is, and so
does one that has nothing to change. Any other sets the one flag in the file, where it can write and what it writes is
read back, and the opposite toggle then sets it back. -/
theorem oneFlagToggled (path name : String) (enabled : Bool) (d : Disk) :
    let task (enabled : Bool) := (toggle path name enabled).run
    let read (d : Disk) := ((Config.ofFileOrDefault path).run.run d).1
    ((Intent.parse? name = none ∨ ∀ c, ¬ Config.InForce d path c) →
      ∃ message, (task enabled).run d = (.error message,d)) ∧
    ∀ i c, Intent.parse? name = some i → Config.InForce d path c →
      ((flags c).isEnabled i = enabled →
        (task enabled).run d = (.ok [i.name ++ " is already " ++ stateName enabled],d)) ∧
      ((flags c).isEnabled i ≠ enabled → (task enabled).succeeds d = true →
        (∀ flag, ReadsBack { c with disabledIntents := ((flags c).setEnabled i flag).disabledNames }) →
        ∃ after final, (task enabled).run d = (.ok [toggledLine i enabled],after) ∧ read after = .ok final ∧
          Altered i enabled c final ∧ ((task !enabled).succeeds after = true →
            ∃ later restored, (task !enabled).run after = (.ok [toggledLine i !enabled],later) ∧
              read later = .ok restored ∧ (flags restored).isEnabled = (flags c).isEnabled ∧
              restored = { c with disabledIntents := restored.disabledIntents })) := by
  intro task read
  refine ⟨toggleRefused enabled,fun i c named inForce => ?_⟩
  let t : Toggle := ⟨path,i,enabled⟩
  refine ⟨t.toggleIdle named inForce,fun due succeeds readsBack => ?_⟩
  obtain ⟨after,ran,held⟩ := t.toggleSaved named inForce due succeeds
  have written : Config.InForce after path (t.altered c) := .written held (readsBack enabled)
  refine ⟨after,t.altered c,ran,Config.loadedInForce.mpr written,t.alters c,fun again => ?_⟩
  have set : (flags (t.altered c)).isEnabled i ≠ !enabled := by
    rw [(t.alters c).flag]
    exact (Bool.eq_not_self enabled).mp
  obtain ⟨later,ranBack,heldBack⟩ := t.opposite.toggleSaved named written set again
  have reads : ReadsBack (t.opposite.altered (t.altered c)) := by
    rw [Toggle.altered,t.oppositeNames]
    exact readsBack !enabled
  have last : Config.InForce later path (t.opposite.altered (t.altered c)) := .written heldBack reads
  exact ⟨later,_,ranBack,Config.loadedInForce.mpr last,t.oppositeFlags due,rfl⟩

set_option maxRecDepth 10000 in
theorem lockScreenReads (flag : Bool) :
    ReadsBack { disabledIntents := ((flags {}).setEnabled .lockScreen flag).disabledNames } := by
  rw [ReadsBack,Config.ofTextWritten]
  cases flag <;> decide +kernel

/- There and back, on a disk without a configuration. -/
set_option maxRecDepth 10000 in
theorem lockScreenRestored :
    let task (enabled : Bool) := (toggle "config.toml" " LockScreen" enabled).run
    let d := Disk.new "home"
    (task false).succeeds d = true ∧ ∃ after final later restored,
      (task false).run d = (.ok ["Disabled lockScreen"],after) ∧ Altered .lockScreen false {} final ∧
      (task true).succeeds after = true ∧ (task true).run after = (.ok ["Enabled lockScreen"],later) ∧
      ((Config.ofFileOrDefault "config.toml").run.run later).1 = .ok restored ∧
      (flags restored).isEnabled = (flags {}).isEnabled := by
  intro task d
  let t : Toggle := ⟨"config.toml",.lockScreen,false⟩
  have named : Intent.parse? " LockScreen" = some .lockScreen := by decide +kernel
  have inForce : Config.InForce d "config.toml" {} := .default (by decide +kernel)
  have due : (flags {}).isEnabled .lockScreen ≠ false := by decide +kernel
  have succeeds : (task false).succeeds d = true := by decide +kernel
  obtain ⟨_,known⟩ := oneFlagToggled "config.toml" " LockScreen" false d
  obtain ⟨_,toggles⟩ := known .lockScreen {} named inForce
  obtain ⟨after,final,ran,_,altered,back⟩ := toggles due succeeds lockScreenReads
  have written : Config.InForce after "config.toml" (t.altered {}) := by
    obtain ⟨same,run,held⟩ := t.toggleSaved named inForce due succeeds
    cases ran.symm.trans run
    exact .written held (lockScreenReads false)
  -- the text that was written need not be read again to see that the file can be replaced
  have again : (task true).succeeds after = true := by
    have set : (flags (t.altered {})).isEnabled t.opposite.intent ≠ t.opposite.enabled := by decide +kernel
    have reached : after = ((task false).run d).2 := (congrArg Prod.snd ran).symm
    refine (t.opposite.toggleDue named written set).2.trans ?_
    rw [reached]
    decide +kernel
  obtain ⟨later,restored,ranBack,read,flags,_⟩ := back again
  exact ⟨succeeds,after,final,later,restored,ran,altered,again,ranBack,read,flags⟩

end VoiceCommand.CommandLine
