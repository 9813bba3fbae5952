import VoiceCommand.Proofs.Registry.Changes
import VoiceCommand.Proofs.Session.Begun
import VoiceCommand.Proofs.Session.Usage
import VoiceCommand.Session.Queue

/-! What is left of the store after a session. Nothing in it has changed but the notes on uses, and these count
every custom command of which the first step was reached. -/
namespace VoiceCommand

/-- The second is the first as it is now: untouched, or with notes on its uses. -/
structure UsedSince (c d : CustomCommand) : Prop where
  same : d = { c with useCount := d.useCount, lastUsedAt := d.lastUsedAt }
  dated : d = c ∨ d.lastUsedAt.isSome = true

theorem usedAgain {c d : CustomCommand} (h : UsedSince c d) (time : Timestamp) : UsedSince c (d.recordUse time) :=
  ⟨by rw [h.same]; rfl,.inr rfl⟩

namespace Store

def total (store : Store) : Nat := (store.map fun c => c.useCount.toNat).sum

/-- The store after uses of custom commands of these names. -/
def used (store : Store) (uses : List (String × Timestamp)) : Store :=
  uses.foldl (fun store use => store.recordUse use.1 use.2) store

theorem recordedKept {first store : Store} (h : List.Forall₂ UsedSince first store) (name : String)
    (time : Timestamp) : List.Forall₂ UsedSince first (store.recordUse name time) := by
  unfold recordUse
  induction h with
  | nil => exact .nil
  | cons since rest ih =>
    rw [modifyFirst]
    split
    · exact .cons (usedAgain since time) rest
    · exact .cons since ih

theorem usedKept {first store : Store} (h : List.Forall₂ UsedSince first store)
    (uses : List (String × Timestamp)) : List.Forall₂ UsedSince first (store.used uses) := by
  induction uses generalizing store with
  | nil => exact h
  | cons use rest ih => exact ih (recordedKept h use.1 use.2)

section
variable (store : Store) (name : String) (time : Timestamp)

theorem foundRecorded (other : String) : (store.recordUse name time).find? (fun c => c.name == other) =
    (store.find? fun c => c.name == other).map fun c => if c.name = name then c.recordUse time else c := by
  unfold recordUse
  induction store with
  | nil => rfl
  | cons c rest ih =>
    rw [modifyFirst]
    by_cases named : c.name = name
    · rw [if_pos (beq_iff_eq.mpr named)]
      by_cases asked : c.name = other
      · have still : (c.recordUse time).name = other := asked
        simp [still,asked,named.symm.trans asked]
      · have still : (c.recordUse time).name ≠ other := asked
        rw [List.find?_cons_of_neg (by simpa using still),List.find?_cons_of_neg (by simpa using asked)]
        cases found : rest.find? fun d => d.name == other with
        | none => rfl
        | some d =>
          have own : d.name = other := by simpa using List.find?_some found
          have apart : d.name ≠ name := fun same => asked (named.trans (same.symm.trans own))
          rw [Option.map_some,if_neg apart]
    · rw [if_neg (by simpa using named)]
      by_cases asked : c.name = other
      · simp [asked,asked ▸ named]
      · rw [List.find?_cons_of_neg (by simpa using asked),List.find?_cons_of_neg (by simpa using asked),ih]

theorem recordedTotal {c : CustomCommand} (found : store.find? (fun c => c.name == name) = some c)
    (below : c.useCount.toNat + 1 < UInt64.size) : (store.recordUse name time).total = store.total + 1 := by
  unfold recordUse
  induction store with
  | nil => cases found
  | cons d rest ih =>
    rw [modifyFirst]
    by_cases named : d.name = name
    · rw [List.find?_cons_of_pos (by simpa using named)] at found
      cases found
      have counted := countGrows below time
      rw [if_pos (by simpa using named)]
      simp only [total,List.map_cons,List.sum_cons,counted]
      omega
    · rw [List.find?_cons_of_neg (by simpa using named)] at found
      have later := ih found
      rw [if_neg (by simpa using named)]
      simp only [total,List.map_cons,List.sum_cons] at later ⊢
      omega

end

theorem untouched (store : Store) : List.Forall₂ UsedSince store store :=
  List.forall₂_same.mpr fun _ _ => ⟨rfl,.inl rfl⟩

theorem sameNames {first store : Store} (h : List.Forall₂ UsedSince first store) :
    store.map (·.name) = first.map (·.name) := by
  induction h with
  | nil => rfl
  | cons since rest ih =>
    rw [List.map_cons,List.map_cons,ih,since.same]

/-- No counter gets to its limit by uses of these names. -/
def Holds (store : Store) (names : List String) : Prop :=
  ∀ c, store.find? (fun d => d.name == c.name) = some c → c.useCount.toNat + names.count c.name < UInt64.size

/- A use takes one from what is left to its own counter, and nothing from the others. -/
theorem holdsLater {store : Store} {name : String} {names : List String} (holds : store.Holds (name :: names))
    (time : Timestamp) : (store.recordUse name time).Holds names := by
  intro d there
  rw [foundRecorded] at there
  obtain ⟨b,before,rfl⟩ := Option.map_eq_some_iff.mp there
  have asked : b.name = (if b.name = name then b.recordUse time else b).name := by
    simpa using List.find?_some before
  have bound := holds b (by rw [asked]; exact before)
  rw [← asked]
  split
  · rename_i own
    rw [own,List.count_cons_self] at bound
    rw [own,countGrows (by omega)]
    omega
  · rename_i apart
    rwa [List.count_cons_of_ne (Ne.symm apart)] at bound

theorem usedTotal {store : Store} {uses : List (String × Timestamp)}
    (known : ∀ use ∈ uses, use.1 ∈ store.map (·.name)) (holds : store.Holds (uses.map (·.1))) :
    (store.used uses).total = store.total + uses.length := by
  induction uses generalizing store with
  | nil => rfl
  | cons use rest ih =>
    obtain ⟨name,time⟩ := use
    obtain ⟨e,inside,named⟩ := List.mem_map.mp (known _ List.mem_cons_self)
    have present : (store.find? fun c => c.name == name).isSome = true :=
      List.find?_isSome.mpr ⟨e,inside,beq_iff_eq.mpr named⟩
    obtain ⟨c,found⟩ := Option.isSome_iff_exists.mp present
    have own : c.name = name := by simpa using List.find?_some found
    have below : c.useCount.toNat + 1 < UInt64.size := by
      have bound := holds c (own ▸ found)
      simp only [List.map_cons,own,List.count_cons_self] at bound
      omega
    have names := sameNames (recordedKept (untouched store) name time)
    have later := @ih (store.recordUse name time)
      (fun use mem => names ▸ known use (List.mem_cons_of_mem _ mem)) (holdsLater holds time)
    change ((store.recordUse name time).used rest).total = _
    rw [later,recordedTotal store name time found below,List.length_cons]
    omega

end Store

namespace Session

theorem storeAfter (s : Session) (actions : List Action) : ∃ uses : List (String × Timestamp),
    uses.map (·.1) = credits actions ∧ (s.after actions).store = s.store.used uses := by
  induction actions generalizing s with
  | nil => exact ⟨[],rfl,rfl⟩
  | cons a rest ih =>
    obtain ⟨uses,names,store⟩ := ih (s.apply a)
    cases a with
    | credit name => exact ⟨(name,s.epoch.later s.clock) :: uses,congrArg (name :: ·) names,store⟩
    | _ => exact ⟨uses,names,store⟩

/-- Everything that can become of a session from `start` on, with the custom commands of which it has reached the
first step. -/
inductive Life (start : Session) : Session → List CustomCommand → Prop
  | fresh : Life start start []
  | called {s done} (c : Call) (h : Life start s done) :
      Life start (s.call c) (done ++ s.begun s.past (s.course c s.past).1)
  /-- The call is given up after so many milliseconds. -/
  | dropped {s done} (c : Call) (limit : Nat) (h : Life start s done) :
      Life start (s.after (cutAt limit (s.course c s.past).1))
        (done ++ s.begun s.past (cutAt limit (s.course c s.past).1))
  /-- The session waits for its queue. -/
  | idled {s done} (time : Nat) (h : Life start s done) :
      Life start (s.follow (s.idleUntil time)).1 (done ++ s.begun s.past (s.idleUntil time s.past).1)
  | equipped {s done} (changes : List Registry.Change) (h : Life start s done) :
      Life start { s with registry := s.registry.changed changes } done

/-- The store has been used by these custom commands, in order, and by no others. -/
def Tallied (start s : Session) (done : List CustomCommand) : Prop :=
  ∃ uses : List (String × Timestamp), uses.map (·.1) = done.map (·.name) ∧
    (∀ use ∈ uses, use.1 ∈ start.store.map (·.name)) ∧ s.store = start.store.used uses

theorem talliedTurn {start s : Session} {done : List CustomCommand} (tallied : Tallied start s done)
    {actions : List Action} (turn : Turn s s.past actions) (limit : Nat) :
    Tallied start (s.after (cutAt limit actions)) (done ++ s.begun s.past (cutAt limit actions)) := by
  obtain ⟨uses,names,known,store⟩ := tallied
  obtain ⟨more,credited,later⟩ := storeAfter s (cutAt limit actions)
  have fresh := credited.trans (turnBegun turn limit)
  refine ⟨uses ++ more,by rw [List.map_append,List.map_append,names,fresh],?_,?_⟩
  · have stored : s.store.map (·.name) = start.store.map (·.name) := by
      rw [store]
      exact Store.sameNames (Store.usedKept (Store.untouched _) uses)
    refine List.forall_mem_append.mpr ⟨known,fun use mem => ?_⟩
    have listed : use.1 ∈ more.map (·.1) := List.mem_map_of_mem mem
    rw [fresh] at listed
    obtain ⟨custom,begun,same⟩ := List.mem_map.mp listed
    rw [← stored,← same]
    exact List.mem_map_of_mem (begunStored custom begun)
  · rw [later,store]
    exact List.foldl_append.symm

theorem idleOuter (s : Session) (time : Nat) (past : List Action) :
    ∀ a ∈ (s.idleUntil time past).1, isOuter a = true := by
  have only : Course.Only (fun a => isOuter a = true) (s.idleUntil time) := by
    have wait (ms : Nat) := Course.Only.wait (p := fun a => isOuter a = true) (fun _ => rfl) ms
    unfold idleUntil
    split
    · split
      · exact (wait _).bind fun _ => Course.Only.bind (fireOuter s _) fun _ => wait _
      · exact wait _
    · exact wait _
  exact only past

theorem lifeTallied {start s : Session} {done : List CustomCommand} (h : Life start s done) :
    Tallied start s done := by
  have uncut {s : Session} {done : List CustomCommand} (tallied : Tallied start s done) {actions : List Action}
      (turn : Turn s s.past actions) : Tallied start (s.after actions) (done ++ s.begun s.past actions) := by
    have whole := talliedTurn tallied turn (elapsed actions)
    rwa [cutWhole (Nat.le_refl _)] at whole
  induction h with
  | fresh => exact ⟨[],rfl,by simp,rfl⟩
  | @called s done c h ih =>
    cases c with
    | setEnabled intent enabled =>
      have nothing : s.begun s.past (s.course (.setEnabled intent enabled) s.past).1 = [] := rfl
      rw [nothing,List.append_nil]
      exact ih
    | _ => exact uncut ih (moveTurn (moves s _))
  | dropped c limit h ih => exact talliedTurn ih (moveTurn (moves _ c)) limit
  | idled time h ih => exact uncut ih (.outer (idleOuter _ time _))
  | equipped changes h ih => exact ih

theorem servedLife {start s : Session} {done : List CustomCommand} (h : Life start s done)
    (sent : Nat) (taken : List Nat) (closing : Nat) (sendings : List Sending) :
    ∃ more, Life start (s.serve sent taken closing sendings) (done ++ more) := by
  induction sendings generalizing s done sent taken with
  | nil => exact ⟨_,.idled _ h⟩
  | cons x rest ih =>
    let full := queueSize ≤ taken.length
    let next := if full then max (sent + x.delay) (taken.headD 0) else sent + x.delay
    let idle := (s.follow (s.idleUntil next)).1
    have heard := Life.called (.hearSegment ⟨x.text,sent + x.delay⟩) (h.idled next)
    obtain ⟨more,later⟩ := ih heard next ((if full then taken.drop 1 else taken) ++ [idle.clock])
    rw [List.append_assoc,List.append_assoc] at later
    exact ⟨_,later⟩

theorem callsLife {start s : Session} {done : List CustomCommand} (h : Life start s done) (cs : List Call) :
    ∃ more, Life start (s.calls cs) (done ++ more) := by
  induction cs generalizing s done with
  | nil => exact ⟨[],(List.append_nil done).symm ▸ h⟩
  | cons c rest ih =>
    obtain ⟨more,later⟩ := ih (h.called c)
    rw [List.append_assoc] at later
    exact ⟨_,later⟩

/-- Whatever a session is made to do, in whatever order, and also if a call is given up, the store keeps the
custom commands of the configuration, each in its place and with everything that the user wrote, and one that was
used has a date. As long as no counter runs over, the counters together have grown by the number of custom commands
of which the first step was reached, however they ended. -/
theorem customCommandsKept (config : Config) (registry : Registry) (classifierOf : SemanticSettings → Classifier)
    (confirmation : Option Prompt) (epoch : Timestamp) {s : Session} {done : List CustomCommand} :
    let start := ofConfig config registry classifierOf confirmation epoch
    Life start s done →
      List.Forall₂ UsedSince config.customCommands s.store ∧
      (Store.Holds config.customCommands (done.map (·.name)) →
        s.store.total = Store.total config.customCommands + done.length) ∧
      (∀ cs, ∃ more, Life start (s.calls cs) (done ++ more)) ∧
      ∀ sent taken closing sendings, ∃ more, Life start (s.serve sent taken closing sendings) (done ++ more) := by
  intro start life
  obtain ⟨uses,names,known,store⟩ := lifeTallied life
  have first : start.store = config.customCommands := rfl
  rw [first] at known store
  refine ⟨?_,fun holds => ?_,callsLife life,servedLife life⟩
  · rw [store]
    exact Store.usedKept (Store.untouched _) uses
  · have count : uses.length = done.length := by simpa using congrArg List.length names
    rw [store,Store.usedTotal known (names ▸ holds),count]

/- The second of two custom commands of one name is given up before it is done, and it still counts, for the first;
one without steps is refused and does not. -/
theorem lightsTallied :
    let lights (trigger : String) := { CustomCommand.new "Lights" trigger with steps := [⟨.volumeMute,.empty⟩] }
    let custom := [lights "lights on",lights "lights off",CustomCommand.new "Nothing" "do nothing"]
    let slow := Registry.new.setHandler .volumeMute ⟨fun _ _ => (5000,.ok (.succeeded "Muted"))⟩
    let start := ofConfig { customCommands := custom, session := { executionTimeout := 1 } } slow
      (fun _ => ⟨fun _ _ => (0,.error "")⟩) none ⟨0,0⟩
    let late := (start.call .activate).call (.hear "Lights off!")
    let refused := ((late.call .tick).call .activate).call (.hear "do nothing")
    late.phase = .error "Command timed out after 1s" ∧ refused.phase = .error "Nothing has no actions" ∧
      List.Forall₂ UsedSince custom refused.store ∧
      refused.store.map (fun c => (c.trigger,c.useCount)) = [("lights on",1),("lights off",0),("do nothing",0)] ∧
      Life start refused [lights "lights off"] ∧ refused.store.total = Store.total custom + 1 := by
  intro lights custom slow start late refused
  have lived : ∃ done, Life start refused done ∧ done = [lights "lights off"] :=
    ⟨_,.called (.hear "do nothing") (.called .activate (.called .tick
      (.called (.hear "Lights off!") (.called .activate .fresh)))),by decide +kernel⟩
  obtain ⟨_,life,rfl⟩ := lived
  obtain ⟨kept,counted,_⟩ := customCommandsKept _ _ _ _ _ life
  have low : ∀ c ∈ custom, c.useCount.toNat + ["Lights"].count c.name < UInt64.size := by decide +kernel
  exact ⟨by decide +kernel,by decide +kernel,kept,by decide +kernel,life,
    counted fun c found => low c (List.mem_of_find?_eq_some found)⟩

end Session

end VoiceCommand
