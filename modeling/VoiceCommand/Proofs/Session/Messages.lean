import VoiceCommand.Proofs.Parser.Names
import VoiceCommand.Proofs.Session.Tally

/-! What a session shows as the outcome of a command can be read. Whatever the handlers say, and however a run ends,
no outcome and no result is blank. -/
namespace VoiceCommand

/-- The text that a result shows. -/
def Phase.message? : Phase → Option String
  | completed _ message | error message => some message
  | _ => none

/-- The text that an event tells of an outcome. -/
def Event.message? : Event → Option String
  | entered phase => phase.message?
  | finished outcome => some outcome.message
  | ignored _ => none

namespace Session
open Course (Only)

/-- If an observer is told of an outcome, then in words. -/
def Legible (a : Action) : Prop :=
  ∀ m, (Event.ofAction? a).bind Event.message? = some m → Text.allBlank m = false

theorem silentLegible {a : Action} (silent : (Event.ofAction? a).bind Event.message? = none) : Legible a := by
  intro m told
  rw [silent] at told
  cases told

theorem outerLegible {a : Action} (outer : isOuter a = true) : Legible a := by
  refine silentLegible ?_
  cases a with
  | enter phase => cases phase <;> first | rfl | cases outer
  | _ => first | rfl | cases outer

theorem recogniseLegible (s : Session) (text : String) : Only Legible (s.recognise text) :=
  recogniseOnly (fun _ => silentLegible rfl) (fun _ => silentLegible rfl) s text

theorem effortLegible (s : Session) (commands : List Command) : Only Legible (s.effort commands) :=
  effortOnly (fun _ => silentLegible rfl) (fun _ => silentLegible rfl) (fun _ _ => silentLegible rfl)
    (fun _ => silentLegible rfl) (fun _ => silentLegible rfl) s commands

theorem verdictVisible (commands : List Command) {outcomes : List Outcome} (nonempty : outcomes ≠ [])
    (visible : ∀ o ∈ outcomes, Text.allBlank o.message = false) {m : String}
    (shown : (verdict commands outcomes).message? = some m) : Text.allBlank m = false := by
  unfold verdict at shown
  split at shown
  · split at shown
    · cases shown
      rw [List.getLast?_eq_some_getLast nonempty]
      exact visible _ (List.getLast_mem nonempty)
    · cases shown
      exact errorVisible _
  · cases shown
    refine Text.visibleJoined _ (by simpa using nonempty) ?_
    simpa using visible

section
variable {s : Session} (named : "" ∉ s.parser.extensions)
include named

theorem recognisedPresentable {text past commands} (h : (s.recognise text past).2 = .ok commands) :
    ∀ c ∈ commands, Presentable c := by
  rcases recognisedCases h with ⟨_,chain⟩ | ⟨c,single,parsed⟩
  · rw [chain]
    exact Parser.chainPresentable named
  · rw [single]
    exact List.forall_mem_singleton.mpr (Parser.parsePresentable named parsed)

end

theorem conclusionLegible (s : Session) {commands : List Command} (nonempty : commands ≠ [])
    (presentable : ∀ c ∈ commands, Presentable c) (past : List Action) :
    let result := (s.effort commands past).2
    ∀ a ∈ (s.conclusion commands result).1 ++ [.enter (s.conclusion commands result).2], Legible a := by
  intro result a mem
  have spoken := Executor.chainVisible presentable s.executor past
  have reached : result = some (s.executor.executeChain commands past).2 ∨ result = none :=
    (effortCases s commands past).imp_left (congrArg Prod.snd)
  rcases reached with inTime | late
  · rw [inTime] at mem
    simp only [conclusion,List.cons_append,List.mem_cons,List.mem_append,List.mem_map,List.not_mem_nil,
      or_false] at mem
    rcases mem with rfl | ⟨o,reported,rfl⟩ | rfl
    · exact silentLegible rfl
    · rintro m ⟨⟩
      exact spoken o reported
    · exact fun m shown => verdictVisible commands (Executor.inOrderSome nonempty past) spoken shown
  · rw [late] at mem
    simp only [conclusion,List.cons_append,List.nil_append,List.mem_cons,List.not_mem_nil,or_false] at mem
    rcases mem with rfl | rfl
    · exact silentLegible rfl
    · rintro m ⟨⟩
      exact errorVisible _

theorem executeLegible (s : Session) {commands : List Command} (nonempty : commands ≠ [])
    (presentable : ∀ c ∈ commands, Presentable c) (past : List Action) :
    ∀ a ∈ (s.execute commands past).1, Legible a := by
  intro a mem
  rw [executeRun,List.mem_cons,List.mem_append] at mem
  rcases mem with rfl | worked | concluded
  · exact silentLegible rfl
  · exact effortLegible s commands _ a worked
  · exact conclusionLegible s nonempty presentable _ a concluded

section
variable {s : Session} (named : "" ∉ s.parser.extensions)
include named

theorem runLegible (text : String) (past : List Action) : ∀ a ∈ (s.run text past).1, Legible a := by
  have heard := recogniseLegible s text (past ++ [.enter (.processing text)])
  have ending : ∀ a ∈ [Action.ranSince (elapsed past),.arm .result s.settings.resultDisplay], Legible a := by
    simp [Legible,Event.ofAction?]
  intro a mem
  rcases runCases s text past with ⟨e,_,shape⟩ | ⟨commands,known,shape⟩
  · rw [shape,List.mem_cons,List.mem_append,List.mem_cons] at mem
    rcases mem with rfl | asked | rfl | ended
    · exact silentLegible rfl
    · exact heard a asked
    · rintro m ⟨⟩
      exact errorVisible e
    · exact ending a ended
  · rw [shape,List.mem_cons,List.mem_append,List.mem_append] at mem
    rcases mem with rfl | asked | executed | ended
    · exact silentLegible rfl
    · exact heard a asked
    · exact executeLegible s (recognisedSome known) (recognisedPresentable named known) _ a executed
    · exact ending a ended

theorem turnLegible {past actions : List Action} (turn : Turn s past actions) : ∀ a ∈ actions, Legible a := by
  cases turn with
  | outer outer => exact fun a mem => outerLegible (outer a mem)
  | run outer =>
    intro a mem
    rcases List.mem_append.mp mem with front | ran
    · exact outerLegible (outer a front)
    · exact runLegible named _ _ a ran

end

theorem cutLegible {actions : List Action} (legible : ∀ a ∈ actions, Legible a) (limit : Nat) :
    ∀ a ∈ cutAt limit actions, Legible a := by
  intro a mem
  rcases memCut mem with whole | wait
  · exact legible a whole
  · cases a with
    | elapse ms => exact silentLegible rfl
    | _ => cases wait

/-- All that the session has told of outcomes can be read, and so can what it shows. -/
structure Readable (s : Session) : Prop where
  named : "" ∉ s.parser.extensions
  told : ∀ a ∈ s.past, Legible a
  shown : ∀ m, s.phase.message? = some m → Text.allBlank m = false

theorem readableAfter {s : Session} (h : Readable s) {actions : List Action}
    (legible : ∀ a ∈ actions, Legible a) : Readable (s.after actions) := by
  induction actions generalizing s with
  | nil => exact h
  | cons a rest ih =>
    have own := legible a List.mem_cons_self
    refine ih ⟨?_,?_,?_⟩ fun b mem => legible b (List.mem_cons_of_mem _ mem)
    · cases a <;> exact h.named
    · have grown : (s.apply a).past = s.past ++ [a] := by cases a <;> rfl
      rw [grown]
      exact List.forall_mem_append.mpr ⟨h.told,List.forall_mem_singleton.mpr own⟩
    · cases a with
      | enter phase => exact own
      | _ => exact h.shown

theorem readableLife {start s : Session} {done : List CustomCommand} (h : Readable start)
    (life : Life start s done) : Readable s := by
  induction life with
  | fresh => exact h
  | @called s done c life ih =>
    cases c with
    | setEnabled intent enabled => exact ⟨ih.named,ih.told,ih.shown⟩
    | _ => exact readableAfter ih (turnLegible ih.named (moveTurn (moves s _)))
  | dropped c limit life ih =>
    exact readableAfter ih (cutLegible (turnLegible ih.named (moveTurn (moves _ c))) limit)
  | idled time life ih => exact readableAfter ih fun a mem => outerLegible (idleOuter _ time _ a mem)
  | equipped changes life ih => exact ⟨ih.named,ih.told,ih.shown⟩

/-- Everything that can become of a session when custom commands are also switched on and off in between. -/
inductive Led (start : Session) : Session → Prop where
  | lived {s done} (life : Life start s done) : Led start s
  | switched {s t done} (before : Led start s) (name : String) (enabled : Bool)
      (life : Life { s with store := s.store.setEnabled name enabled } t done) : Led start t

theorem readableLed {start s : Session} (h : Readable start) (led : Led start s) : Readable s := by
  induction led with
  | lived life => exact readableLife h life
  | @switched s _ _ _ name enabled life ih =>
    have between : Readable { s with store := s.store.setEnabled name enabled } := ⟨ih.named,ih.told,ih.shown⟩
    exact readableLife between life

theorem ledOn {start s t : Session} (led : Led start s)
    (on : ∀ first done, Life first s done → ∃ more, Life first t (done ++ more)) : Led start t := by
  cases led with
  | lived life =>
    obtain ⟨_,later⟩ := on _ _ life
    exact .lived later
  | switched before name enabled life =>
    obtain ⟨_,later⟩ := on _ _ life
    exact .switched before name enabled later

/- No extension is registered under a blank name, so a classifier cannot name one so. -/
theorem configuredReadable (changes : List Registry.Change) (config : Config)
    (classifierOf : SemanticSettings → Classifier) (confirmation : Option Prompt) (epoch : Timestamp) :
    Readable (ofConfig config (Registry.new.changed changes) classifierOf confirmation epoch) := by
  refine ⟨fun listed => ?_,by simp [ofConfig,new],nofun⟩
  have orderly := Registry.orderlyChange (Registry.orderlyChanged Registry.orderlyNew changes)
    (.loadDisabled config.disabledIntents)
  obtain ⟨name,mem,blank⟩ := List.mem_map.mp listed
  obtain ⟨e,_,_,filed⟩ := Registry.extensionFound orderly mem
  exact filed.nonempty blank

/-- Whatever a configured session is made to do, whatever its handlers say and however its runs end, the message of
every outcome that it reports and of every result that it shows has a character that is not blank. -/
theorem outcomesLegible (changes : List Registry.Change) (config : Config)
    (classifierOf : SemanticSettings → Classifier) (confirmation : Option Prompt) (epoch : Timestamp) {s : Session} :
    let start := ofConfig config (Registry.new.changed changes) classifierOf confirmation epoch
    Led start s →
      (∀ event ∈ Event.ofHistory s.past, ∀ m, event.message? = some m → ∃ c ∈ m.toList, Text.isBlank c = false) ∧
      (∀ m, s.phase.message? = some m → ∃ c ∈ m.toList, Text.isBlank c = false) ∧
      (∀ cs, Led start (s.calls cs)) ∧
      ∀ sent taken closing sendings, Led start (s.serve sent taken closing sendings) := by
  intro start led
  have readable := readableLed (configuredReadable changes config classifierOf confirmation epoch) led
  have visible {m : String} (h : Text.allBlank m = false) : ∃ c ∈ m.toList, Text.isBlank c = false := by
    simpa using List.all_eq_false.mp h
  refine ⟨fun event told m spoken => ?_,fun m shown => visible (readable.shown m shown),
    fun cs => ledOn led fun _ _ life => callsLife life cs,
    fun sent taken closing sendings => ledOn led fun _ _ life => servedLife life sent taken closing sendings⟩
  obtain ⟨a,mem,known⟩ := List.mem_filterMap.mp told
  exact visible (readable.told a mem m (by rw [known,Option.bind_some,spoken]))

/- The extension that the classifier names does its work without a word. What is shown is the name that it answered
to. -/
theorem lightsTold :
    let lights : Entry := .extension " Lights On" .system ⟨fun _ _ => (40,.ok (.succeeded " \t"))⟩
    let config : Config := { parser := { semantic := some { model := "small" } } }
    let start := ofConfig config (Registry.new.changed [.register lights])
      (fun _ => ⟨fun _ _ => (5,.ok ⟨"lights oN\t",.empty,.one⟩)⟩) none ⟨0,0⟩
    let s := (start.call .activate).call (.hear "It is dark.")
    s.phase = .completed true "lights oN" ∧
      .finished { Outcome.succeeded "lights oN" with nanoseconds := 40000000 } ∈ Event.ofHistory s.past ∧
      Led start s ∧ ∃ c ∈ "lights oN".toList, Text.isBlank c = false := by
  intro lights config start s
  have led : Led start s := .lived (.called (.hear "It is dark.") (.called .activate .fresh))
  have ended : s.phase = .completed true "lights oN" ∧
      .finished { Outcome.succeeded "lights oN" with nanoseconds := 40000000 } ∈ Event.ofHistory s.past := by
    decide +kernel
  obtain ⟨_,legible,_⟩ := outcomesLegible [.register lights] config _ none ⟨0,0⟩ led
  exact ⟨ended.1,ended.2,led,legible _ (by rw [ended.1,Phase.message?])⟩

end Session

end VoiceCommand
