import VoiceCommand.Proofs.Session.State

/-! Custom commands come first. A text that triggers one is taken for nothing else, no classifier is asked about it,
and it does not matter whether chains are recognised, except for a text of which nothing is left in normal form. -/
namespace VoiceCommand

namespace Parser

section
variable {store : Store} {text : String} {c : Command} (found : matchAlias? store text = some c)
include found

theorem aliasAlone (p : Parser) : p.parseChain store text = return [c] := by
  unfold parseChain
  rw [found]

/- The text is refused before it is compared with any trigger phrase if its normal form is empty. -/
theorem aliasParsed (p : Parser) : p.parse store text =
    return if Text.normalize text = "" then .error (.unrecognized text) else .ok c := by
  unfold parse
  simp only [found,String.isEmpty_iff]
  split <;> rfl

end

end Parser

namespace Session

/-- The session with chains switched on or off in its settings. -/
def chaining (s : Session) (on : Bool) : Session :=
  { s with settings := { s.settings with chaining := on } }

/-- The text that a session acts on when it hears this one: all of it, or what stands behind the wake phrase. -/
def commandText? (s : Session) (text : String) : Option String :=
  if s.phase.isListening then some (Text.trim text)
  else match s.wakeWord.detect? s.lastHit s.clock (Text.trim text) with
    | some hit => some hit.remainder
    | none => if s.phase.isShowingResult then some (Text.trim text) else none

theorem aliasTaken {s : Session} {text : String} {c : Command}
    (found : Parser.matchAlias? s.store text = some c) : s.recognise text =
      return if Text.normalize text = "" ∧ s.chains = false then .error (.unrecognized text) else .ok [c] := by
  unfold recognise
  cases chains : s.chains with
  | true =>
    rw [Parser.aliasAlone found]
    simp
    rfl
  | false =>
    rw [Parser.aliasParsed found]
    funext past
    by_cases empty : Text.normalize text = "" <;> simp [empty,Except.map]

section
variable {s : Session} {on : Bool} {text : String}

/- Recognition is the only part of a session that looks at whether chains are recognised. -/
theorem chainingProcess (same : (s.chaining on).recognise text = s.recognise text) :
    (s.chaining on).process text = s.process text := by
  unfold process run
  rw [same]
  rfl

theorem chainingHear {spoken : String} (aims : s.commandText? spoken = some text)
    (same : (s.chaining on).recognise text = s.recognise text) :
    (s.chaining on).hear spoken = s.hear spoken := by
  have processed := chainingProcess same
  have parts : (s.chaining on).phase = s.phase ∧ (s.chaining on).wakeWord = s.wakeWord ∧
      (s.chaining on).lastHit = s.lastHit ∧ (s.chaining on).clock = s.clock ∧
      (s.chaining on).deactivate = s.deactivate ∧ (s.chaining on).enterListening = s.enterListening :=
    ⟨rfl,rfl,rfl,rfl,rfl,rfl⟩
  unfold commandText? at aims
  unfold hear
  simp only [parts]
  cases listening : s.phase.isListening with
  | true =>
    simp only [listening,if_true,Option.some.injEq] at aims
    simp only [if_true,aims,processed]
  | false =>
    simp only [listening,Bool.false_eq_true,if_false] at aims ⊢
    cases heard : s.wakeWord.detect? s.lastHit s.clock (Text.trim spoken) with
    | some hit =>
      simp only [heard,Option.some.injEq] at aims
      simp only [aims,processed]
    | none =>
      simp only [heard] at aims
      cases showing : s.phase.isShowingResult with
      | false => simp [showing] at aims
      | true =>
        simp only [showing,if_true,Option.some.injEq] at aims
        simp only [aims,processed]

theorem chainingAfter (actions : List Action) : (s.chaining on).after actions = (s.after actions).chaining on := by
  induction actions generalizing s with
  | nil => rfl
  | cons a rest ih =>
    have first : (s.chaining on).apply a = (s.apply a).chaining on := by cases a <;> rfl
    rw [afterCons,afterCons,first,ih]

/- Both sessions drop what they missed, and hear the rest alike. -/
theorem chainingCall {call : Call} {spoken : String} (speaks : spokenText call = some spoken)
    (aims : s.commandText? spoken = some text)
    (same : (s.chaining on).recognise text = s.recognise text) :
    (s.chaining on).course call = s.course call ∧ (s.chaining on).call call = (s.call call).chaining on := by
  have heard := chainingHear aims same
  have course : (s.chaining on).course call = s.course call := by
    cases call with
    | hear other =>
      cases Option.some.inj speaks
      exact heard
    | hearSegment segment =>
      cases Option.some.inj speaks
      simp only [Session.course,hearSegment,heard]
      rfl
    | _ => cases speaks
  refine ⟨course,?_⟩
  have adjusted : ∀ t : Session, t.adjust call = t := by
    cases call <;> first | exact fun _ => rfl | cases speaks
  unfold Session.call
  rw [course,adjusted,adjusted,chainingAfter]
  rfl

end

/-- A text that triggers a custom command is recognised as this command alone, with nobody asked: among chains in
any case, and as one command unless its normal form is empty. A session that acts on the text recognises it either
way, and does the same whether its settings allow chains or not; with an empty normal form it needs the chains. -/
theorem aliasFirst (s : Session) (text : String) (c : Command)
    (found : Parser.matchAlias? s.store text = some c) :
    s.parser.parseChain s.store text = (return [c]) ∧
      s.parser.parse s.store text =
        (return if Text.normalize text = "" then .error (.unrecognized text) else .ok c) ∧
      (Text.normalize text = "" → s.recognise text =
        return if s.chains then .ok [c] else .error (.unrecognized text)) ∧
      (Text.normalize text ≠ "" → s.recognise text = (return .ok [c]) ∧
        ∀ call spoken on, spokenText call = some spoken → s.commandText? spoken = some text →
          (s.chaining on).course call = s.course call ∧
            (s.chaining on).call call = (s.call call).chaining on) := by
  have taken := aliasTaken found
  refine ⟨Parser.aliasAlone found s.parser,Parser.aliasParsed found s.parser,fun empty => ?_,fun left => ?_⟩
  · rw [taken]
    cases s.chains <;> simp [empty]
  · have same : ∀ on, (s.chaining on).recognise text = s.recognise text := fun on => by
      rw [taken,aliasTaken (s := s.chaining on) found]
      simp [left]
    refine ⟨by simpa [left] using taken,fun call spoken on speaks aims => ?_⟩
    exact chainingCall speaks aims (same on)

/- The trigger phrase could be split into two commands. -/
theorem quietFirst :
    let quiet := { CustomCommand.new "Quiet" "mute and lock screen" with steps := [⟨.volumeMute,.empty⟩] }
    let s := { desk with store := [quiet] }
    let c := Parser.aliasCommand "Mute and lock screen" quiet
    (Parser.splitChain? s.parser.minConfidence "Mute and lock screen").isSome = true ∧
      Parser.matchAlias? s.store "Mute and lock screen" = some c ∧
      s.parser.parseChain s.store "Mute and lock screen" = (return [c]) ∧
      s.parser.parse s.store "Mute and lock screen" = (return .ok c) ∧
      ∀ on, (s.chaining on).call (.hear "Hey type: Mute and lock screen") =
        (s.call (.hear "Hey type: Mute and lock screen")).chaining on := by
  intro quiet s c
  have found : Parser.matchAlias? s.store "Mute and lock screen" = some c := by decide +kernel
  have left : Text.normalize "Mute and lock screen" ≠ "" := by decide +kernel
  have aims : s.commandText? "Hey type: Mute and lock screen" = some "Mute and lock screen" := by
    decide +kernel
  obtain ⟨alone,parsed,_,taken⟩ := aliasFirst s "Mute and lock screen" c found
  rw [if_neg left] at parsed
  exact ⟨by decide +kernel,found,alone,parsed,fun on => ((taken left).2 (.hear _) _ on rfl aims).2⟩

/- A trigger phrase that is nothing but punctuation runs where chains are recognised, and else is unknown. -/
theorem marksUnparsed :
    let loud := { CustomCommand.new "Loud" "!!!" with steps := [⟨.volumeMute,.empty⟩] }
    let s := { desk with store := [loud] }.calls [.activate]
    let c := Parser.aliasCommand "!!!" loud
    Parser.matchAlias? s.store "!!!" = some c ∧
      (s.parser.parseChain s.store "!!!" s.past).2 = [c] ∧
      (s.parser.parse s.store "!!!" s.past).2.toOption = none ∧
      ((s.chaining true).call (.hear "!!!")).phase = .completed true "Loud: 1 actions done" ∧
      ((s.chaining false).call (.hear "!!!")).phase =
        .error (CommandError.unrecognized "!!!").message := by
  decide +kernel

end Session

end VoiceCommand
