import VoiceCommand.Proofs.Session.Activation
import VoiceCommand.Proofs.Text.Normal
import VoiceCommand.Proofs.WakeWord.Cut

/-! Cancelling. A cancel phrase that is heard ends the session whatever it is doing, and so does one behind
the wake phrase wherever the wake phrase is listened for. -/
namespace VoiceCommand

theorem cancelTrimmed (text : String) : isCancelPhrase (Text.trim text) = isCancelPhrase text := by
  simp [isCancelPhrase,Text.normalizeTrim]

theorem cancelVisible {text : String} (h : isCancelPhrase text = true) : text.isEmpty = false := by
  cases empty : text.isEmpty with
  | false => rfl
  | true =>
    rw [String.isEmpty_iff.mp empty] at h
    exact absurd h (by decide)

namespace Session
open Moment (isService)

/-- The call leads back to the beginning, with no timer and no service. -/
structure Cancelled (s : Session) (c : Call) : Prop where
  phase : (s.call c).phase = .inactive
  unarmed : (s.call c).deadline = none
  unserved : ∀ a ∈ (s.course c s.past).1, isService a = false

def Unmissed (s : Session) (c : Call) : Prop :=
  ∀ segment, c = .hearSegment segment → s.missed segment.received = false

section
variable {s : Session} {c : Call} {text : String}

theorem spokenHeard (spoken : spokenText c = some text) (unmissed : Unmissed s c) :
    s.course c = s.hear text ∧ s.call c = s.after (s.hear text s.past).1 := by
  cases c with
  | hear other =>
    cases Option.some.inj spoken
    exact ⟨rfl,rfl⟩
  | hearSegment segment =>
    cases Option.some.inj spoken
    have heard : s.hearSegment segment = s.hear segment.text := by
      simp [hearSegment,unmissed segment rfl]
    exact ⟨heard,by rw [call,course,heard]; rfl⟩
  | _ => cases spoken

/- Whatever came before, the last two actions decide. -/
theorem endsCancelled (spoken : spokenText c = some text) (unmissed : Unmissed s c) (front : List Action)
    (unserved : ∀ a ∈ front, isService a = false)
    (ends : (s.hear text s.past).1 = front ++ [.disarm,.enter .inactive]) : Cancelled s c := by
  obtain ⟨course,call⟩ := spokenHeard spoken unmissed
  rw [ends,afterAppend] at call
  refine ⟨by rw [call]; rfl,by rw [call]; rfl,fun a mem => ?_⟩
  rw [course,ends] at mem
  rcases List.mem_append.mp mem with mem | mem
  · exact unserved a mem
  · simp only [List.mem_cons,List.not_mem_nil,or_false] at mem
    rcases mem with rfl | rfl <;> rfl

theorem phraseCancels (spoken : spokenText c = some text) (unmissed : Unmissed s c)
    (phrase : isCancelPhrase text = true) : Cancelled s c := by
  have own : isCancelPhrase (Text.trim text) = true := by rw [cancelTrimmed,phrase]
  have heard : (s.hear text s.past).1 = .disarm :: if s.phase.isInactive then [] else [.enter .inactive] := by
    rw [← deactivateRun s s.past]
    simp [hear,cancelVisible own,own]
  cases already : s.phase.isInactive with
  | false => exact endsCancelled spoken unmissed [] (by simp) (by simp [heard,already])
  | true =>
    obtain ⟨course,call⟩ := spokenHeard spoken unmissed
    rw [already] at heard
    rw [heard] at call
    refine ⟨by rw [call]; exact inactivePhase already,by rw [call]; rfl,?_⟩
    rw [course,heard]
    simp [isService]

variable {hit : Hit} (spoken : spokenText c = some text) (unmissed : Unmissed s c)
  (exact : s.wakeWord.exactHit? (Text.trim text) = some hit)
include spoken unmissed exact

theorem wokenCancels (phrase : isCancelPhrase hit.remainder = true) (idle : s.phase.isBusy = false)
    (unheard : s.phase.isListening = false) (awake : s.wakeWord.coolingDown s.lastHit s.clock = false) :
    Cancelled s c := by
  cases whole : isCancelPhrase text with
  | true => exact phraseCancels spoken unmissed whole
  | false =>
    have visible := (WakeWord.exactPhrase exact).2
    have detected := WakeWord.exactDetected exact awake
    have processed :
        (s.process hit.remainder (s.past ++ .wake :: s.greeting)).1 = [.disarm,.enter .inactive] := by
      rw [processRun,if_pos phrase]
    refine endsCancelled spoken unmissed (.wake :: s.greeting) (by simp [greeting,isService]) ?_
    have quiet : elapsed (s.past ++ [.wake]) = elapsed s.past := by rw [elapsedAppend]; rfl
    simp only [hear,visible,cancelTrimmed,whole,idle,unheard,detected,Bool.false_eq_true,if_false,
      Course.bindRun,Course.performRun,listeningRun s quiet,cancelVisible phrase]
    simpa using processed

theorem deafTaken (whole : isCancelPhrase text = false) (idle : s.phase.isBusy = false)
    (deaf : s.phase.isListening = true ∨
      (s.phase.isShowingResult = true ∧ s.wakeWord.coolingDown s.lastHit s.clock = true)) :
    s.course c = s.process (Text.trim text) := by
  have visible := (WakeWord.exactPhrase exact).2
  rw [(spokenHeard spoken unmissed).1]
  simp only [hear,visible,cancelTrimmed,whole,idle,Bool.false_eq_true,if_false]
  rcases deaf with listening | ⟨showing,cooling⟩
  · simp [listening]
  · simp [showing,WakeWord.detect?,cooling]

end

theorem inactiveCancels {s : Session} (settled : Settled s) (inactive : s.phase = .inactive) {c : Call}
    {text : String} {hit : Hit} (spoken : spokenText c = some text) (unmissed : Unmissed s c)
    (exact : s.wakeWord.exactHit? (Text.trim text) = some hit)
    (phrase : isCancelPhrase hit.remainder = true) : Cancelled s c := by
  have idle : s.phase.isBusy = false := by rw [inactive]; rfl
  have unheard : s.phase.isListening = false := by rw [inactive]; rfl
  cases cooling : s.wakeWord.coolingDown s.lastHit s.clock with
  | false => exact wokenCancels spoken unmissed exact phrase idle unheard cooling
  | true =>
    cases whole : isCancelPhrase text with
    | true => exact phraseCancels spoken unmissed whole
    | false =>
      have unarmed : s.deadline = none :=
        (settledCoherent settled).inactive.mp (by rw [inactive]; rfl)
      have hidden : s.phase.isShowingResult = false := by rw [inactive]; rfl
      have silent : (s.hear text s.past).1 = [] := by
        simp [hear,(WakeWord.exactPhrase exact).2,cancelTrimmed,whole,idle,unheard,WakeWord.detect?,
          cooling,hidden]
      obtain ⟨course,call⟩ := spokenHeard spoken unmissed
      rw [silent] at call
      refine ⟨by rw [call]; exact inactive,by rw [call]; exact unarmed,?_⟩
      rw [course,silent]
      simp

/-- Unless it is a segment that arrived during the last run, a text that is a cancel phrase ends the session.
So does one behind the wake phrase while the session is inactive, and while it shows a result unless the
wake phrase was just heard; in the latter case, and when listening, the whole text is the command. -/
theorem cancelPhraseEnds (registry : Registry) (wakeWord : WakeWord) (parser : Parser) (store : Store)
    (settings : SessionSettings) (confirmation : Option Prompt) (epoch : Timestamp) (cs : List Call)
    (c : Call) (text : String) :
    let s := (Session.new registry wakeWord parser store settings confirmation epoch).calls cs
    spokenText c = some text → (∀ segment, c = .hearSegment segment → s.missed segment.received = false) →
      (isCancelPhrase text = true → Cancelled s c) ∧
      ∀ hit, s.wakeWord.exactHit? (Text.trim text) = some hit → isCancelPhrase hit.remainder = true →
        (s.phase.isInactive = true ∨ (s.phase.isShowingResult = true ∧
          s.wakeWord.coolingDown s.lastHit s.clock = false) → Cancelled s c) ∧
        (s.phase.isListening = true ∨ (s.phase.isShowingResult = true ∧
          s.wakeWord.coolingDown s.lastHit s.clock = true) → isCancelPhrase text = false →
            s.course c = s.process (Text.trim text)) := by
  intro s spoken unmissed
  obtain ⟨settled,_⟩ := newSettled registry wakeWord parser store settings confirmation epoch cs
  have idle : s.phase.isBusy = false := (settledCoherent settled).idle
  refine ⟨phraseCancels spoken unmissed,fun hit exact phrase => ⟨?_,fun deaf whole => ?_⟩⟩
  · rintro (inactive | ⟨showing,awake⟩)
    · exact inactiveCancels settled (inactivePhase inactive) spoken unmissed exact phrase
    · have unheard : s.phase.isListening = false := by
        revert showing
        cases s.phase <;> simp [Phase.isShowingResult,Phase.isListening]
      exact wokenCancels spoken unmissed exact phrase idle unheard awake
  · exact deafTaken spoken unmissed exact whole idle deaf

theorem cancelledAtDesk :
    Cancelled (desk.calls [.activate]) (.hearSegment ⟨"  Never   mind. ",0⟩) ∧
      Cancelled desk (.hear "Hey type, cancel!") ∧
      (desk.calls [.activate]).course (.hear "hey type cancel") =
        (desk.calls [.activate]).process "hey type cancel" := by
  have ends (cs : List Call) := cancelPhraseEnds desk.registry desk.wakeWord desk.parser desk.store
    desk.settings desk.confirmation desk.epoch cs
  refine ⟨?_,?_,?_⟩
  · refine (ends [.activate] (.hearSegment ⟨"  Never   mind. ",0⟩) _ rfl ?_).1 (by decide +kernel)
    intro segment same
    cases same
    decide +kernel
  · have exact : desk.wakeWord.exactHit? (Text.trim "Hey type, cancel!") = some ⟨.exact,"cancel!"⟩ := by
      decide +kernel
    obtain ⟨_,woken⟩ := ends [] (.hear "Hey type, cancel!") _ rfl (by simp)
    exact (woken _ exact (by decide +kernel)).1 (.inl rfl)
  · have exact : desk.wakeWord.exactHit? (Text.trim "hey type cancel") = some ⟨.exact,"cancel"⟩ := by
      decide +kernel
    have trimmed : Text.trim "hey type cancel" = "hey type cancel" := by decide +kernel
    obtain ⟨_,woken⟩ := ends [.activate] (.hear "hey type cancel") _ rfl (by simp)
    have taken := (woken _ exact (by decide +kernel)).2 (.inl rfl) (by decide +kernel)
    rwa [trimmed] at taken

/- Behind the wake phrase while the session listens, and while it shows the result of a run so soon that the
wake phrase is not heard again; and alone, but sent while a run was under way. -/
theorem cancelUnheeded :
    let listening := desk.calls [.activate]
    let showing := desk.calls [.hear "hey type mute"]
    let ran := desk.calls [.activate,.hearSegment ⟨"mute",0⟩]
    isCancelPhrase "cancel" = true ∧
      (∀ s ∈ [listening,showing], s.phase.isBusy = false ∧
        s.wakeWord.exactHit? (Text.trim "hey type cancel") = some ⟨.exact,"cancel"⟩ ∧
        (s.call (.hear "hey type cancel")).phase.isInactive = false ∧
        (s.call (.hear "hey type cancel")).deadline ≠ none) ∧
      (ran.call (.hearSegment ⟨"cancel",50⟩)).phase.isInactive = false ∧
      (ran.call (.hearSegment ⟨"cancel",50⟩)).deadline ≠ none := by
  decide +kernel

end Session

end VoiceCommand
