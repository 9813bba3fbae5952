import VoiceCommand.Proofs.Session.Cancel
import VoiceCommand.Proofs.Text.Case

/-! The wake phrase and a command in one text, or in two. What stands behind the phrase is taken as if it had been
said to a session that listens already. -/
namespace VoiceCommand

namespace Session

/-- The session once it has heard the wake phrase and nothing else. -/
def greeted (s : Session) : Session := s.after (.wake :: s.greeting)

section
variable {s : Session} {text : String} {hit : Hit}

/-- The parts of a session that decide what a command does. -/
def means (s : Session) : Registry × Parser × Option Prompt × SessionSettings × Store :=
  (s.registry,s.parser,s.confirmation,s.settings,s.store)

theorem processAlike {s t : Session} (same : t.means = s.means) (text : String) :
    t.process text = s.process text := by
  simp only [means,Prod.mk.injEq] at same
  obtain ⟨registry,parser,confirmation,settings,store⟩ := same
  have heard : t.recognise = s.recognise := by
    funext text
    unfold recognise chains
    rw [registry,parser,settings,store]
  have executed : t.execute = s.execute := by
    funext commands
    unfold execute executor
    rw [registry,confirmation,settings,store]
  unfold process run
  rw [heard,executed,settings]

theorem greetedProcess (s : Session) (text : String) : s.greeted.process text = s.process text := by
  refine processAlike (afterKeeps means (fun _ a mem => ?_) s) text
  simp only [greeting,List.mem_cons,List.not_mem_nil,or_false] at mem
  rcases mem with rfl | rfl | rfl <;> rfl

theorem hitHeard (free : s.phase.isInactive = true ∨ s.phase.isShowingResult = true)
    (awake : s.wakeWord.coolingDown s.lastHit s.clock = false) (whole : isCancelPhrase text = false)
    (exact : s.wakeWord.exactHit? (Text.trim text) = some hit) :
    (s.hear text s.past).1 = .wake :: (s.greeting ++ if hit.remainder = "" then []
      else (s.process hit.remainder (s.past ++ .wake :: s.greeting)).1) := by
  have idle : s.phase.isBusy = false := by
    revert free
    cases s.phase <;> simp [Phase.isInactive,Phase.isShowingResult,Phase.isBusy]
  have unheard : s.phase.isListening = false := by
    revert free
    cases s.phase <;> simp [Phase.isInactive,Phase.isShowingResult,Phase.isListening]
  have quiet : elapsed (s.past ++ [.wake]) = elapsed s.past := by rw [elapsedAppend]; rfl
  simp only [hear,(WakeWord.exactPhrase exact).2,cancelTrimmed,whole,idle,unheard,
    WakeWord.exactDetected exact awake,Bool.false_eq_true,if_false,Course.bindRun,Course.performRun,
    listeningRun s quiet,String.isEmpty_iff]
  split <;> simp

theorem phraseGreets (free : s.phase.isInactive = true ∨ s.phase.isShowingResult = true)
    (awake : s.wakeWord.coolingDown s.lastHit s.clock = false)
    (visible : Text.allBlank s.wakeWord.phrase = false)
    (plain : isCancelPhrase s.wakeWord.phrase = false) :
    (s.hear s.wakeWord.phrase s.past).1 = .wake :: s.greeting := by
  rw [hitHeard free awake plain (WakeWord.phraseHeard visible)]
  simp

/- A listening session cancels before it processes, one that was just woken while it does; either way the timer is
dropped and the session left. -/
theorem greetedHears {command : String} (trimmed : Text.trim command = command) (nonempty : command ≠ "") :
    (s.greeted.hear command s.greeted.past).1 = (s.process command s.greeted.past).1 := by
  have visible : command.isEmpty = false := by simpa using nonempty
  have listens : s.greeted.phase = .listening (s.epoch.later (elapsed s.past)) := rfl
  unfold hear
  simp only [trimmed,visible,listens,Phase.isBusy,Phase.isListening,Bool.false_eq_true,if_false,if_true]
  cases phrase : isCancelPhrase command with
  | true =>
    rw [if_pos rfl,deactivateRun,processRun,phrase,listens]
    rfl
  | false => rw [if_neg Bool.false_ne_true,greetedProcess]

theorem courseHear (s : Session) (text : String) : s.course (.hear text) = s.hear text := rfl

end

/-- When the wake phrase is listened for, a text in which it is followed by a command does what the phrase and the
command do one after the other: the same things happen, and they leave the same session. -/
theorem oneBreathOrTwo (s : Session) (text : String) (hit : Hit)
    (free : s.phase.isInactive = true ∨ s.phase.isShowingResult = true)
    (awake : s.wakeWord.coolingDown s.lastHit s.clock = false)
    (visible : Text.allBlank s.wakeWord.phrase = false)
    (plain : isCancelPhrase s.wakeWord.phrase = false) (whole : isCancelPhrase text = false)
    (exact : s.wakeWord.exactHit? (Text.trim text) = some hit) (more : hit.remainder ≠ "") :
    let woken := s.call (.hear s.wakeWord.phrase)
    (s.course (.hear text) s.past).1 = (s.course (.hear s.wakeWord.phrase) s.past).1 ++
        (woken.course (.hear hit.remainder) woken.past).1 ∧
      s.call (.hear text) = woken.call (.hear hit.remainder) := by
  have greets : (s.course (.hear s.wakeWord.phrase) s.past).1 = .wake :: s.greeting := by
    rw [courseHear]
    exact phraseGreets free awake visible plain
  have woken : s.call (.hear s.wakeWord.phrase) = s.greeted := by
    change s.after (s.course (.hear s.wakeWord.phrase) s.past).1 = s.greeted
    rw [greets]
    rfl
  have second : (s.greeted.course (.hear hit.remainder) s.greeted.past).1 =
      (s.process hit.remainder (s.past ++ .wake :: s.greeting)).1 := by
    have past : s.greeted.past = s.past ++ .wake :: s.greeting := pastAfter s _
    rw [courseHear,← past]
    exact greetedHears (WakeWord.remainderTrimmed exact) more
  have both : (s.course (.hear text) s.past).1 = (.wake :: s.greeting) ++
      (s.process hit.remainder (s.past ++ .wake :: s.greeting)).1 := by
    rw [courseHear,hitHeard free awake whole exact,if_neg more]
    rfl
  intro first
  have same : first = s.greeted := woken
  rw [same,greets,second]
  refine ⟨both,?_⟩
  change s.after (s.course (.hear text) s.past).1 =
    s.greeted.after (s.greeted.course (.hear hit.remainder) s.greeted.past).1
  rw [both,second,afterAppend]
  rfl

/- Once from the beginning, with a custom command, and once behind a result, with a cancel phrase. -/
theorem deskInTwoBreaths :
    desk.call (.hear "Hey type, leaving now!") =
      (desk.call (.hear "hey type")).call (.hear "leaving now!") ∧
    (desk.calls [.activate,.hear "mute"]).phase.isShowingResult = true ∧
    (desk.calls [.activate,.hear "mute"]).call (.hear "hey type: never mind") =
      ((desk.calls [.activate,.hear "mute"]).call (.hear "hey type")).call (.hear "never mind") := by
  have shows : (desk.calls [.activate,.hear "mute"]).phase.isShowingResult = true := by decide +kernel
  have phrase : (desk.calls [.activate,.hear "mute"]).wakeWord.phrase = "hey type" := by decide +kernel
  refine ⟨?_,shows,?_⟩
  · exact (oneBreathOrTwo desk "Hey type, leaving now!" ⟨.exact,"leaving now!"⟩ (.inl rfl) rfl
      (by decide +kernel) (by decide +kernel) (by decide +kernel) (by decide +kernel) (by decide +kernel)).2
  · have later := (oneBreathOrTwo (desk.calls [.activate,.hear "mute"]) "hey type: never mind"
      ⟨.exact,"never mind"⟩ (.inr shows) (by decide +kernel) (by decide +kernel) (by decide +kernel)
      (by decide +kernel) (by decide +kernel) (by decide +kernel)).2
    rwa [phrase] at later

end Session

end VoiceCommand
