import VoiceCommand.Proofs.WakeWord.Cut

/-! The cooldown over a run of requests. The phrase is heard as often as the text and the cooldown allow, and what was
not heard leaves no trace. -/
namespace VoiceCommand.Detector

/-- What is asked of a detector, with its time in milliseconds. -/
inductive Request where
  | detect (now : Nat) (text : String)
  | reset (now : Nat)
  deriving DecidableEq, Repr

def Request.time : Request → Nat
  | .detect now _ => now
  | .reset now => now

def Request.isReset : Request → Bool
  | .detect _ _ => false
  | .reset _ => true

def answer (d : Detector) : Request → Option Hit × Detector
  | .detect now text => d.detect now text
  | .reset _ => (none,d.resetCooldown)

def log (d : Detector) : List Request → List (Request × Option Hit)
  | [] => []
  | r :: rest => (r,(d.answer r).1) :: (d.answer r).2.log rest

def after (d : Detector) : List Request → Detector
  | [] => d
  | r :: rest => (d.answer r).2.after rest

/-- A reset, or a request on which the phrase was heard. -/
def settles (e : Request × Option Hit) : Bool := e.1.isReset || e.2.isSome

/-- The phrase was heard so lately that its cooldown is still running, and there was no reset since. -/
def Cooling (cooldown : Nat) (past : List (Request × Option Hit)) (now : Nat) : Prop :=
  ∃ before heard text hit between, past = before ++ (.detect heard text,some hit) :: between ∧
    (∀ e ∈ between, e.1.isReset = false) ∧ now < heard + cooldown

/-- What a detector knows of its past: the last hit since the last reset, if there is one. -/
inductive Remembers : List (Request × Option Hit) → Option Nat → Prop where
  | fresh : Remembers [] none
  | unsettled {past last e} (known : Remembers past last) (idle : settles e = false) : Remembers (past ++ [e]) last
  | reset {past now a} : Remembers (past ++ [(.reset now,a)]) none
  | heard {past now text hit} : Remembers (past ++ [(.detect now text,some hit)]) (some now)

theorem logSplit {d : Detector} {rs : List Request} {before later : List (Request × Option Hit)}
    {e : Request × Option Hit} (split : d.log rs = before ++ e :: later) :
    ∃ first rest, rs = first ++ e.1 :: rest ∧ before = d.log first ∧ e.2 = ((d.after first).answer e.1).1 := by
  induction before generalizing d rs with
  | nil =>
    cases rs with
    | nil => cases split
    | cons r rest =>
      cases split
      exact ⟨[],rest,rfl,rfl,rfl⟩
  | cons f before ih =>
    cases rs with
    | nil => cases split
    | cons r rest =>
      obtain ⟨same,tail⟩ := List.cons.inj split
      obtain ⟨first,behind,rfl,rfl,told⟩ := ih tail
      exact ⟨r :: first,behind,rfl,by rw [← same]; rfl,told⟩

theorem detectCases (d : Detector) (now : Nat) (text : String) :
    (d.detect now text).1 = d.wakeWord.detect? d.lastHit now text ∧
      (d.detect now text).2 =
        if (d.wakeWord.detect? d.lastHit now text).isSome then { d with lastHit := some now } else d := by
  unfold detect
  cases d.wakeWord.detect? d.lastHit now text <;> exact ⟨rfl,rfl⟩

theorem wakeWordKept (d : Detector) (r : Request) : (d.answer r).2.wakeWord = d.wakeWord := by
  cases r with
  | reset now => rfl
  | detect now text =>
    rw [answer,(detectCases d now text).2]
    split <;> rfl

theorem wakeWordAfter (d : Detector) (rs : List Request) : (d.after rs).wakeWord = d.wakeWord := by
  induction rs generalizing d with
  | nil => rfl
  | cons r rest ih => rw [after,ih,wakeWordKept]

theorem unsettledKept {d : Detector} {r : Request} (idle : settles (r,(d.answer r).1) = false) :
    (d.answer r).2 = d := by
  cases r with
  | reset now => cases idle
  | detect now text =>
    have unheard : (d.wakeWord.detect? d.lastHit now text).isSome = false := by
      rw [← (detectCases d now text).1]
      exact idle
    rw [answer,(detectCases d now text).2,unheard]
    rfl

theorem remembersAnswer {past : List (Request × Option Hit)} {d : Detector} (known : Remembers past d.lastHit)
    (r : Request) : Remembers (past ++ [(r,(d.answer r).1)]) (d.answer r).2.lastHit := by
  cases idle : settles (r,(d.answer r).1) with
  | false =>
    rw [unsettledKept idle]
    exact .unsettled known idle
  | true =>
    cases r with
    | reset now => exact .reset
    | detect now text =>
      obtain ⟨told,left⟩ := detectCases d now text
      have heard : (d.wakeWord.detect? d.lastHit now text).isSome = true := by
        rw [← told]
        exact idle
      obtain ⟨hit,found⟩ := Option.isSome_iff_exists.mp heard
      rw [answer,told,left,found]
      exact .heard

theorem remembersRun {past : List (Request × Option Hit)} {d : Detector} (known : Remembers past d.lastHit)
    (rs : List Request) : Remembers (past ++ d.log rs) (d.after rs).lastHit := by
  induction rs generalizing past d with
  | nil => simpa [log,after] using known
  | cons r rest ih => simpa [log,after] using ih (remembersAnswer known r)

theorem lastSplit {α : Type} {past before between : List α} {e f : α}
    (split : past ++ [e] = before ++ f :: between) :
    (between = [] ∧ e = f) ∨ ∃ inner, between = inner ++ [e] ∧ past = before ++ f :: inner := by
  rcases List.eq_nil_or_concat between with rfl | ⟨inner,g,rfl⟩
  · exact .inl ⟨rfl,List.singleton_inj.mp (List.append_inj' split rfl).2⟩
  · rw [List.concat_eq_append,← List.cons_append,← List.append_assoc] at split
    obtain ⟨same,last⟩ := List.append_inj' split rfl
    exact .inr ⟨inner,by rw [List.concat_eq_append,List.singleton_inj.mp last],same⟩

section
variable {past : List (Request × Option Hit)} {cooldown now : Nat}

theorem coolingUnsettled {e : Request × Option Hit} (idle : settles e = false) :
    Cooling cooldown (past ++ [e]) now ↔ Cooling cooldown past now := by
  obtain ⟨unreset,unheard⟩ := Bool.or_eq_false_iff.mp idle
  constructor
  · rintro ⟨before,heard,text,hit,between,split,kept,runs⟩
    rcases lastSplit split with ⟨_,rfl⟩ | ⟨inner,rfl,same⟩
    · cases unheard
    · exact ⟨before,heard,text,hit,inner,same,fun f mem => kept f (List.mem_append_left _ mem),runs⟩
  · rintro ⟨before,heard,text,hit,between,rfl,kept,runs⟩
    refine ⟨before,heard,text,hit,between ++ [e],by simp,fun f mem => ?_,runs⟩
    rcases List.mem_append.mp mem with mem | mem
    · exact kept f mem
    · rwa [List.mem_singleton.mp mem]

/- A hit that was not the last one was earlier, so its cooldown does not outlast that of the last one. -/
theorem coolingRemembered {last : Option Nat} (known : Remembers past last)
    (ordered : past.Pairwise fun e f => e.1.time ≤ f.1.time) (done : ∀ e ∈ past, e.1.time ≤ now) :
    Cooling cooldown past now ↔ ∃ heard, last = some heard ∧ now - heard < cooldown := by
  induction known with
  | fresh => simp [Cooling]
  | unsettled _ idle ih =>
    rw [coolingUnsettled idle]
    exact ih (List.pairwise_append.mp ordered).1 fun e mem => done e (List.mem_append_left _ mem)
  | reset =>
    refine ⟨?_,fun ⟨_,absent,_⟩ => by cases absent⟩
    rintro ⟨before,heard,text,hit,between,split,kept,_⟩
    rcases lastSplit split with ⟨_,same⟩ | ⟨inner,rfl,_⟩
    · cases same
    · cases kept _ (List.mem_append_right _ (List.mem_singleton_self _))
  | @heard past latest text hit =>
    have reached : latest ≤ now := done (.detect latest text,some hit) (by simp)
    constructor
    · rintro ⟨before,heard,other,found,between,split,_,runs⟩
      refine ⟨latest,rfl,?_⟩
      have earlier : heard ≤ latest := by
        rcases lastSplit split with ⟨_,same⟩ | ⟨inner,_,rfl⟩
        · cases same
          exact Nat.le_refl _
        · exact (List.pairwise_append.mp ordered).2.2 (.detect heard other,some found) (by simp) _
            (List.mem_singleton_self _)
      omega
    · rintro ⟨heard,same,runs⟩
      cases same
      exact ⟨past,latest,text,hit,[],rfl,by simp,by omega⟩

end

theorem logRequests (d : Detector) (rs : List Request) : (d.log rs).map Prod.fst = rs := by
  induction rs generalizing d with
  | nil => rfl
  | cons r rest ih => simp [log,ih]

theorem settledLog (d : Detector) (rs : List Request) :
    d.log (((d.log rs).filter settles).map Prod.fst) = (d.log rs).filter settles := by
  induction rs generalizing d with
  | nil => rfl
  | cons r rest ih =>
    rw [log,List.filter_cons]
    split
    · rw [List.map_cons,log,ih]
    · rename_i idle
      rw [unsettledKept (Bool.eq_false_iff.mpr idle)]
      exact ih d

/- The cooldown is what the detector remembers, and what it remembers is what the log tells. -/
theorem answered {w : WakeWord} (visible : Text.allBlank w.phrase = false) {rs : List Request}
    (ordered : rs.Pairwise fun r s => r.time ≤ s.time) {before later : List (Request × Option Hit)}
    {now : Nat} {text : String} {told : Option Hit}
    (split : (Detector.new w).log rs = before ++ (.detect now text,told) :: later) :
    (Cooling w.cooldown before now ∧ told = none) ∨
      (¬ Cooling w.cooldown before now ∧ told = (w.exactHit? text <|> w.fuzzyHit? text)) := by
  obtain ⟨first,rest,rfl,rfl,given⟩ := logSplit split
  obtain ⟨inOrder,_,earlier⟩ := List.pairwise_append.mp ordered
  have start : Remembers [] (new w).lastHit := .fresh
  have known : Remembers ((new w).log first) ((new w).after first).lastHit := remembersRun start first
  have times : ((new w).log first).Pairwise fun e f => e.1.time ≤ f.1.time := by
    rw [← List.pairwise_map (f := Prod.fst) (R := fun r s : Request => r.time ≤ s.time),logRequests]
    exact inOrder
  have done : ∀ e ∈ (new w).log first, e.1.time ≤ now := fun e mem =>
    earlier e.1 (logRequests (new w) first ▸ List.mem_map_of_mem mem) _ List.mem_cons_self
  have kept : ((new w).after first).wakeWord = w := wakeWordAfter (new w) first
  have same : w.coolingDown ((new w).after first).lastHit now = true ↔
      Cooling w.cooldown ((new w).log first) now := by
    rw [coolingRemembered known times done,WakeWord.coolingDown,Option.any_eq_true]
    simp
  have heard : w.hear? text = (w.exactHit? text <|> w.fuzzyHit? text) := by
    rw [WakeWord.hear?,if_neg (by simpa using WakeWord.needleSome visible)]
  have said : told = if w.coolingDown ((new w).after first).lastHit now then none else w.hear? text := by
    rw [show told = (((new w).after first).answer (.detect now text)).1 from given,answer,
      (detectCases _ now text).1,kept]
    rfl
  cases cools : w.coolingDown ((new w).after first).lastHit now with
  | true => exact .inl ⟨same.mp cools,by rw [said,cools]; rfl⟩
  | false =>
    refine .inr ⟨fun cooling => ?_,by rw [said,cools,heard]; rfl⟩
    rw [same.mpr cooling] at cools
    cases cools

/-- In every run of requests in the order of their times, hits with no reset between them lie at least the cooldown
apart; a text is heard just when no cooldown runs and it holds the phrase exactly or nearly, and then as the text and
the phrase alone say; and if the texts that were not heard had never come, all other answers were the same. -/
theorem cooldownKept (w : WakeWord) (visible : Text.allBlank w.phrase = false) (rs : List Request)
    (ordered : rs.Pairwise fun r s => r.time ≤ s.time) :
    let log := (Detector.new w).log rs
    (∀ before first x hit between second y hit' later,
      log = before ++ (.detect first x,some hit) :: between ++ (.detect second y,some hit') :: later →
        (∀ e ∈ between, e.1.isReset = false) → first + w.cooldown ≤ second) ∧
      (∀ before now text told later, log = before ++ (.detect now text,told) :: later →
        (told.isSome = true ↔ ¬ Cooling w.cooldown before now ∧
          ((w.exactHit? text).isSome = true ∨ (w.fuzzyHit? text).isSome = true)) ∧
        (told.isSome = true → told = (w.exactHit? text <|> w.fuzzyHit? text))) ∧
      (Detector.new w).log ((log.filter settles).map Prod.fst) = log.filter settles := by
  refine ⟨fun before first x hit between second y hit' later split unreset => ?_,
    fun before now text told later split => ?_,settledLog (new w) rs⟩
  · refine Nat.le_of_not_lt fun early => ?_
    rcases answered visible ordered split with ⟨_,silent⟩ | ⟨cooled,_⟩
    · cases silent
    · exact cooled ⟨before,first,x,hit,between,rfl,unreset,early⟩
  · rcases answered visible ordered split with ⟨cooling,rfl⟩ | ⟨cooled,rfl⟩
    · simp [cooling]
    · refine ⟨?_,fun _ => rfl⟩
      simp [cooled,Option.isSome_or]

/- At the very end of the cooldown the phrase is heard again, nearly; a reset ends the cooldown; a text heard in vain
does not start it. -/
theorem secondsApart :
    let w : WakeWord := ⟨"hey type",false,.one,2000⟩
    let rs : List Request := [.detect 0 "nothing here",.detect 100 "hey type open Safari",.detect 2099 "hey type",
      .detect 2100 "Hey, type!",.reset 2100,.detect 2100 "hey type"]
    rs.Pairwise (fun r s => r.time ≤ s.time) ∧ ((Detector.new w).log rs).map (fun e => e.2.isSome) =
      [false,true,false,true,false,true] ∧
    (Detector.new w).log [.detect 100 "hey type open Safari",.detect 2100 "Hey, type!",.reset 2100,
      .detect 2100 "hey type"] = ((Detector.new w).log rs).filter settles := by
  intro w rs
  have ordered : rs.Pairwise fun r s => r.time ≤ s.time := by decide +kernel
  have kept : (((Detector.new w).log rs).filter settles).map Prod.fst = [.detect 100 "hey type open Safari",
      .detect 2100 "Hey, type!",.reset 2100,.detect 2100 "hey type"] := by decide +kernel
  refine ⟨ordered,by decide +kernel,?_⟩
  rw [← kept]
  exact (cooldownKept w (by decide +kernel) rs ordered).2.2

end VoiceCommand.Detector
