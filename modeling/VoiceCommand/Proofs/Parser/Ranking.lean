import Mathlib.Data.List.MinMax
import VoiceCommand.Binary64.Decimal
import VoiceCommand.Proofs.Binary64.Rounding
import VoiceCommand.Proofs.Parser.Values
import VoiceCommand.Proofs.Pattern.Phrases

/-! The ranking of the rows that match a text. Two rows that match one text are never equally heavy, and the numbers
by which they are weighed put them in the order of their exact weights. -/
namespace VoiceCommand.Parser
open Binary64 (nearest nearestMono units unitsMono unit)

def share (length total : Nat) : Nat := nearest (length * unit) total

def weight (length total priority : Nat) : Nat := nearest (units (share length total) * priority) 1

section
variable {length total length' total' : Nat}

theorem shareMono (pos : 0 < total) (pos' : 0 < total') (le : length * total' ≤ length' * total) :
    share length total ≤ share length' total' := by
  refine nearestMono pos pos' ?_
  rw [Nat.mul_right_comm,Nat.mul_right_comm length']
  exact Nat.mul_le_mul_right unit le

theorem weightMono (pos : 0 < total) (pos' : 0 < total') (le : length * total' ≤ length' * total)
    (priority : Nat) : weight length total priority ≤ weight length' total' priority := by
  refine nearestMono Nat.one_pos Nat.one_pos (Nat.mul_le_mul_right 1 (Nat.mul_le_mul_right priority ?_))
  exact unitsMono (shareMono pos pos' le)

theorem weightWhole (pos : 0 < total) (priority : Nat) : weight total total priority = weight 1 1 priority := by
  have same : total * 1 = 1 * total := Nat.mul_comm _ _
  exact Nat.le_antisymm (weightMono pos Nat.one_pos same.le priority) (weightMono Nat.one_pos pos same.ge priority)

theorem shareOne : share 1 1 = 0x3FF0000000000000 := by decide +kernel

theorem shareHigh (pos : 0 < total) (le : length ≤ total) : share length total ≤ 0x3FF0000000000000 := by
  rw [← shareOne]
  exact shareMono pos Nat.one_pos (by omega)

theorem ratioConfidence (pos : 0 < total) (le : length ≤ total) :
    (Binary64.ofRatio length total).confidence = .number false (share length total) := by
  have high := shareHigh pos le
  have above : (Binary64.ofRatio length total).lt .zero = false := by
    simp [Binary64.ofRatio,Binary64.lt,Binary64.zero,Binary64.rank]
  have below : Binary64.one.lt (Binary64.ofRatio length total) = false := by
    simp only [Binary64.ofRatio,Binary64.lt,Binary64.one,Binary64.rank,Bool.false_eq_true,if_false,
      decide_eq_false_iff_not,Int.ofNat_lt]
    exact Nat.not_lt.mpr high
  change (Binary64.ofRatio length total).clamp = _
  simp only [Binary64.clamp,above,below,Bool.false_eq_true,if_false]
  rfl

theorem shareScaled (pos : 0 < total) (le : length ≤ total) (priority : Nat) :
    (Binary64.number false (share length total)).scale priority = .number false (weight length total priority) := by
  have high := shareHigh pos le
  have finite : share length total ≠ Binary64.infinity := by
    unfold Binary64.infinity
    omega
  simp only [Binary64.scale,finite,if_false]
  rfl

/-- One half, the least share that is accepted where nothing else is configured. -/
def half : Binary64 := Decimal.toBinary64 false ⟨5,-1⟩

/- The greatest share below one half that a text of less than 2^52 characters allows is not rounded up to it. -/
theorem shareHalf (pos : 0 < total) (small : total < 2 ^ 52) :
    (Binary64.number false (share length total)).lt half = decide (2 * length < total) := by
  have same : half = .number false (share 1 2) := by decide +kernel
  have gap : share (2 ^ 52 - 1) (2 ^ 53) < share 1 2 := by decide +kernel
  rw [same]
  simp only [Binary64.lt,Binary64.rank,Bool.false_eq_true,if_false,decide_eq_decide,Int.ofNat_lt]
  constructor
  · intro less
    by_contra reached
    have le : share 1 2 ≤ share length total := shareMono Nat.two_pos pos (by omega)
    omega
  · intro less
    have le : share length total ≤ share (2 ^ 52 - 1) (2 ^ 53) := shareMono pos (Nat.two_pow_pos 53) (by omega)
    omega

end

structure Weighed (cs : List Char) (f : Fit) : Prop where
  found : f.row.pattern.match? cs = some f.hit
  short : f.hit.length ≤ cs.length
  confidence : f.confidence = .number false (share f.hit.length cs.length)
  score : f.score = .number false (weight f.hit.length cs.length f.row.priority)

theorem fitWeighed {cs : List Char} {row : PatternRow} {f : Fit} (pos : 0 < cs.length)
    (fit : fit? cs row = some f) : f.row = row ∧ Weighed cs f := by
  obtain ⟨hit,found,same⟩ := Option.map_eq_some_iff.mp fit
  have short := Pattern.matchShort found
  simp only [ratioConfidence pos short,shareScaled pos short] at same
  subst same
  exact ⟨rfl,found,short,rfl,rfl⟩

/-- The one fit weighs more than the other, exactly and by its number, and covers half of the text. -/
structure Heavier (total : Nat) (f g : Fit) : Prop where
  product : g.hit.length * g.row.priority < f.hit.length * f.row.priority
  score : g.score.lt f.score = true
  covers : total ≤ 2 * f.hit.length

/-- One row takes any text as a whole, the other one a phrase of its own, and these never weigh the same: the phrase
weighs more up to a certain length of the text, and less from the next one on. -/
def Settles (whole other : PatternRow) (a : Phrase) : Prop :=
  let last := a.tokens.length * other.priority / whole.priority
  whole.pattern.isWhole = true ∧ a.isOpen = false ∧ other.priority ≤ 2 * whole.priority ∧
    a.tokens.length * other.priority % whole.priority ≠ 0 ∧
    weight 1 1 whole.priority < weight a.tokens.length last other.priority ∧
    weight a.tokens.length (last + 1) other.priority < weight 1 1 whole.priority

instance (whole other : PatternRow) (a : Phrase) : Decidable (Settles whole other a) := by
  unfold Settles
  infer_instance

theorem settlesHeavier {cs : List Char} (pos : 0 < cs.length) {f g : Fit} (first : Weighed cs f)
    (second : Weighed cs g) {a : Phrase} (settles : Settles f.row g.row a) (whole : f.hit.length = cs.length)
    (phrase : g.hit.length = a.tokens.length) : Heavier cs.length f g ∨ Heavier cs.length g f := by
  obtain ⟨_,_,priorities,uneven,before,behind⟩ := settles
  have score := first.score
  rw [whole,weightWhole pos] at score
  have score' := second.score
  rw [phrase] at score'
  rcases Nat.lt_trichotomy (a.tokens.length * g.row.priority) (cs.length * f.row.priority) with less | same | more
  · have positive : 0 < f.row.priority := Nat.pos_of_mul_pos_left (Nat.lt_of_le_of_lt (Nat.zero_le _) less)
    have longer := Nat.succ_le_of_lt ((Nat.div_lt_iff_lt_mul positive).mpr less)
    have light := weightMono pos (Nat.succ_pos _) (Nat.mul_le_mul_left a.tokens.length longer) g.row.priority
    refine .inl ⟨by rw [whole,phrase]; exact less,?_,by omega⟩
    rw [score,score']
    simpa [Binary64.lt,Binary64.rank] using Nat.lt_of_le_of_lt light behind
  · exact absurd (by rw [same,Nat.mul_mod_left]) uneven
  · have positive : 0 < f.row.priority := by
      by_contra none
      have zero : g.row.priority = 0 := by omega
      simp [zero] at more
    have shorter := (Nat.le_div_iff_mul_le positive).mpr (Nat.le_of_lt more)
    have heavy := weightMono (Nat.lt_of_lt_of_le pos shorter) pos
      (Nat.mul_le_mul_left a.tokens.length shorter) g.row.priority
    refine .inr ⟨by rw [whole,phrase]; exact more,?_,?_⟩
    · rw [score,score']
      simpa [Binary64.lt,Binary64.rank] using Nat.lt_of_lt_of_le before heavy
    · have bound : cs.length * f.row.priority < 2 * a.tokens.length * f.row.priority := by
        calc cs.length * f.row.priority < a.tokens.length * g.row.priority := more
          _ ≤ a.tokens.length * (2 * f.row.priority) := Nat.mul_le_mul_left _ priorities
          _ = 2 * a.tokens.length * f.row.priority := by rw [Nat.mul_left_comm,Nat.mul_assoc]
      rw [phrase]
      exact Nat.le_of_lt (Nat.lt_of_mul_lt_mul_right bound)

/-- No text is said by phrases of both rows, unless it is settled which one weighs more. -/
def apart (r s : PatternRow) : Bool :=
  r.pattern.phrases.all fun a => s.pattern.phrases.all fun b =>
    a.clashes b || decide (Settles r s b) || decide (Settles s r a)

/- Three pairs of rows meet in one text, over "switch to dark mode", "focus mode" and "exit full screen". -/
theorem rowsApart : PatternRow.all.Pairwise fun r s => apart r s = true := by decide +kernel

section
open Text (Spaced)
variable {cs : List Char} {f g : Fit}

/- What the two matches take begins alike, so that two phrases which say it do not clash. -/
theorem apartHeavier (spaced : Spaced cs) (line : '\n' ∉ cs) (pos : 0 < cs.length) (first : Weighed cs f)
    (second : Weighed cs g) (apart' : apart f.row g.row = true) :
    Heavier cs.length f g ∨ Heavier cs.length g f := by
  obtain ⟨taken,begins,count,a,listed,fits⟩ := Pattern.matchSays spaced first.found
  obtain ⟨taken',begins',count',b,listed',fits'⟩ := Pattern.matchSays spaced second.found
  have together := Phrase.fitsTogether fits fits' begins begins'
  have settled := List.all_eq_true.mp (List.all_eq_true.mp apart' a listed) b listed'
  simp only [together,Bool.false_or,Bool.or_eq_true,decide_eq_true_eq] at settled
  rcases settled with settles | settles
  · have whole := Pattern.wholeMatch settles.1 line first.found
    exact settlesHeavier pos first second settles whole (count'.trans (Phrase.closedLength settles.2.1 fits'))
  · have whole := Pattern.wholeMatch settles.1 line second.found
    exact (settlesHeavier pos second first settles whole
      (count.trans (Phrase.closedLength settles.2.1 fits))).symm

def Either (r s : PatternRow) : Prop := apart r s = true ∨ apart s r = true

instance : Std.Symm Either := ⟨fun _ _ h => h.symm⟩

theorem rowsHeavier (spaced : Spaced cs) (line : '\n' ∉ cs) (pos : 0 < cs.length) (first : Weighed cs f)
    (second : Weighed cs g) (listed : f.row ∈ PatternRow.all) (listed' : g.row ∈ PatternRow.all)
    (differ : f.row ≠ g.row) : Heavier cs.length f g ∨ Heavier cs.length g f := by
  have either : PatternRow.all.Pairwise Either := rowsApart.imp fun h => .inl h
  rcases either.forall listed listed' differ with h | h
  · exact apartHeavier spaced line pos first second h
  · exact (apartHeavier spaced line pos second first h).symm

end

def bestOf (rows : List PatternRow) (cs : List Char) : Option Fit :=
  (rows.filterMap (fit? cs)).foldl better none

theorem lighterNot {f g : Fit} (lighter : g.score.lt f.score = true) : f.score.lt g.score = false := by
  cases first : f.score with
  | nan => rfl
  | number s m =>
    cases second : g.score with
    | nan => rfl
    | number t n =>
      simp only [first,second,Binary64.lt,decide_eq_true_eq,decide_eq_false_iff_not] at lighter ⊢
      omega

/- Whatever comes before and after it, the fit that outweighs all others is kept. -/
theorem heaviestKept {fits : List Fit} {f : Fit} {best : Option Fit} (there : f ∈ fits ∨ best = some f)
    (others : ∀ g ∈ fits, g = f ∨ g.score.lt f.score = true)
    (held : ∀ g, best = some g → g = f ∨ g.score.lt f.score = true) : fits.foldl better best = some f := by
  induction fits generalizing best with
  | nil => exact there.resolve_left (by simp)
  | cons g rest ih =>
    obtain ⟨first,later⟩ := List.forall_mem_cons.mp others
    refine ih ?_ later fun h kept => ?_
    · rcases first with rfl | lighter
      · refine .inr ?_
        cases best with
        | none => rfl
        | some b =>
          rcases held b rfl with rfl | lighter
          · simp [better]
          · simp [better,lighter]
      · rcases there with mem | rfl
        · rcases List.mem_cons.mp mem with rfl | mem
          · exact absurd lighter (by simp [lighterNot lighter])
          · exact .inl mem
        · exact .inr (by simp [better,lighterNot lighter])
    · rcases betterFrom kept with rfl | before
      · exact first
      · exact held h before

theorem emptyUnmatched {row : PatternRow} (listed : row ∈ PatternRow.all) : row.pattern.match? [] = none := by
  have all : ∀ row ∈ PatternRow.all, row.pattern.match? [] = none := by decide +kernel
  exact all row listed

structure Candidate (cs : List Char) (f : Fit) : Prop where
  listed : f.row ∈ PatternRow.all
  fit : fit? cs f.row = some f
  weighed : Weighed cs f

section
variable {cs : List Char} {f : Fit} {row : PatternRow} {hit : Pattern.Match}

theorem matchedSome (listed : row ∈ PatternRow.all) (found : row.pattern.match? cs = some hit) : 0 < cs.length := by
  cases cs with
  | nil =>
    rw [emptyUnmatched listed] at found
    cases found
  | cons c cs => exact Nat.succ_pos _

theorem fitCandidate (listed : row ∈ PatternRow.all) (fit : fit? cs row = some f) :
    f.row = row ∧ Candidate cs f := by
  obtain ⟨hit,found,_⟩ := Option.map_eq_some_iff.mp fit
  obtain ⟨rfl,weighed⟩ := fitWeighed (matchedSome listed found) fit
  exact ⟨rfl,listed,fit,weighed⟩

theorem matchCandidate (listed : row ∈ PatternRow.all) (found : row.pattern.match? cs = some hit) :
    ∃ f, f.row = row ∧ f.hit = hit ∧ Candidate cs f := by
  obtain ⟨f,fit⟩ : ∃ f, fit? cs row = some f := by simp [fit?,found]
  obtain ⟨rfl,candidate⟩ := fitCandidate listed fit
  exact ⟨f,rfl,Option.some.inj (candidate.weighed.found.symm.trans found),candidate⟩

theorem fitOwn {g : Fit} (first : Candidate cs f) (second : Candidate cs g) (same : g.row = f.row) : g = f := by
  have fit := second.fit
  rw [same,first.fit] at fit
  exact (Option.some.inj fit).symm

structure Champion (cs : List Char) (f : Fit) : Prop where
  candidate : Candidate cs f
  heavier : ∀ g, Candidate cs g → g.row ≠ f.row → Heavier cs.length f g

theorem championBest (champion : Champion cs f) {rows : List PatternRow} (perm : rows.Perm PatternRow.all) :
    bestOf rows cs = some f := by
  have own := champion.candidate
  refine heaviestKept (.inl ?_) (fun g mem => ?_) (fun _ none => nomatch none)
  · exact List.mem_filterMap.mpr ⟨f.row,perm.mem_iff.mpr own.listed,own.fit⟩
  · obtain ⟨row,inside,fit⟩ := List.mem_filterMap.mp mem
    obtain ⟨_,other⟩ := fitCandidate (perm.mem_iff.mp inside) fit
    by_cases same : g.row = f.row
    · exact .inl (fitOwn own other same)
    · exact .inr (champion.heavier g other same).score

/- Of two candidates one is heavier, so it is the one whose product is not the smaller one. -/
theorem championFound (spaced : Text.Spaced cs) (line : '\n' ∉ cs) (listed : row ∈ PatternRow.all)
    (found : row.pattern.match? cs = some hit) : ∃ f, Champion cs f := by
  obtain ⟨first,_,_,candidate⟩ := matchCandidate listed found
  have pos := matchedSome listed found
  have mem {g : Fit} (other : Candidate cs g) : g ∈ PatternRow.all.filterMap (fit? cs) :=
    List.mem_filterMap.mpr ⟨g.row,other.listed,other.fit⟩
  cases greatest : (PatternRow.all.filterMap (fit? cs)).argmax fun f => f.hit.length * f.row.priority with
  | none => exact absurd (mem candidate) (by simp [List.argmax_eq_none.mp greatest])
  | some f =>
    obtain ⟨row,inside,fit⟩ := List.mem_filterMap.mp (List.argmax_mem greatest)
    obtain ⟨_,own⟩ := fitCandidate inside fit
    refine ⟨f,own,fun g other differ => ?_⟩
    have most := List.le_of_mem_argmax (mem other) greatest
    rcases rowsHeavier spaced line pos own.weighed other.weighed own.listed other.listed (Ne.symm differ)
      with heavier | lighter
    · exact heavier
    · exact absurd lighter.product (Nat.not_lt.mpr most)

end

theorem matchOfBest {least : Binary64} {text : String} {f : Fit}
    (best : best? (Text.normalize text).toList = some f) (pos : 0 < (Text.normalize text).toList.length) :
    matchPattern? least text = if f.confidence.lt least then none else some (f.command text) := by
  have nonempty := List.isEmpty_eq_false_iff.mpr (List.ne_nil_of_length_pos pos)
  simp only [matchPattern?,nonempty,best,Bool.false_eq_true,if_false]

theorem championTaken {text : String} {row : PatternRow} {hit : Pattern.Match} (listed : row ∈ PatternRow.all)
    (found : row.pattern.match? (Text.normalize text).toList = some hit) :
    ∃ f, Champion (Text.normalize text).toList f ∧ best? (Text.normalize text).toList = some f ∧
      ∀ least, matchPattern? least text = if f.confidence.lt least then none else some (f.command text) := by
  obtain ⟨f,champion⟩ := championFound (Text.normalSpaced text) (Text.normalLine text) listed found
  have best : best? (Text.normalize text).toList = some f := championBest champion (List.Perm.refl _)
  exact ⟨f,champion,best,fun least => matchOfBest best (matchedSome listed found)⟩

/- Where the champion is another row than the one that covers half of the text, it covers half of it too. -/
theorem coveredTaken {text : String} (small : (Text.normalize text).toList.length < 2 ^ 52) {row : PatternRow}
    {hit : Pattern.Match} (listed : row ∈ PatternRow.all)
    (found : row.pattern.match? (Text.normalize text).toList = some hit)
    (covered : (Text.normalize text).toList.length ≤ 2 * hit.length) : matchPattern? half text ≠ none := by
  obtain ⟨f,champion,_,taken⟩ := championTaken listed found
  obtain ⟨g,rfl,rfl,other⟩ := matchCandidate listed found
  have enough : (Text.normalize text).toList.length ≤ 2 * f.hit.length := by
    by_cases same : g.row = f.row
    · rw [← fitOwn champion.candidate other same]
      exact covered
    · exact (champion.heavier g other same).covers
  have strong : f.confidence.lt half = false := by
    rw [champion.candidate.weighed.confidence,shareHalf (matchedSome listed found) small]
    exact decide_eq_false (Nat.not_lt.mpr enough)
  simp [taken half,strong]

theorem takenCovers {text : String} (small : (Text.normalize text).toList.length < 2 ^ 52) {c : Command}
    (taken : matchPattern? half text = some c) : ∃ row ∈ PatternRow.all, ∃ hit,
      row.pattern.match? (Text.normalize text).toList = some hit ∧
      (Text.normalize text).toList.length ≤ 2 * hit.length := by
  obtain ⟨f,won,_⟩ := patternWinning taken
  obtain ⟨row,listed,fit⟩ := bestFit won.best
  obtain ⟨rfl,own⟩ := fitCandidate listed fit
  have pos := matchedSome listed own.weighed.found
  refine ⟨f.row,listed,f.hit,own.weighed.found,?_⟩
  by_contra less
  rw [matchOfBest won.best pos,own.weighed.confidence,shareHalf pos small,
    if_pos (decide_eq_true (Nat.not_le.mp less))] at taken
  cases taken

/-- The row matches the text, and every other row that does so has a smaller product of length and priority. -/
structure Heaviest (cs : List Char) (f : Fit) : Prop where
  listed : f.row ∈ PatternRow.all
  found : f.row.pattern.match? cs = some f.hit
  above : ∀ row ∈ PatternRow.all, row ≠ f.row → ∀ hit, row.pattern.match? cs = some hit →
    hit.length * row.priority < f.hit.length * f.row.priority

theorem championHeaviest {cs : List Char} {f : Fit} (champion : Champion cs f) : Heaviest cs f := by
  refine ⟨champion.candidate.listed,champion.candidate.weighed.found,fun row listed differ hit found => ?_⟩
  obtain ⟨g,rfl,rfl,other⟩ := matchCandidate listed found
  exact (champion.heavier g other differ).product

theorem rankingExact {text : String} (short : text.length < 2 ^ 52) :
    let cs := (Text.normalize text).toList
    ((∃ row ∈ PatternRow.all, (row.pattern.match? cs).isSome = true) → ∃ f, Heaviest cs f ∧
      best? cs = some f ∧ (∀ rows : List PatternRow, rows.Perm PatternRow.all → bestOf rows cs = some f) ∧
      ∀ least, matchPattern? least text = if f.confidence.lt least then none else some (f.command text)) ∧
    (matchPattern? half text = none ↔
      ∀ row ∈ PatternRow.all, ∀ hit, row.pattern.match? cs = some hit → 2 * hit.length < cs.length) := by
  intro cs
  have small : cs.length < 2 ^ 52 := by
    have shorter := Text.normalShorter text
    rw [String.length_toList (s := text)] at shorter
    exact Nat.lt_of_le_of_lt shorter short
  constructor
  · rintro ⟨row,listed,matched⟩
    obtain ⟨hit,found⟩ := Option.isSome_iff_exists.mp matched
    obtain ⟨f,champion,best,taken⟩ := championTaken listed found
    exact ⟨f,championHeaviest champion,best,fun rows perm => championBest champion perm,taken⟩
  · constructor
    · intro refused row listed hit found
      exact Nat.not_le.mp fun covered => coveredTaken small listed found covered refused
    · intro less
      cases taken : matchPattern? half text with
      | none => rfl
      | some c =>
        obtain ⟨row,listed,hit,found,covers⟩ := takenCovers small taken
        exact absurd (less row listed hit found) (Nat.not_lt.mpr covers)

/- Two rows match the whole text, of which the second one in the table has the greater priority. -/
theorem fullScreenRanked :
    let text := "Exit full  screen!"
    let cs := (Text.normalize text).toList
    text.length < 2 ^ 52 ∧ (PatternRow.all.filter fun row => (row.pattern.match? cs).isSome).map (·.intent) =
        [.quitApp,.fullScreenWindow] ∧
      ∃ f, Heaviest cs f ∧ f.row.intent = .fullScreenWindow ∧
        (∀ rows : List PatternRow, rows.Perm PatternRow.all → bestOf rows cs = some f) ∧
        matchPattern? half text = some (f.command text) := by
  intro text cs
  have short : text.length < 2 ^ 52 := by decide +kernel
  have matched : ∃ row ∈ PatternRow.all, (row.pattern.match? cs).isSome = true := by decide +kernel
  obtain ⟨f,heaviest,best,perm,taken⟩ := (rankingExact short).1 matched
  have intent : (best? cs).map (·.row.intent) = some .fullScreenWindow := by decide +kernel
  have sure : (best? cs).map (·.confidence.lt half) = some false := by decide +kernel
  rw [best] at intent sure
  have strong : f.confidence.lt half = false := Option.some.inj sure
  exact ⟨short,by decide +kernel,f,heaviest,Option.some.inj intent,perm,by simp [taken half,strong]⟩

end VoiceCommand.Parser
