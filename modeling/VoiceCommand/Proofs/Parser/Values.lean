import VoiceCommand.Executor
import VoiceCommand.Proofs.Parser.Actions
import VoiceCommand.Proofs.Pattern.Captures

/-! The values of recognised commands. Each row of the table captures what its intent requires, so a command
of the table has all its values and is never held up for want of one. -/
namespace VoiceCommand

namespace Parser
open Text (Spaced isBlank normalize strip)

/-- The row captures a value for each of its keys, and these are what its intent requires. -/
structure Sound (row : PatternRow) : Prop where
  solid : row.pattern.solid false = true
  count : row.pattern.captures = row.keys.length
  ascending : row.keys.Pairwise (· < ·)
  required : row.keys = row.intent.required
  single : row.intent ≠ .chainedCommand
  builtIn : row.intent ≠ .customAlias

theorem rowSound {row : PatternRow} (listed : row ∈ PatternRow.all) : Sound row := by
  have all : ∀ row ∈ PatternRow.all, row.pattern.solid false = true ∧
      row.pattern.captures = row.keys.length ∧ row.keys.Pairwise (· < ·) ∧
      row.keys = row.intent.required ∧ row.intent ≠ .chainedCommand ∧ row.intent ≠ .customAlias := by
    decide +kernel
  obtain ⟨solid,count,ascending,required,single,builtIn⟩ := all row listed
  exact ⟨solid,count,ascending,required,single,builtIn⟩

theorem betterFrom {best : Option Fit} {f g : Fit} (h : better best f = some g) :
    g = f ∨ best = some g := by
  unfold better at h
  split at h
  · exact .inl (Option.some.inj h).symm
  · split at h
    · exact .inl (Option.some.inj h).symm
    · exact .inr h

theorem bestFit {normalized : List Char} {f : Fit} (h : best? normalized = some f) :
    ∃ row ∈ PatternRow.all, fit? normalized row = some f := by
  have among (fits : List Fit) (best : Option Fit) (won : fits.foldl better best = some f) :
      f ∈ fits ∨ best = some f := by
    induction fits generalizing best with
    | nil => exact .inr won
    | cons g rest ih =>
      rcases ih _ won with mem | first
      · exact .inl (List.mem_cons_of_mem _ mem)
      · rcases betterFrom first with rfl | before
        · exact .inl List.mem_cons_self
        · exact .inr before
  rcases among _ none h with mem | nothing
  · exact List.mem_filterMap.mp mem
  · cases nothing

structure Winning (text : String) (f : Fit) : Prop where
  best : best? (normalize text).toList = some f
  listed : f.row ∈ PatternRow.all
  hit : f.row.pattern.match? (normalize text).toList = some f.hit

theorem patternWinning {least text c} (h : matchPattern? least text = some c) :
    ∃ f, Winning text f ∧ c = f.command text := by
  unfold matchPattern? at h
  simp only at h
  split at h
  · cases h
  · split at h
    · rename_i f best
      split at h
      · cases h
      · obtain ⟨row,listed,fit⟩ := bestFit best
        obtain ⟨hit,found,eq⟩ := Option.map_eq_some_iff.mp fit
        refine ⟨f,⟨best,?_,?_⟩,(Option.some.inj h).symm⟩
        · rw [← eq]; exact listed
        · rw [← eq]; exact found
    · cases h

def Fit.values (f : Fit) : List String :=
  f.hit.captures.map fun text => String.ofList (strip isBlank text)

theorem noneSkipped {entries : List (String × List Char)} (filled : ∀ e ∈ entries, e.2 ≠ []) :
    (entries.filterMap fun (key,value) =>
      if value.isEmpty then none else some (key,String.ofList value)) =
      entries.map fun e => (e.1,String.ofList e.2) := by
  rw [← List.filterMap_eq_map]
  refine List.filterMap_congr fun e mem => ?_
  simp [filled e mem]

/- No capture is blank, so none is passed over, and each value stands under its own key. -/
theorem entitiesFilled {f : Fit} (ascending : f.row.keys.Pairwise (· < ·))
    (count : f.hit.captures.length = f.row.keys.length)
    (solid : ∀ text ∈ f.hit.captures, ∃ c ∈ text, isBlank c = false) :
    f.entities.entries = f.row.keys.zip f.values := by
  have filled : ∀ e ∈ f.row.keys.zip (f.hit.captures.map (strip isBlank)), e.2 ≠ [] := by
    intro e mem
    obtain ⟨text,inside,eq⟩ := List.mem_map.mp (List.of_mem_zip mem).2
    obtain ⟨c,here,visible⟩ := solid text inside
    rw [← eq]
    exact Text.stripKeeps here visible
  have named : f.row.keys.zip f.values = (f.row.keys.zip (f.hit.captures.map (strip isBlank))).map
      fun e => (e.1,String.ofList e.2) := by
    simp [Fit.values,List.zip_map_right]
  -- with a key for each value the entries stand in the order of the keys, which the map keeps
  have keys : (f.row.keys.zip f.values).map Prod.fst = f.row.keys :=
    List.map_fst_zip (by simp [Fit.values,count])
  have order : Ascending (f.row.keys.zip f.values) := by
    rw [← keys] at ascending
    exact List.pairwise_map.mp ascending
  unfold Fit.entities
  rw [noneSkipped filled,← named]
  exact KeyMap.ofAscending order

/-- A part of the normalised text, without blanks at its edges. -/
structure Spoken (text value : String) : Prop where
  nonempty : value ≠ ""
  begins : value.toList.head?.any isBlank = false
  ends : value.toList.getLast?.any isBlank = false
  inside : value.toList <:+: (normalize text).toList

/-- The command has a value for each key of the row, which its intent requires, and no other; each of them
was spoken. -/
structure Complete (text : String) (row : PatternRow) (c : Command) : Prop where
  intent : c.intent = row.intent
  single : c.intent ≠ .chainedCommand
  builtIn : c.intent ≠ .customAlias
  keys : c.entities.keys = row.keys
  required : row.keys = c.intent.required
  values : ∀ key value, (key,value) ∈ c.entities.entries → Spoken text value

theorem fitComplete {text f} (won : Winning text f) : Complete text f.row (f.command text) := by
  have sound := rowSound won.listed
  obtain ⟨count,solid⟩ := Pattern.matchCaptures sound.solid (Text.normalSpaced text) won.hit
  have filled := entitiesFilled sound.ascending (count.trans sound.count) fun text mem => (solid text mem).2
  have keys : f.entities.keys = f.row.keys := by
    rw [KeyMap.keys,filled]
    exact List.map_fst_zip (by simp [Fit.values,count.trans sound.count])
  refine ⟨rfl,sound.single,sound.builtIn,keys,sound.required,fun key value mem => ?_⟩
  change (key,value) ∈ f.entities.entries at mem
  rw [filled] at mem
  obtain ⟨part,captured,eq⟩ := List.mem_map.mp (List.of_mem_zip mem).2
  obtain ⟨inside,c,here,visible⟩ := solid part captured
  have chars : value.toList = strip isBlank part := by simp [← eq]
  refine ⟨fun empty => ?_,?_,?_,?_⟩
  · rw [empty] at chars
    exact Text.stripKeeps here visible chars.symm
  · rw [chars]
    exact Text.stripFirst _ _
  · rw [chars]
    exact Text.stripLast _ _
  · rw [chars]
    exact (Text.stripInfix _ _).trans inside

theorem spokenVisible {text value} (h : Spoken text value) : Text.allBlank value = false := by
  have nonempty : value.toList ≠ [] := fun empty => h.nonempty (String.toList_eq_nil_iff.mp empty)
  obtain ⟨c,rest,begins⟩ := List.exists_cons_of_ne_nil nonempty
  have first := h.begins
  rw [begins] at first
  simp [Text.allBlank,begins,show isBlank c = false from first]

theorem completeValues {text row c} (h : Complete text row c) : c.missing c.intent.required = [] := by
  refine List.filter_eq_nil_iff.mpr fun key mem => ?_
  rw [← h.required,← h.keys] at mem
  obtain ⟨entry,listed,eq⟩ := List.mem_map.mp mem
  cases found : c.entities.entries.lookup key with
  | none =>
    have other := List.lookup_eq_none_iff.mp found entry listed
    simp [eq] at other
  | some value =>
    obtain ⟨before,after,split,_⟩ := List.lookup_eq_some_iff.mp found
    have visible := spokenVisible (h.values key value (by simp [split]))
    simp [Command.entity?,KeyMap.get?,found,visible]

end Parser

namespace Executor

theorem callSupplied (e : Entry) (c : Command) (past : List Action) (intent : Intent) (key : String) :
    (callHandler e c past).2 ≠ .error (.missingEntity intent key) := by
  unfold callHandler
  cases e.handler with
  | none => simp
  | some handler =>
    simp only [Course.bindRun]
    cases (Course.call handler c past).2 <;> simp

theorem suppliedNeverMissing {ex : Executor} {c : Command} {e : Entry}
    (dispatched : ex.registry.entryFor? c = some e) (supplied : c.missing e.required = [])
    (past : List Action) (intent : Intent) (key : String) :
    (ex.tryExecute c past).2 ≠ .error (.missingEntity intent key) := by
  unfold tryExecute
  simp only [dispatched,supplied,List.head?_nil]
  cases e.enabled with
  | false => simp
  | true =>
    cases e.needsConfirmation with
    | false => exact callSupplied e c past intent key
    | true =>
      simp only [Bool.not_true,Bool.false_eq_true,if_false,if_true,Course.bindRun]
      cases (ex.confirm c past).2 with
      | false => simp
      | true => exact callSupplied e c _ intent key

end Executor

namespace Parser

theorem completeDispatched {text row c} (h : Complete text row c) (registry : Registry) :
    registry.entryFor? c = some (registry.entry c.intent) := by
  simp [Registry.entryFor?,Command.extension?,h.builtIn]

theorem completeServed {text row c} (h : Complete text row c) (ex : Executor) (past : List Action)
    (intent : Intent) (key : String) : (ex.tryExecute c past).2 ≠ .error (.missingEntity intent key) :=
  Executor.suppliedNeverMissing (completeDispatched h ex.registry) (completeValues h) past intent key

theorem patternFound {least text c} (h : matchPattern? least text = some c) :
    ∃ f, Winning text f ∧ Complete text f.row c := by
  obtain ⟨f,won,eq⟩ := patternWinning h
  exact ⟨f,won,eq ▸ fitComplete won⟩

/-- A command that the table finds in a text, or in a segment of a chain, has a value for each key that the
winning row declares and its intent requires, and no other; and no executor ever finds a value missing. -/
theorem tableCommandsComplete (least : Binary64) (text : String) :
    (∀ c, matchPattern? least text = some c → ∃ f, Winning text f ∧ Complete text f.row c ∧
      ∀ ex past intent key, (Executor.tryExecute ex c past).2 ≠ .error (.missingEntity intent key)) ∧
    ∀ commands, splitChain? least text = some commands → ∀ c ∈ commands, ∃ segment f,
      matchPattern? least segment = some c ∧ Winning segment f ∧ Complete segment f.row c ∧
        ∀ ex past intent key, (Executor.tryExecute ex c past).2 ≠ .error (.missingEntity intent key) := by
  constructor
  · intro c found
    obtain ⟨f,won,complete⟩ := patternFound found
    exact ⟨f,won,complete,completeServed complete⟩
  · intro commands chain c mem
    obtain ⟨segments,_,all⟩ := Option.bind_eq_some_iff.mp chain
    obtain ⟨segment,_,found⟩ := segmentFound all c mem
    obtain ⟨f,won,complete⟩ := patternFound found
    exact ⟨segment,f,found,won,complete,completeServed complete⟩

theorem safariComplete :
    (∃ c f, matchPattern? .zero "Open  Safari!" = some c ∧ c.intent = .openApp ∧
      c.entities.entries = [("appName","Safari")] ∧ Winning "Open  Safari!" f ∧
      Complete "Open  Safari!" f.row c) ∧
    ∃ c d, splitChain? .zero "open Safari and set volume to 30" = some [c,d] ∧
      d.entities.entries = [("level","30")] ∧ d.missing d.intent.required = [] := by
  have opening : ((matchPattern? .zero "Open  Safari!").map fun c => (c.intent,c.entities.entries)) =
      some (.openApp,[("appName","Safari")]) := by decide +kernel
  have chain : ((splitChain? .zero "open Safari and set volume to 30").map
      fun commands => commands.map (·.entities.entries)) =
      some [[("appName","Safari")],[("level","30")]] := by decide +kernel
  constructor
  · obtain ⟨c,found,shape⟩ := Option.map_eq_some_iff.mp opening
    obtain ⟨intent,entries⟩ := Prod.mk.inj shape
    obtain ⟨f,won,complete,_⟩ := (tableCommandsComplete .zero "Open  Safari!").1 c found
    exact ⟨c,f,found,intent,entries,won,complete⟩
  · obtain ⟨commands,split,entries⟩ := Option.map_eq_some_iff.mp chain
    obtain ⟨c,rest,rfl,_,last⟩ := List.map_eq_cons_iff.mp entries
    obtain ⟨d,tail,rfl,own,nothing⟩ := List.map_eq_cons_iff.mp last
    cases List.map_eq_nil_iff.mp nothing
    obtain ⟨segment,f,_,_,complete,_⟩ :=
      (tableCommandsComplete .zero "open Safari and set volume to 30").2 [c,d] split d (by simp)
    exact ⟨c,d,split,own,completeValues complete⟩

end Parser

end VoiceCommand
