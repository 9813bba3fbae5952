import VoiceCommand.Pattern.Basic
import VoiceCommand.Proofs.Text.Caseless

/-! Patterns do not see the case of ASCII letters. On a text made small a pattern has the same matches, with what
they capture made small, and it cuts the text at the same places. -/
namespace VoiceCommand
open Text (asciiLower)

theorem CharKind.caseless (kind : CharKind) (c : Char) : kind.accepts c.toLower = kind.accepts c := by
  cases kind with
  | blank => exact Text.blankCaseless c
  | digit => exact Text.digitCaseless c
  | any => exact congrArg not (Text.newlineCaseless c)

namespace Pattern

theorem letterCaseless (c d : Char) : sameLetter c d.toLower = sameLetter c d := by
  -- the letter that is looked for stays as it is, so what is caseless is all that it is compared with
  have long : (d.toLower == 'ſ') = (d == 'ſ') := congrArg Text.Traits.longS (Text.traitsCaseless d)
  have kelvin : (d.toLower == '\u212a') = (d == '\u212a') := congrArg Text.Traits.kelvin (Text.traitsCaseless d)
  simp only [sameLetter,Text.lowerTwice,long,kelvin]

def Place.lowered (p : Place) : Place :=
  { p with before := p.before.map Char.toLower, rest := asciiLower p.rest }

theorem boundaryCaseless (before next : Option Char) :
    Text.isBoundary (before.map Char.toLower) (next.map Char.toLower) = Text.isBoundary before next := by
  simp only [Text.isBoundary,Option.any_map,Text.wordCaseless]

section
variable {accepts : Char → Bool} (same : ∀ c, accepts c.toLower = accepts c)
include same

theorem singleCaseless (place : Place) :
    single accepts place.lowered = (single accepts place).map Place.lowered := by
  obtain ⟨before,rest,position,captured⟩ := place
  cases rest with
  | nil => rfl
  | cons c rest =>
    simp only [single,Place.lowered,asciiLower,List.map_cons,same]
    split <;> rfl

/- Along the text; the places found so far are made small with the rest. -/
theorem reachCaseless (least : Nat) (most : Option Nat) (place : Place) (found : List Place) (rest : List Char) :
    reach accepts least most place.lowered (found.map Place.lowered) (asciiLower rest) =
      (reach accepts least most place found rest).map Place.lowered := by
  induction rest generalizing least most place found with
  | nil =>
    simp only [asciiLower,List.map_nil,reach]
    split <;> rfl
  | cons c rest ih =>
    have enough : (if least = 0 then place.lowered :: found.map Place.lowered else found.map Place.lowered) =
        (if least = 0 then place :: found else found).map Place.lowered := by
      split <;> rfl
    have next : place.lowered.step c.toLower (asciiLower rest) = (place.step c rest).lowered := rfl
    change reach accepts least most place.lowered _ (c.toLower :: asciiLower rest) = _
    simp only [reach,same,enough,next,ih]
    split <;> rfl

end

/- One case for each way to match. -/
theorem runCaseless (p : Pattern) (place : Place) : p.run place.lowered = (p.run place).map Place.lowered := by
  induction p generalizing place with
  | empty => rfl
  | char c => exact singleCaseless (letterCaseless c) place
  | oneOf cs =>
    refine singleCaseless (fun d => ?_) place
    simp only [letterCaseless]
  | many kind least most => exact reachCaseless kind.caseless least most place [] place.rest
  | seq p q first second =>
    simp only [run,first,List.flatMap_map,List.map_flatMap,second]
  | alt p q first second => simp only [run,first,second,List.map_append]
  | group p ih => exact ih place
  | optional p ih => simp only [run,ih,List.map_append,List.map_cons,List.map_nil]
  | capture p ih =>
    simp only [run,ih,List.map_map]
    rfl
  | boundary =>
    have seen := boundaryCaseless place.before place.rest.head?
    rw [← List.head?_map] at seen
    change (if Text.isBoundary (place.before.map Char.toLower) (place.rest.map Char.toLower).head? then _ else _) = _
    rw [seen,run]
    split <;> rfl
  | start =>
    simp only [run]
    change (if place.position = 0 then _ else _) = _
    split <;> rfl

def Match.lowered (m : Match) : Match := { m with captures := m.captures.map asciiLower }

theorem matchCaseless (p : Pattern) (cs : List Char) :
    p.match? (asciiLower cs) = (p.match? cs).map Match.lowered := by
  have start : Place.ofText (asciiLower cs) = (Place.ofText cs).lowered := rfl
  simp only [match?,start,runCaseless,List.head?_map,Option.map_map]
  refine congrArg (Option.map · _) (funext fun e => ?_)
  simp only [Function.comp_apply,Match.lowered,Place.lowered,asciiLower,List.map_map,← List.map_drop,← List.map_take]
  rfl

theorem occursCaseless (p : Pattern) (cs : List Char) : p.occurs (asciiLower cs) = p.occurs cs := by
  induction cs with
  | nil => rfl
  | cons c rest ih =>
    have here := matchCaseless p (c :: rest)
    simp only [asciiLower,List.map_cons] at here ih ⊢
    simp only [occurs,here,ih,Option.isSome_map]

theorem piecesCaseless (p : Pattern) (piece : List Char) (skip : Nat) (cs : List Char) :
    p.piecesFrom (asciiLower piece) skip (asciiLower cs) = (p.piecesFrom piece skip cs).map asciiLower := by
  induction cs generalizing piece skip with
  | nil => simp [asciiLower,piecesFrom]
  | cons c rest ih =>
    cases skip with
    | succ skip => exact ih piece skip
    | zero =>
      have further := ih (c :: piece) 0
      have begins (skip : Nat) := ih [] skip
      have here := matchCaseless p (c :: rest)
      simp only [asciiLower,List.map_cons,List.map_nil] at here further begins ⊢
      simp only [piecesFrom,here]
      rcases p.match? (c :: rest) with _ | ⟨length,captures⟩
      · exact further
      · cases length with
        | zero => exact further
        | succ length => simp [Match.lowered,begins,asciiLower]

theorem splitCaseless (p : Pattern) (cs : List Char) : p.split (asciiLower cs) = (p.split cs).map asciiLower :=
  piecesCaseless p [] 0 cs

end Pattern

end VoiceCommand
