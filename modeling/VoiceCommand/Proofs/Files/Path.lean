import Mathlib.Data.List.DropRight
import VoiceCommand.Files.Path

/-! What a path ends with. It consists of what stands up to the last slash and of one more piece, and it can only be
the path of a file if that piece is a name; another extension changes nothing but this name. -/
namespace VoiceCommand.Path

/-- Nothing, or something with a slash at its end. -/
def Front (before : List Char) : Prop := before = [] ∨ ∃ folder, before = folder ++ ['/']

structure Ends (cs before piece : List Char) : Prop where
  split : cs = before ++ piece
  front : Front before
  solid : '/' ∉ piece

/-- A piece that names something in a folder. -/
def Named (piece : List Char) : Prop := piece ≠ [] ∧ piece ≠ ['.'] ∧ piece ≠ ['.','.']

instance (piece : List Char) : Decidable (Named piece) := inferInstanceAs (Decidable (_ ∧ _ ∧ _))

theorem endsSome (cs : List Char) : ∃ before piece, Ends cs before piece := by
  induction cs with
  | nil => exact ⟨[],[],rfl,.inl rfl,List.not_mem_nil⟩
  | cons c rest ih =>
    obtain ⟨before,piece,split,front,solid⟩ := ih
    rcases front with rfl | ⟨folder,rfl⟩
    · by_cases slash : c = '/'
      · exact ⟨['/'],piece,by rw [slash,split]; rfl,.inr ⟨[],rfl⟩,solid⟩
      · exact ⟨[],c :: piece,by rw [split]; rfl,.inl rfl,by simp [Ne.symm slash,solid]⟩
    · exact ⟨c :: (folder ++ ['/']),piece,by rw [split]; rfl,.inr ⟨c :: folder,rfl⟩,solid⟩

theorem piecesSome (cs : List Char) : ∃ first others, pieces cs = first :: others := by
  cases cs with
  | nil => exact ⟨[],[],rfl⟩
  | cons c rest =>
    simp only [pieces]
    split
    · exact ⟨_,_,rfl⟩
    · split <;> exact ⟨_,_,rfl⟩

theorem piecesSolid {piece : List Char} (solid : '/' ∉ piece) : pieces piece = [piece] := by
  induction piece with
  | nil => rfl
  | cons c rest ih =>
    obtain ⟨other,later⟩ := List.ne_and_not_mem_of_not_mem_cons solid
    simp [pieces,ih later,isSlash,Ne.symm other]

theorem piecesSlashless {cs piece : List Char} (mem : piece ∈ pieces cs) : '/' ∉ piece := by
  induction cs generalizing piece with
  | nil =>
    rw [List.mem_singleton.mp mem]
    exact List.not_mem_nil
  | cons c rest ih =>
    obtain ⟨first,others,same⟩ := piecesSome rest
    rw [same] at ih
    simp only [pieces,same] at mem
    split at mem
    · rcases List.mem_cons.mp mem with rfl | mem
      · exact List.not_mem_nil
      · exact ih mem
    · rename_i other
      rcases List.mem_cons.mp mem with rfl | mem
      · have different : c ≠ '/' := by simpa [isSlash] using other
        simp [Ne.symm different,ih List.mem_cons_self]
      · exact ih (List.mem_cons_of_mem _ mem)

theorem piecesJoined (xs ys : List Char) : pieces (xs ++ '/' :: ys) = pieces xs ++ pieces ys := by
  induction xs with
  | nil =>
    obtain ⟨first,others,same⟩ := piecesSome ys
    simp [pieces,same,isSlash]
  | cons c rest ih =>
    obtain ⟨first,others,same⟩ := piecesSome rest
    simp only [List.cons_append,pieces,ih,same]
    split <;> rfl

theorem piecesEnd {before piece : List Char} (front : Front before) (solid : '/' ∉ piece) :
    pieces (before ++ piece) = (pieces before).dropLast ++ [piece] := by
  rcases front with rfl | ⟨folder,rfl⟩
  · exact piecesSolid solid
  · have alone : pieces (folder ++ ['/']) = pieces folder ++ [[]] := piecesJoined folder []
    rw [List.append_assoc,List.singleton_append,piecesJoined,piecesSolid solid,alone,List.dropLast_concat]

section
variable {before piece : List Char}

theorem backTrimmed (solid : '/' ∉ piece) (nonempty : piece ≠ []) (other : piece ≠ ['.']) :
    trimBack (before ++ piece).reverse = piece.reverse ++ before.reverse := by
  have seen : '/' ∉ piece.reverse := by simpa using solid
  rw [List.reverse_append]
  cases back : piece.reverse with
  | nil => exact absurd (List.reverse_eq_nil_iff.mp back) nonempty
  | cons c rest =>
    rw [back] at seen
    obtain ⟨notSlash,later⟩ := List.ne_and_not_mem_of_not_mem_cons seen
    rw [List.cons_append]
    unfold trimBack
    split
    · rename_i same
      exact absurd (List.cons.inj same).1 (Ne.symm notSlash)
    · rename_i same
      exact absurd (List.cons.inj same).1 (Ne.symm notSlash)
    · rename_i same
      obtain ⟨point,next⟩ := List.cons.inj same
      cases rest with
      | nil => exact absurd (List.reverse_eq_iff.mp back) (by simpa [point] using other)
      | cons d rest =>
        obtain ⟨slash,_⟩ := List.cons.inj next
        exact absurd slash.symm (List.ne_and_not_mem_of_not_mem_cons later).1
    · rfl

theorem lastPiece (front : Front before) (solid : '/' ∉ piece) (nonempty : piece ≠ []) (other : piece ≠ ['.']) :
    lastName? (before ++ piece) = if piece = ['.','.'] then none else some (before,piece) := by
  have taken : ∀ c ∈ piece.reverse, (!isSlash c) = true := fun c mem => by
    have different : c ≠ '/' := fun slash => solid (slash ▸ List.mem_reverse.mp mem)
    simp [isSlash,different]
  have stops : (before.reverse.takeWhile fun c => !isSlash c) = [] ∧
      (before.reverse.dropWhile fun c => !isSlash c) = before.reverse := by
    rcases front with rfl | ⟨folder,rfl⟩
    · exact ⟨rfl,rfl⟩
    · simp [isSlash]
  have name : (piece.reverse ++ before.reverse).takeWhile (fun c => !isSlash c) = _ :=
    List.takeWhile_append_of_pos taken
  have rest : (piece.reverse ++ before.reverse).dropWhile (fun c => !isSlash c) = _ :=
    List.dropWhile_append_of_pos taken
  simp only [lastName?,backTrimmed solid nonempty other,name,rest,stops.1,stops.2,List.append_nil,
    List.reverse_reverse,nonempty,other,false_or]

end

theorem lastNameEnds {cs before name : List Char} (found : lastName? cs = some (before,name)) :
    Front before ∧ '/' ∉ name := by
  simp only [lastName?] at found
  split at found
  · cases found
  · obtain ⟨rfl,rfl⟩ := Prod.mk.inj (Option.some.inj found)
    constructor
    · generalize trimBack cs.reverse = back
      have first := List.head?_dropWhile_not (fun c => !isSlash c) back
      cases rest : back.dropWhile fun c => !isSlash c with
      | nil => exact .inl rfl
      | cons c rest' =>
        rw [rest] at first
        have slash : c = '/' := by simpa [isSlash] using first
        exact .inr ⟨rest'.reverse,by rw [slash,List.reverse_cons]⟩
    · intro mem
      have kept := List.mem_takeWhile_imp (List.mem_reverse.mp mem)
      simp [isSlash] at kept

theorem extensionWithin (name : List Char) : ((stem name).2.getD []).length ≤ name.length := by
  simp only [stem]
  split
  · exact Nat.zero_le _
  · exact (List.drop_suffix _ _).length_le

theorem stemPrefix (name : List Char) : (stem name).1 <+: name := by
  simp only [stem]
  split
  · exact List.prefix_refl _
  · exact (List.dropLast_prefix _).trans (name.rdropWhile_prefix _)

/-- A name without its extension; a point in front of that stays. -/
def core (name : List Char) : List Char := name.take (name.length - ((stem name).2.getD []).length)

theorem stemCore (name : List Char) :
    (stem (core name)).1 = (stem name).1 ∧ (core name = name ∨ 1 < (core name).length) := by
  let upToPoint := Text.dropEnd (· != '.') name
  by_cases short : upToPoint.length ≤ 1
  · have whole : stem name = (name,none) := if_pos short
    have same : core name = name := by simp [core,whole]
    exact ⟨by rw [same],.inl same⟩
  · have cut : stem name = (upToPoint.dropLast,some (name.drop upToPoint.length)) := if_neg short
    have begins : upToPoint <+: name := name.rdropWhile_prefix _
    have same : core name = upToPoint := by
      have shorter := begins.length_le
      simp only [core,cut,Option.getD_some,List.length_drop]
      rw [show name.length - (name.length - upToPoint.length) = upToPoint.length by omega]
      exact List.prefix_iff_eq_take.mp begins ▸ rfl
    have again : Text.dropEnd (· != '.') upToPoint = upToPoint := List.rdropWhile_idempotent _ name
    refine ⟨?_,.inr (by rw [same]; omega)⟩
    rw [same,cut]
    simp only [stem,again,if_neg short]

/- Behind the last point nothing of a name counts for its stem. -/
theorem stemExtended (front middle : List Char) {last : List Char} (pointless : '.' ∉ last) :
    (stem (front ++ '.' :: (middle ++ '.' :: last))).1 = front ++ '.' :: middle := by
  have passed : ∀ c ∈ last.reverse, (c != '.') = true := fun c mem => by
    have different : c ≠ '.' := fun point => pointless (point ▸ List.mem_reverse.mp mem)
    simpa using different
  have upToPoint : Text.dropEnd (· != '.') (front ++ '.' :: (middle ++ '.' :: last)) =
      front ++ '.' :: (middle ++ ['.']) := by
    have back : (front ++ '.' :: (middle ++ '.' :: last)).reverse =
        last.reverse ++ '.' :: (front ++ '.' :: middle).reverse := by simp
    rw [Text.dropEnd,back,List.dropWhile_append_of_pos passed]
    simp
  have long : ¬ (front ++ '.' :: (middle ++ ['.'])).length ≤ 1 := by
    simp only [List.length_append,List.length_cons]
    omega
  simp only [stem,upToPoint,if_neg long]
  rw [show front ++ '.' :: (middle ++ ['.']) = (front ++ '.' :: middle) ++ ['.'] by simp,List.dropLast_concat]

/-- The one path can only lead to a folder, or both lead to different names in the same folder. -/
inductive Apart (p q : String) : Prop
  | fromFolder {before piece} (ends : Ends p.toList before piece) (unnamed : ¬ Named piece)
  | toFolder {before piece} (ends : Ends q.toList before piece) (unnamed : ¬ Named piece)
  | siblings {before x y} (first : Ends p.toList before x) (second : Ends q.toList before y) (other : x ≠ y)

theorem namedLast {cs before piece : List Char} (ends : Ends cs before piece) (named : Named piece) :
    lastName? cs = some (before,piece) := by
  rw [ends.split,lastPiece ends.front ends.solid named.1 named.2.1,if_neg named.2.2]

theorem unnamedEnds {cs : List Char} (unnamed : lastName? cs = none) :
    ∃ before piece, Ends cs before piece ∧ ¬ Named piece := by
  obtain ⟨before,piece,ends⟩ := endsSome cs
  refine ⟨before,piece,ends,fun named => ?_⟩
  rw [namedLast ends named] at unnamed
  cases unnamed

/-- A path without the extension of its last name. -/
def cut (path : String) : List Char :=
  let cs := path.toList
  cs.take (cs.length - (((lastName? cs).bind fun (_,name) => (stem name).2).getD []).length)

theorem extensionCut (path ext : String) : withExtension path ext =
    match lastName? (cut path) with
    | none => String.ofList (cut path)
    | some (before,name) => String.ofList (before ++ (stem name).1 ++ '.' :: ext.toList) := by
  unfold withExtension cut
  rfl

theorem extendedEnds {before name : List Char} (front : Front before) (solid : '/' ∉ name) {ext : String}
    (slashless : '/' ∉ ext.toList) :
    Ends (before ++ (stem name).1 ++ '.' :: ext.toList) before ((stem name).1 ++ '.' :: ext.toList) := by
  have inside : '/' ∉ (stem name).1 := fun mem => solid ((stemPrefix name).subset mem)
  exact ⟨List.append_assoc _ _ _,front,by simp [inside,slashless]⟩

theorem cutNamed {path : String} {before piece : List Char} (ends : Ends path.toList before piece)
    (named : Named piece) :
    lastName? (cut path) = if core piece = ['.','.'] then none else some (before,core piece) := by
  have long : core piece ≠ [] ∧ core piece ≠ ['.'] := by
    rcases (stemCore piece).2 with same | long
    · rw [same]
      exact ⟨named.1,named.2.1⟩
    · constructor <;> rintro short <;> simp [short] at long
  have within : '/' ∉ core piece := fun mem => ends.solid ((List.take_prefix _ _).subset mem)
  have remains : cut path = before ++ core piece := by
    have inside := extensionWithin piece
    simp only [cut,namedLast ends named,Option.bind_some]
    rw [ends.split,List.take_append,List.length_append,List.take_of_length_le (by omega),core]
    congr 2
    omega
  rw [remains,lastPiece ends.front within long.1 long.2]

/- With two points of its own, the new extension leaves a longer stem than the old name had. -/
theorem extensionApart {ext : String} {middle last : List Char} (shape : ext.toList = middle ++ '.' :: last)
    (pointless : '.' ∉ last) (slashless : '/' ∉ ext.toList) (path : String) :
    Apart (withExtension path ext) path := by
  obtain ⟨before,piece,ends⟩ := endsSome path.toList
  by_cases named : Named piece
  · rw [extensionCut]
    cases found : lastName? (cut path) with
    | none =>
      obtain ⟨_,_,folder,unnamed⟩ := unnamedEnds found
      exact .fromFolder (by rw [String.toList_ofList]; exact folder) unnamed
    | some parts =>
      rw [cutNamed ends named] at found
      split at found
      · cases found
      · cases Option.some.inj found
        have within : '/' ∉ core piece := fun mem => ends.solid ((List.take_prefix _ _).subset mem)
        refine .siblings (by rw [String.toList_ofList]; exact extendedEnds ends.front within slashless) ends ?_
        rw [(stemCore piece).1]
        intro same
        have longer := stemExtended (stem piece).1 middle pointless
        rw [← shape,same] at longer
        simpa using congrArg List.length longer
  · exact .toFolder ends named

theorem extensionsApart {ext other : String} (slashless : '/' ∉ ext.toList) (slashlessToo : '/' ∉ other.toList)
    (different : ext ≠ other) (path : String) : Apart (withExtension path ext) (withExtension path other) := by
  rw [extensionCut,extensionCut]
  cases found : lastName? (cut path) with
  | none =>
    obtain ⟨_,_,folder,unnamed⟩ := unnamedEnds found
    exact .fromFolder (by rw [String.toList_ofList]; exact folder) unnamed
  | some parts =>
    obtain ⟨front,solid⟩ := lastNameEnds found
    refine .siblings (by rw [String.toList_ofList]; exact extendedEnds front solid slashless)
      (by rw [String.toList_ofList]; exact extendedEnds front solid slashlessToo) fun same => ?_
    exact different (String.toList_inj.mp (List.cons.inj (List.append_cancel_left same)).2)

end VoiceCommand.Path
