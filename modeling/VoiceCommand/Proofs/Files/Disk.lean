import VoiceCommand.Files.Disk
import VoiceCommand.Proofs.Files.Path
import VoiceCommand.Proofs.KeyMap

/-! What the operations of a program do to a disk. Files lie in folders, folders stay, and a file that is written
does not touch those beside it. -/
namespace VoiceCommand.Disk
open VoiceCommand.Path (Ends Named Apart)

variable {d e : Disk} {place : Place} {path : String}

theorem keyLast (inside : place ≠ []) (name : String) : key (place ++ [name]) = key place ++ "/" ++ name := by
  induction place with
  | nil => exact absurd rfl inside
  | cons first rest ih =>
    simp only [key,List.cons_append] at ih ⊢
    rw [String.intercalate_cons_of_ne_nil (by simp)]
    by_cases last : rest = []
    · subst last
      simp
    · rw [ih last,String.intercalate_cons_of_ne_nil last]
      simp only [String.append_assoc]

theorem keyOwn {x y : String} (same : key (place ++ [x]) = key (place ++ [y])) : x = y := by
  by_cases root : place = []
  · subst root
    exact same
  · rw [keyLast root,keyLast root] at same
    exact (String.append_right_inj _).mp same

/-- Whatever the disk holds lies in a folder. -/
structure Tree (d : Disk) : Prop where
  rooted : ∀ folder rest, (d.nodes.get? (folder ++ "/" ++ rest)).isSome → d.nodes.get? folder = some .folder

theorem isFolderIff : d.isFolder place = true ↔ d.nodeAt? place = some .folder := by
  rw [isFolder,beq_iff_eq]

theorem rootFolder (d : Disk) : d.isFolder [] = true := isFolderIff.mpr rfl

theorem nodeInside (inside : place ≠ []) : d.nodeAt? place = d.nodes.get? (key place) := if_neg inside

theorem notRoot (free : d.isFolder place = false) : place ≠ [] := by
  rintro rfl
  rw [rootFolder] at free
  cases free

theorem treeParent (tree : d.Tree) {name : String} (held : (d.nodeAt? (place ++ [name])).isSome) :
    d.isFolder place = true := by
  by_cases root : place = []
  · rw [root]
    exact rootFolder d
  · rw [nodeInside (by simp),keyLast root] at held
    rw [isFolderIff,nodeInside root]
    exact tree.rooted _ _ held

/-- Where one piece of a path leads. -/
inductive Followed (place : Place) (piece : List Char) : Place → Prop
  | stays (dot : piece = [] ∨ piece = ['.']) : Followed place piece place
  | up (dots : piece = ['.','.']) : Followed place piece place.dropLast
  | into (named : Named piece) : Followed place piece (place ++ [String.ofList piece])

theorem followed {piece : List Char} {next : Place} (found : d.follow? place piece = some next) :
    d.isFolder place = true ∧ Followed place piece next := by
  unfold follow? at found
  split at found
  · cases found
  · rename_i passed
    have folder : d.isFolder place = true := by
      simp only [Bool.or_eq_true,not_or,Bool.not_eq_true,Bool.not_eq_false'] at passed
      exact passed.1
    refine ⟨folder,?_⟩
    split at found
    · rename_i dot
      cases Option.some.inj found
      exact .stays dot
    · rename_i notDot
      split at found
      · rename_i dots
        cases Option.some.inj found
        exact .up dots
      · rename_i notDots
        cases Option.some.inj found
        exact .into ⟨fun empty => notDot (.inl empty),fun dot => notDot (.inr dot),notDots⟩

/- Only a name leads to something that is no folder. -/
theorem ledTo (tree : d.Tree) {piece : List Char} {next : Place} (found : d.follow? place piece = some next) :
    d.isFolder next = true ∨ Named piece ∧ next = place ++ [String.ofList piece] := by
  obtain ⟨folder,way⟩ := followed found
  cases way with
  | stays dot => exact .inl folder
  | into named => exact .inr ⟨named,rfl⟩
  | up dots =>
    rcases List.eq_nil_or_concat place with rfl | ⟨parent,name,rfl⟩
    · exact .inl (rootFolder d)
    · rw [List.concat_eq_append] at folder ⊢
      rw [List.dropLast_concat]
      have held : (d.nodeAt? (parent ++ [name])).isSome := by
        rw [isFolderIff.mp folder]
        rfl
      exact .inl (treeParent tree held)

/-- The folder to which a path leads before its last piece. -/
def base? (d : Disk) (before : List Char) : Option Place :=
  (Path.pieces before).dropLast.foldlM d.follow? (d.start (String.ofList before))

theorem locateBase {before piece : List Char} (ends : Ends path.toList before piece) :
    d.locate? path = if Path.isPath path then (d.base? before).bind (d.follow? · piece) else none := by
  have start : d.start path = d.start (String.ofList before) := by
    simp only [Disk.start,String.toList_ofList,ends.split]
    cases before with
    | cons c rest => rfl
    | nil =>
      refine if_neg fun slash => ends.solid ?_
      exact List.mem_of_head? slash
  rw [locate?,ends.split,Path.piecesEnd ends.front ends.solid,List.foldlM_append,start]
  simp [base?]

theorem locatedBase {before piece : List Char} (ends : Ends path.toList before piece)
    (found : d.locate? path = some place) :
    ∃ base, d.base? before = some base ∧ d.follow? base piece = some place := by
  rw [locateBase ends] at found
  split at found
  · exact Option.bind_eq_some_iff.mp found
  · cases found

theorem unnamedLocated (tree : d.Tree) {before piece : List Char} (ends : Ends path.toList before piece)
    (unnamed : ¬ Named piece) (found : d.locate? path = some place) : d.isFolder place = true := by
  obtain ⟨base,_,last⟩ := locatedBase ends found
  exact (ledTo tree last).resolve_right fun into => unnamed into.1

/- A place without a folder is reached by a name. -/
theorem newLocated (tree : d.Tree) (found : d.locate? path = some place) (free : d.isFolder place = false) :
    ∃ folder name, place = folder ++ [name] ∧ d.isFolder folder = true ∧ '/' ∉ name.toList := by
  obtain ⟨before,piece,ends⟩ := Path.endsSome path.toList
  obtain ⟨base,_,last⟩ := locatedBase ends found
  rcases ledTo tree last with folder | ⟨_,rfl⟩
  · rw [folder] at free
    cases free
  · exact ⟨base,String.ofList piece,rfl,(followed last).1,by rw [String.toList_ofList]; exact ends.solid⟩

theorem nodePut (place : Place) (node : FileNode) (other : Place) : (d.put place node).nodeAt? other =
    if other ≠ [] ∧ key other = key place then some node else d.nodeAt? other := by
  simp only [nodeAt?,put,KeyMap.getInsert]
  by_cases root : other = [] <;> simp [root]

theorem nodeRemoved (place : Place) (other : Place) : (d.remove place).nodeAt? other =
    if other ≠ [] ∧ key other = key place then none else d.nodeAt? other := by
  simp only [nodeAt?,remove,KeyMap.getWithout]
  by_cases root : other = [] <;> simp [root]

theorem nodeAlike {other : Place} (inside : place ≠ []) (alike : other ≠ [] ∧ key other = key place) :
    d.nodeAt? other = d.nodeAt? place := by
  rw [nodeInside inside,nodeInside alike.1,alike.2]

/- A file takes the place of a file or of nothing, and neither is a folder. -/
theorem foldersPut (free : d.isFolder place = false) (text : Option String) :
    (d.put place (.file text)).isFolder = d.isFolder := by
  funext other
  simp only [isFolder,nodePut place]
  split
  · rename_i alike
    rw [nodeAlike (notRoot free) alike]
    exact free.symm
  · rfl

theorem foldersRemoved (free : d.isFolder place = false) : (d.remove place).isFolder = d.isFolder := by
  funext other
  simp only [isFolder,nodeRemoved place]
  split
  · rename_i alike
    rw [nodeAlike (notRoot free) alike]
    exact free.symm
  · rfl

theorem locateSame (folders : e.isFolder = d.isFolder) (working : e.working = d.working) :
    e.locate? = d.locate? := by
  have follow : e.follow? = d.follow? := by
    funext place piece
    simp only [follow?,folders]
  have start : e.start = d.start := by
    funext path
    simp only [Disk.start,working]
  funext path
  simp only [locate?,follow,start]

theorem fileBeside (tree : d.Tree) {p q : String} (apart : Apart p q) (found : d.locate? p = some place)
    (free : d.isFolder place = false) (text : Option String) :
    (d.put place (.file text)).node? q = d.node? q := by
  have same : (d.put place (.file text)).locate? = d.locate? := locateSame (foldersPut free text) rfl
  simp only [node?,same]
  cases there : d.locate? q with
  | none => rfl
  | some other =>
    have elsewhere (different : ¬ (other ≠ [] ∧ key other = key place)) :
        (d.put place (.file text)).nodeAt? other = d.nodeAt? other := by
      rw [nodePut place,if_neg different]
    have folder (is : d.isFolder other = true) : ¬ (other ≠ [] ∧ key other = key place) := fun alike => by
      rw [isFolder,nodeAlike (notRoot free) alike] at is
      exact Bool.false_ne_true (free.symm.trans is)
    refine elsewhere ?_
    cases apart with
    | fromFolder ends unnamed =>
      rw [unnamedLocated tree ends unnamed found] at free
      cases free
    | toFolder ends unnamed => exact folder (unnamedLocated tree ends unnamed there)
    | siblings first second different =>
      obtain ⟨base,known,here⟩ := locatedBase first found
      obtain ⟨again,knownToo,next⟩ := locatedBase second there
      cases Option.some.inj (known.symm.trans knownToo)
      rcases ledTo tree next with is | ⟨_,rfl⟩
      · exact folder is
      · rcases ledTo tree here with is | ⟨_,rfl⟩
        · rw [is] at free
          cases free
        · exact fun alike => different (String.ofList_inj.mp (keyOwn alike.2)).symm

theorem changed (d : Disk) (path : String) (f : Place → Disk) : d.change path f = (false,d) ∨
    ∃ place, d.locate? path = some place ∧ d.isFolder place = false ∧ d.change path f = (true,f place) := by
  unfold change
  cases d.locate? path with
  | none => exact .inl rfl
  | some place =>
    cases free : d.isFolder place with
    | true => exact .inl (by simp [free])
    | false => exact .inr ⟨place,rfl,free,by simp [free]⟩

theorem writtenBeside (tree : d.Tree) {p q : String} (apart : Apart p q) (text : Option String) :
    (d.change p fun place => d.put place (.file text)).2.node? q = d.node? q := by
  rcases changed d p fun place => d.put place (.file text) with refused | ⟨place,found,free,done⟩
  · rw [refused]
  · rw [done]
    exact fileBeside tree apart found free text

theorem written {text : Option String} (accepted : (d.change path fun place => d.put place (.file text)).1 = true) :
    (d.change path fun place => d.put place (.file text)).2.node? path = some (.file text) := by
  rcases changed d path fun place => d.put place (.file text) with refused | ⟨place,found,free,done⟩
  · rw [refused] at accepted
    cases accepted
  · rw [done]
    simp only [node?,locateSame (foldersPut free text) rfl,found,Option.bind_some,nodePut]
    exact if_pos ⟨notRoot free,trivial⟩

/-- What a rename can do: nothing, or move a file. -/
inductive Renamed (d : Disk) (source target : String) : Bool × Disk → Prop
  | refused : Renamed d source target (false,d)
  | moved {old place text} (located : d.locate? source = some old) (held : d.nodeAt? old = some (.file text))
      (found : d.locate? target = some place) (free : d.isFolder place = false) :
      Renamed d source target (true,(d.remove old).put place (.file text))

theorem renamed (d : Disk) (source target : String) :
    Renamed d source target (d.perform (.rename source target)) := by
  simp only [perform,node?]
  cases located : d.locate? source with
  | none => exact .refused
  | some old =>
    simp only [Option.bind_some]
    cases held : d.nodeAt? old with
    | none => exact .refused
    | some node =>
      cases node with
      | folder => exact .refused
      | file text =>
        simp only
        rcases changed d target fun place => (d.remove old).put place (.file text) with
          refused | ⟨place,found,free,done⟩
        · rw [refused]
          exact .refused
        · rw [done]
          exact .moved located held found free

theorem fileFree {text : Option String} (held : d.nodeAt? place = some (.file text)) : d.isFolder place = false := by
  simp [isFolder,held]

theorem foldersMoved {old : Place} {text : Option String} (held : d.nodeAt? old = some (.file text))
    (free : d.isFolder place = false) : ((d.remove old).put place (.file text)).isFolder = d.isFolder := by
  have kept := foldersRemoved (fileFree held)
  rw [foldersPut (by rw [kept]; exact free),kept]

theorem renamedNode {source target : String} (accepted : (d.perform (.rename source target)).1 = true) :
    ∃ text, d.node? source = some (.file text) ∧
      (d.perform (.rename source target)).2.node? target = some (.file text) := by
  have done := renamed d source target
  revert accepted
  generalize d.perform (.rename source target) = result at done
  intro accepted
  cases done with
  | refused => cases accepted
  | @moved old place text located held found free =>
    refine ⟨text,by simp [node?,located,held],?_⟩
    simp only [node?,locateSame (foldersMoved held free) rfl,found,Option.bind_some,nodePut]
    exact if_pos ⟨notRoot free,trivial⟩

section
variable {folder : Place} {name : String}

theorem slashSplit {front start rest : String} (solid : '/' ∉ name.toList)
    (same : front ++ "/" ++ name = start ++ "/" ++ rest) :
    start = front ∨ ∃ middle, front = start ++ "/" ++ middle := by
  have chars := congrArg String.toList same
  have slash : "/".toList = ['/'] := rfl
  simp only [String.toList_append,List.append_assoc,slash,List.singleton_append] at chars
  rcases List.append_eq_append_iff.mp chars with ⟨between,longer,behind⟩ | ⟨between,longer,behind⟩
  · cases between with
    | nil => exact .inl (String.toList_inj.mp (by simpa using longer))
    | cons c between =>
      obtain ⟨_,later⟩ := List.cons.inj behind
      exact absurd (by simp [later]) solid
  · cases between with
    | nil => exact .inl (String.toList_inj.mp (by simpa using longer.symm))
    | cons c between =>
      obtain ⟨rfl,_⟩ := List.cons.inj behind
      exact .inr ⟨String.ofList between,String.toList_inj.mp (by simp [longer,slash])⟩

theorem longerKey (front rest : String) : front ≠ front ++ "/" ++ rest := by
  intro same
  have length := congrArg String.length same
  simp only [String.length_append] at length
  have slash : "/".length = 1 := rfl
  omega

/- The folder of the new name is there, and so is, by the tree, every folder above it. -/
theorem treePut (tree : d.Tree) (parent : d.isFolder folder = true) (solid : '/' ∉ name.toList) {node : FileNode}
    (safe : node = .folder ∨ d.isFolder (folder ++ [name]) = false) : (d.put (folder ++ [name]) node).Tree := by
  refine ⟨fun start rest held => ?_⟩
  have inside : folder ++ [name] ≠ [] := by simp
  simp only [put,KeyMap.getInsert] at held ⊢
  split at held
  · rename_i own
    have outer : start ≠ key (folder ++ [name]) := by
      rw [← own]
      exact longerKey start rest
    rw [if_neg outer]
    by_cases root : folder = []
    · subst root
      have slash : '/' ∈ name.toList := by
        change start ++ "/" ++ rest = name at own
        rw [← own]
        simp
      exact absurd slash solid
    · rw [keyLast root] at own
      rw [isFolderIff,nodeInside root] at parent
      rcases slashSplit solid own.symm with rfl | ⟨middle,above⟩
      · exact parent
      · refine tree.rooted start middle ?_
        rw [← above,parent]
        rfl
  · have before := tree.rooted start rest held
    split
    · rename_i replaced
      rcases safe with rfl | free
      · rfl
      · rw [isFolder,nodeInside inside,← replaced,before] at free
        cases free
    · exact before

theorem treeRemoved (tree : d.Tree) {text : Option String} (held : d.nodeAt? place = some (.file text)) :
    (d.remove place).Tree := by
  refine ⟨fun start rest later => ?_⟩
  simp only [remove,KeyMap.getWithout] at later ⊢
  split at later
  · cases later
  · have before := tree.rooted start rest later
    split
    · rename_i gone
      rw [nodeInside (notRoot (fileFree held)),← gone,before] at held
      cases held
    · exact before

theorem treeFile (tree : d.Tree) (found : d.locate? path = some place) (free : d.isFolder place = false)
    (text : Option String) : (d.put place (.file text)).Tree := by
  obtain ⟨folder,name,rfl,parent,solid⟩ := newLocated tree found free
  exact treePut tree parent solid (.inr free)

end

/-- The disk afterwards has some more folders, and nothing else is different. -/
structure Grown (d e : Disk) : Prop where
  working : e.working = d.working
  locked : e.locked = d.locked
  kept : ∀ place node, d.nodeAt? place = some node → e.nodeAt? place = some node
  new : ∀ place, d.nodeAt? place = none → e.nodeAt? place = none ∨ e.nodeAt? place = some .folder
  tree : d.Tree → e.Tree

theorem Grown.refl (d : Disk) : Grown d d := ⟨rfl,rfl,fun _ _ held => held,fun _ none => .inl none,id⟩

theorem Grown.trans {c : Disk} (first : Grown c d) (second : Grown d e) : Grown c e where
  working := second.working.trans first.working
  locked := second.locked.trans first.locked
  kept place node held := second.kept place node (first.kept place node held)
  new place none := by
    rcases first.new place none with none | folder
    · exact second.new place none
    · exact .inr (second.kept place .folder folder)
  tree tree := second.tree (first.tree tree)

theorem enterGrown (tree : d.Tree) (here : Option Place) {piece : List Char} (solid : '/' ∉ piece) :
    Grown d (enter (d,here) piece).1 := by
  unfold enter
  simp only
  split
  · exact .refl d
  · rename_i next led
    obtain ⟨place,rfl,found⟩ := Option.bind_eq_some_iff.mp led
    cases held : d.nodeAt? next with
    | some node => simpa [held] using Grown.refl d
    | none =>
      simp only [Option.isNone_none,if_true]
      rcases ledTo tree found with folder | ⟨_,rfl⟩
      · rw [isFolder,held] at folder
        cases folder
      · have inside : place ++ [String.ofList piece] ≠ [] := by simp
        refine ⟨rfl,rfl,fun other node before => ?_,fun other none => ?_,fun tree => ?_⟩
        · rw [nodePut,if_neg]
          · exact before
          · intro alike
            rw [nodeAlike inside alike,held] at before
            cases before
        · rw [nodePut]
          split
          · exact .inr rfl
          · exact .inl none
        · exact treePut tree (followed found).1 (by rw [String.toList_ofList]; exact solid) (.inl rfl)

theorem makeFoldersGrown (tree : d.Tree) (path : String) : Grown d (d.makeFolders path).2 := by
  have along (pieces : List (List Char)) (solid : ∀ piece ∈ pieces, '/' ∉ piece) (state : Disk × Option Place)
      (tree : state.1.Tree) : Grown state.1 (pieces.foldl enter state).1 := by
    induction pieces generalizing state with
    | nil => exact .refl _
    | cons piece rest ih =>
      have first := enterGrown tree state.2 (solid piece List.mem_cons_self)
      exact first.trans (ih (fun other mem => solid other (List.mem_cons_of_mem _ mem)) _ (first.tree tree))
  unfold makeFolders
  split
  · exact along _ (fun _ mem => Path.piecesSlashless mem) (d,some (d.start path)) tree
  · exact .refl d

/-- The file system of the path stays as it is when folders are made: its folder is there, or the path never goes up. -/
def Reached (d : Disk) (path : String) : Prop :=
  (d.locate? path).isSome ∨ ['.','.'] ∉ Path.pieces path.toList

theorem followKept {piece : List Char} {next : Place} (folder : e.isFolder place = true)
    (found : d.follow? place piece = some next) : e.follow? place piece = some next := by
  have before := (followed found).1
  unfold follow? at found ⊢
  simpa only [before,folder] using found

theorem locateKept (working : e.working = d.working)
    (folders : ∀ place, d.isFolder place = true → e.isFolder place = true)
    (found : d.locate? path = some place) : e.locate? path = some place := by
  have along (pieces : List (List Char)) (start : Place) (found : pieces.foldlM d.follow? start = some place) :
      pieces.foldlM e.follow? start = some place := by
    induction pieces generalizing start with
    | nil => exact found
    | cons piece rest ih =>
      simp only [List.foldlM_cons,bind,Option.bind_eq_some_iff] at found ⊢
      obtain ⟨next,led,later⟩ := found
      exact ⟨next,followKept (folders start (followed led).1) led,ih next later⟩
  have start : e.start path = d.start path := by simp only [Disk.start,working]
  unfold locate? at found ⊢
  rw [start]
  split at found
  · rename_i valid
    rw [if_pos valid]
    exact along _ _ found
  · cases found

theorem Grown.folders (grown : Grown d e) (place : Place) (folder : d.isFolder place = true) :
    e.isFolder place = true :=
  isFolderIff.mpr (grown.kept place .folder (isFolderIff.mp folder))

/- Without a way up a path leads through the folders above its place, which are there if something lies in it. -/
theorem revealed (tree : d.Tree) (grown : Grown d e) (straight : ['.','.'] ∉ Path.pieces path.toList)
    (found : e.locate? path = some place) (held : (d.nodeAt? place).isSome) : d.locate? path = some place := by
  have along (start : Place) (pieces : List (List Char)) (straight : ['.','.'] ∉ pieces) (place : Place)
      (found : pieces.foldlM e.follow? start = some place) (held : (d.nodeAt? place).isSome) :
      pieces.foldlM d.follow? start = some place := by
    induction pieces using List.reverseRecOn generalizing place with
    | nil => exact found
    | append_singleton rest piece ih =>
      simp only [List.foldlM_append,List.foldlM_cons,List.foldlM_nil,bind_pure,Option.bind_eq_bind,
        Option.bind_eq_some_iff] at found ⊢
      obtain ⟨folder,before,last⟩ := found
      have earlier : ['.','.'] ∉ rest := fun mem => straight (List.mem_append_left _ mem)
      obtain ⟨isFolder,way⟩ := followed last
      have there : d.isFolder folder = true := by
        cases way with
        | up dots => exact absurd (by simp [dots]) straight
        | into _ => exact treeParent tree held
        | stays _ =>
          obtain ⟨node,same⟩ := Option.isSome_iff_exists.mp held
          have after := grown.kept _ node same
          rw [isFolderIff.mp isFolder] at after
          rw [isFolderIff,same,after]
      exact ⟨folder,ih earlier folder before (by rw [isFolderIff.mp there]; rfl),followKept there last⟩
  have start : e.start path = d.start path := by simp only [Disk.start,grown.working]
  unfold locate? at found ⊢
  rw [start] at found
  split at found
  · rename_i valid
    rw [if_pos valid]
    exact along _ _ straight _ found held
  · cases found

theorem grownNode (tree : d.Tree) (grown : Grown d e) (reached : d.Reached path) :
    e.node? path = d.node? path ∨ d.node? path = none ∧ e.node? path = some .folder := by
  unfold node?
  cases before : d.locate? path with
  | some place =>
    have after := locateKept grown.working grown.folders before
    simp only [after,Option.bind_some]
    cases held : d.nodeAt? place with
    | some node => exact .inl (grown.kept place node held)
    | none => exact (grown.new place held).imp_right fun folder => ⟨rfl,folder⟩
  | none =>
    cases after : e.locate? path with
    | none => exact .inl rfl
    | some place =>
      have straight : ['.','.'] ∉ Path.pieces path.toList := reached.resolve_left (by simp [before])
      cases held : d.nodeAt? place with
      | none => exact (grown.new place held).imp_right fun folder => ⟨rfl,folder⟩
      | some node =>
        rw [revealed tree grown straight after (by simp [held])] at before
        cases before

theorem Grown.nodeKept (grown : Grown d e) {node : FileNode} (held : d.node? path = some node) :
    e.node? path = some node := by
  obtain ⟨place,found,there⟩ := Option.bind_eq_some_iff.mp held
  rw [node?,locateKept grown.working grown.folders found]
  exact grown.kept place node there

/-- What every operation leaves in order: whatever lies in folders, and the folders themselves. -/
structure Stands (d e : Disk) : Prop where
  tree : e.Tree
  working : e.working = d.working
  folders : ∀ place, d.isFolder place = true → e.isFolder place = true

theorem changeStands (tree : d.Tree) (path : String) (text : Option String) :
    Stands d (d.change path fun place => d.put place (.file text)).2 := by
  rcases changed d path fun place => d.put place (.file text) with refused | ⟨place,found,free,done⟩
  · rw [refused]
    exact ⟨tree,rfl,fun _ => id⟩
  · rw [done]
    exact ⟨treeFile tree found free text,rfl,fun other => (congrFun (foldersPut free text) other).trans⟩

theorem performStands (tree : d.Tree) (op : FileOp) : Stands d (d.perform op).2 := by
  cases op with
  | present path => exact ⟨tree,rfl,fun _ => id⟩
  | read path => exact ⟨tree,rfl,fun _ => id⟩
  | makeFolders path =>
    have grown := makeFoldersGrown tree path
    exact ⟨grown.tree tree,grown.working,grown.folders⟩
  | create path => exact changeStands tree path (some "")
  | lock path => exact ⟨⟨tree.rooted⟩,rfl,fun _ => id⟩
  | unlock path => exact ⟨⟨tree.rooted⟩,rfl,fun _ => id⟩
  | write path text => exact changeStands tree path (some text)
  | sync path => exact ⟨tree,rfl,fun _ => id⟩
  | rename source target =>
    have done := renamed d source target
    generalize d.perform (.rename source target) = result at done
    cases done with
    | refused => exact ⟨tree,rfl,fun _ => id⟩
    | @moved old place text located held found free =>
      have kept := foldersRemoved (fileFree held)
      refine ⟨treeFile (treeRemoved tree held) ((congrFun (locateSame kept rfl) target).trans found) ?_ text,rfl,
        fun other => (congrFun (foldersMoved held free) other).trans⟩
      rw [kept]
      exact free

/- Only taking and giving back change what is locked. -/
theorem performLocked (tree : d.Tree) (op : FileOp) : (d.perform op).2.locked =
    match op with
    | .lock path => path :: d.locked
    | .unlock path => d.locked.erase path
    | _ => d.locked := by
  have written (path : String) (text : Option String) :
      (d.change path fun place => d.put place (.file text)).2.locked = d.locked := by
    rcases changed d path fun place => d.put place (.file text) with refused | ⟨place,_,_,done⟩
    · rw [refused]
    · rw [done]
      rfl
  cases op with
  | present path => rfl
  | read path => rfl
  | makeFolders path => exact (makeFoldersGrown tree path).locked
  | create path => exact written path (some "")
  | lock path => rfl
  | unlock path => rfl
  | write path text => exact written path (some text)
  | sync path => rfl
  | rename source target =>
    have done := renamed d source target
    generalize d.perform (.rename source target) = result at done
    cases done <;> rfl

theorem Stands.reached (stands : Stands d e) (reached : d.Reached path) : e.Reached path := by
  refine reached.imp_left fun located => ?_
  obtain ⟨place,found⟩ := Option.isSome_iff_exists.mp located
  rw [locateKept stands.working stands.folders found]
  rfl

theorem newTree {folder : String} (solid : '/' ∉ folder.toList) : (Disk.new folder).Tree := by
  refine ⟨fun start rest held => ?_⟩
  obtain ⟨node,found⟩ := Option.isSome_iff_exists.mp held
  have mem := KeyMap.getMem found
  rw [Disk.new,KeyMap.single,List.mem_singleton] at mem
  obtain ⟨same,_⟩ := Prod.mk.inj mem
  exact absurd (by simp [← same]) solid

end VoiceCommand.Disk
