import VoiceCommand.Files.Path
import VoiceCommand.Files.Program
import VoiceCommand.KeyMap

/-! A tree of files and folders, and what the operations of a program do to it. A path is followed
piece by piece, and everything on the way has to be a folder. -/
namespace VoiceCommand

inductive FileNode where
  | folder
  | file (text : Option String)
  deriving DecidableEq, Repr

abbrev Place := List String

/-- Files and folders by their place, the folder in which paths without a slash in front begin, and the
files that are locked. -/
structure Disk where
  nodes : KeyMap FileNode
  working : Place
  locked : List String
  deriving DecidableEq, Repr

namespace Disk

def key (place : Place) : String := "/".intercalate place

def new (folder : String) : Disk := ⟨.ofList [(folder,.folder)],[folder],[]⟩

def nodeAt? (d : Disk) (place : Place) : Option FileNode :=
  if place = [] then some .folder else d.nodes.get? (key place)

def isFolder (d : Disk) (place : Place) : Bool := d.nodeAt? place == some .folder

def follow? (d : Disk) (place : Place) (piece : List Char) : Option Place :=
  if !d.isFolder place || !Path.isName piece then none
  else if piece = [] ∨ piece = ['.'] then some place
  else if piece = ['.','.'] then some place.dropLast
  else some (place ++ [String.ofList piece])

def start (d : Disk) (path : String) : Place :=
  if path.toList.head? = some '/' then [] else d.working

def locate? (d : Disk) (path : String) : Option Place :=
  if Path.isPath path then (Path.pieces path.toList).foldlM d.follow? (d.start path) else none

def node? (d : Disk) (path : String) : Option FileNode := (d.locate? path).bind d.nodeAt?

def text? (d : Disk) (path : String) : Option String :=
  match d.node? path with
  | some (.file text) => text
  | _ => none

def put (d : Disk) (place : Place) (node : FileNode) : Disk :=
  { d with nodes := d.nodes.insert (key place) node }

def remove (d : Disk) (place : Place) : Disk :=
  { d with nodes := d.nodes.filter fun k _ => k != key place }

def change (d : Disk) (path : String) (f : Place → Disk) : Bool × Disk :=
  match d.locate? path with
  | some place => if d.isFolder place then (false,d) else (true,f place)
  | none => (false,d)

def enter : Disk × Option Place → List Char → Disk × Option Place
  | (d,here), piece =>
    match here.bind fun place => d.follow? place piece with
    | none => (d,none)
    | some place => (if (d.nodeAt? place).isNone then d.put place .folder else d,some place)

def makeFolders (d : Disk) (path : String) : Bool × Disk :=
  if Path.isPath path then
    let (d,there) := (Path.pieces path.toList).foldl enter (d,some (d.start path))
    (there.any d.isFolder,d)
  else (false,d)

/-- The reply to an operation, and the disk after it. Taking a lock is left to the scheduler where
several programs run. -/
def perform (d : Disk) : (op : FileOp) → op.Reply × Disk
  | .present path => ((d.node? path).isSome,d)
  | .read path => (d.text? path,d)
  | .makeFolders path => d.makeFolders path
  | .create path => d.change path fun place => d.put place (.file (some ""))
  | .lock path => (true,{ d with locked := path :: d.locked })
  | .unlock path => (true,{ d with locked := d.locked.erase path })
  | .write path text => d.change path fun place => d.put place (.file (some text))
  | .sync _ => (true,d)
  | .rename source target =>
    match d.locate? source, d.node? source with
    | some old, some (.file text) => d.change target fun place => (d.remove old).put place (.file text)
    | _, _ => (false,d)

def blocks (d : Disk) : FileOp → Bool
  | .lock path => d.locked.contains path
  | _ => false

def listing (d : Disk) : List String :=
  let before := (key d.working ++ "/").toList
  let below := d.nodes.entries.filterMap fun (path,node) =>
    if before.isPrefixOf path.toList then
      let rest := String.ofList (path.toList.drop before.length)
      some (if node = .folder then rest ++ "/" else rest)
    else none
  below.mergeSort fun a b => a ≤ b

end Disk

def Program.run : Program α → Disk → α × Disk
  | .done a, d => (a,d)
  | .step op next, d =>
    let (reply,d) := d.perform op
    (next reply).run d

end VoiceCommand
